/-!
# Metrics

Counters of what the stores did. A counter appears when it is first touched,
also if it is touched with zero. Durations count how often one was recorded.
-/

namespace Chronicle

inductive Meter where
  | eventsAppended (conditional : Bool)
  | appendDuration
  | eventConflicts
  | projectionConflicts
  | rowsRead
  | readDuration
  | projectionsSaved
  | projectionsForced
  | projectionsUpdated
  deriving DecidableEq

def Meter.name : Meter → String
  | eventsAppended false => "keel.events.appended_total\x7bmode=plain\x7d"
  | eventsAppended true => "keel.events.appended_total\x7bmode=conditional\x7d"
  | appendDuration => "keel.events.append_duration_seconds\x7b\x7d"
  | eventConflicts => "keel.conflicts_total\x7btarget=events\x7d"
  | projectionConflicts => "keel.conflicts_total\x7btarget=projections\x7d"
  | rowsRead => "keel.query.rows_total\x7b\x7d"
  | readDuration => "keel.query.duration_seconds\x7b\x7d"
  | projectionsSaved => "keel.projections.writes_total\x7bmode=save\x7d"
  | projectionsForced => "keel.projections.writes_total\x7bmode=force\x7d"
  | projectionsUpdated => "keel.projections.writes_total\x7bmode=conditional\x7d"

/-- The counters that were touched. -/
structure Metrics where
  counts : List (Meter × Nat)
  deriving DecidableEq, Inhabited

namespace Metrics

def empty : Metrics := ⟨[]⟩

/-- The value of a counter; zero if it was not touched. -/
def count (m : Metrics) (meter : Meter) : Nat :=
  ((m.counts.find? (·.1 = meter)).map (·.2)).getD 0

/-- Touch a counter and add to it. -/
def add (m : Metrics) (meter : Meter) (n : Nat) : Metrics :=
  ⟨(m.counts.filter (·.1 ≠ meter)) ++ [(meter, m.count meter + n)]⟩

def appended (m : Metrics) (conditional : Bool) (events : Nat) : Metrics :=
  (m.add (.eventsAppended conditional) events).add .appendDuration 1

def read (m : Metrics) (rows : Nat) : Metrics := (m.add .rowsRead rows).add .readDuration 1

end Metrics

end Chronicle
