import Chronicle.Store.Basic

/-!
# The event log of a store

Appending writes all rows or none. The guarded append decides and writes in one
step: it is refused when a watched stream has an event after the floor. Filters
are compiled before anything else, so an invalid one fails without the lock.
-/

namespace Chronicle

namespace Store

/-- Write drafts in order, all or none, and read them back. -/
def writeAll (drafts : List Draft) : Action Store (List StoredEvent) := do
  let s ← get
  let (rows, tables) ← Action.ofExcept (Tables.insertAll s.now drafts s.tables)
  commit tables
  return rows

theorem run_writeAll (drafts : List Draft) (s : Store) :
    (writeAll drafts).run s =
      match Tables.insertAll s.now drafts s.tables with
      | .ok (events, tables) => (.ok events, { s with tables := tables })
      | .error fault => (.error fault, s) := by
  cases written : Tables.insertAll s.now drafts s.tables <;>
    simp [writeAll, Action.run_bind, Action.run_map, Except.map, written]

def appendBatch (drafts : List Draft) : Action Store (List StoredEvent) := do
  if drafts.isEmpty then return []
  lock
  let rows ← writeAll drafts
  count (·.appended false rows.length)
  return rows

theorem run_appendBatch (drafts : List Draft) (s : Store) :
    (appendBatch drafts).run s =
      if drafts = [] then (.ok [], s)
      else if s.poisoned then (.error (.lock "connection mutex poisoned"), s)
      else match Tables.insertAll s.now drafts s.tables with
        | .ok (events, tables) =>
          (.ok events,
            { s with tables := tables, metrics := s.metrics.appended false events.length })
        | .error fault => (.error fault, s) := by
  unfold appendBatch
  by_cases poisoned : s.poisoned <;>
    cases written : Tables.insertAll s.now drafts s.tables <;>
    simp [Action.run_bind, Action.run_map, Action.run_ite, run_writeAll, Except.map, poisoned,
      written]

/-- Read the last event of a type that passes a filter. -/
def latest (type : String) (filter : Option Filter) : Action Store (Option StoredEvent) := do
  let tests ← Action.ofExcept (compileOptional filter)
  lock
  prepare (Statement.selectLatest type tests) (Statement.testsNest tests)
  match (← get).tables.latest? type tests with
  | none =>
    count (·.read 0)
    return none
  | some row =>
    let event ← Action.ofExcept row.read
    count (·.read 1)
    return some event

theorem run_latest (type : String) (filter : Option Filter) (s : Store) :
    (latest type filter).run s =
      match compileOptional filter with
      | .error fault => (.error fault, s)
      | .ok tests =>
        if s.poisoned then (.error (.lock "connection mutex poisoned"), s)
        else if Statement.testsNest tests ∨ ¬ (Statement.selectLatest type tests).isPreparable then
          (.error (.storage "statement cannot be prepared"), s)
        else match s.tables.latest? type tests with
          | none => (.ok none, { s with metrics := s.metrics.read 0 })
          | some row =>
            match row.read with
            | .ok event => (.ok (some event), { s with metrics := s.metrics.read 1 })
            | .error fault => (.error fault, s) := by
  unfold latest
  cases compiled : compileOptional filter with
  | error fault => simp [Action.run_bind]
  | ok tests =>
    cases poisoned : s.poisoned <;>
      cases nests : Statement.testsNest tests <;>
      cases prepared : (Statement.selectLatest type tests).isPreparable <;>
      cases found : s.tables.latest? type tests with
    | none => simp [Action.run_bind, Action.run_map, Except.map, poisoned, nests, prepared, found]
    | some row =>
      cases reads : row.read <;>
        simp [Action.run_bind, Action.run_map, Except.map, poisoned, nests, prepared, found, reads]

/-- Read the events of some streams, those after a floor if one is given. -/
def streams (specs : List Stream) (after : Option EventId) :
    Action Store (List StoredEvent) := do
  let selection ← Action.ofExcept (Selection.compile specs)
  if specs.isEmpty then return []
  lock
  prepare (Statement.selectStreams selection after)
    (Statement.streamsNest selection after.isSome)
  let rows := (← get).tables.selected selection after
  let events ← Action.ofExcept (rows.mapM EventRow.read)
  count (·.read events.length)
  return events

theorem run_streams (specs : List Stream) (after : Option EventId) (s : Store) :
    (streams specs after).run s =
      match Selection.compile specs with
      | .error fault => (.error fault, s)
      | .ok selection =>
        if specs = [] then (.ok [], s)
        else if s.poisoned then (.error (.lock "connection mutex poisoned"), s)
        else if Statement.streamsNest selection after.isSome ∨
            ¬ (Statement.selectStreams selection after).isPreparable then
          (.error (.storage "statement cannot be prepared"), s)
        else match (s.tables.selected selection after).mapM EventRow.read with
          | .ok events => (.ok events, { s with metrics := s.metrics.read events.length })
          | .error fault => (.error fault, s) := by
  unfold streams
  cases compiled : Selection.compile specs with
  | error fault => simp [Action.run_bind]
  | ok selection =>
    cases poisoned : s.poisoned <;>
      cases nests : Statement.streamsNest selection after.isSome <;>
      cases prepared : (Statement.selectStreams selection after).isPreparable <;>
      cases reads : (s.tables.selected selection after).mapM EventRow.read <;>
      simp [Action.run_bind, Action.run_map, Action.run_ite, Except.map, poisoned, nests,
        prepared, reads]

/-- Append events unless one of some streams has an event after the floor. -/
def appendIfNoNewer (drafts : List Draft) (floor : EventId) (specs : List Stream) :
    Action Store (List StoredEvent) := do
  let selection ← Action.ofExcept (Selection.compile specs)
  if drafts.isEmpty then return []
  lock
  prepare (Statement.guardedInsert drafts floor selection) (Statement.guardNests selection)
  if ((← get).tables.selected selection (some floor)).isEmpty then
    let rows ← writeAll drafts
    count (·.appended true rows.length)
    return rows
  else
    count (·.add .eventConflicts 1)
    throw (.newerEvents floor)

theorem run_appendIfNoNewer (drafts : List Draft) (floor : EventId) (specs : List Stream)
    (s : Store) :
    (appendIfNoNewer drafts floor specs).run s =
      match Selection.compile specs with
      | .error fault => (.error fault, s)
      | .ok selection =>
        if drafts = [] then (.ok [], s)
        else if s.poisoned then (.error (.lock "connection mutex poisoned"), s)
        else if Statement.guardNests selection ∨
            ¬ (Statement.guardedInsert drafts floor selection).isPreparable then
          (.error (.storage "statement cannot be prepared"), s)
        else if s.tables.selected selection (some floor) ≠ [] then
          (.error (.newerEvents floor),
            { s with metrics := s.metrics.add .eventConflicts 1 })
        else match Tables.insertAll s.now drafts s.tables with
          | .ok (events, tables) =>
            (.ok events,
              { s with tables := tables, metrics := s.metrics.appended true events.length })
          | .error fault => (.error fault, s) := by
  unfold appendIfNoNewer
  cases compiled : Selection.compile specs with
  | error fault => simp [Action.run_bind]
  | ok selection =>
    cases poisoned : s.poisoned <;>
      cases nests : Statement.guardNests selection <;>
      cases prepared : (Statement.guardedInsert drafts floor selection).isPreparable <;>
      by_cases quiet : s.tables.selected selection (some floor) = [] <;>
      cases written : Tables.insertAll s.now drafts s.tables <;>
      simp [Action.run_bind, Action.run_map, Action.run_ite, run_writeAll, Except.map, poisoned,
        nests, prepared, quiet, written]

instance : EventLog Store where
  appendBatch := appendBatch
  latest := latest
  streams := streams
  appendIfNoNewer := appendIfNoNewer

end Store

end Chronicle
