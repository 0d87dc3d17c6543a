import Chronicle.EventLog
import Chronicle.Event.Domain
import Chronicle.Event.Snapshot
import Chronicle.Filter.Validity

/-!
# Typed clients

A client writes and reads the events of one domain over any event log, and
states over any projection store. What is to be written is checked against the
domain before the log is asked, so that what is rejected is not written: an
event has to read back from the form it would be written in. Filters are checked
first of all. Rows that come back are decoded; a row that does not fit the
domain is a validation fault, although it was written.
-/

namespace Chronicle

namespace Client

variable {S : Type}

section Events

variable [EventLog S]

/-- Every filter of the streams is valid. -/
def checkStreams (specs : List Stream) : Except Fault Unit :=
  specs.forM fun spec => spec.filter.forM Filter.validate

/-- Every draft reads as an event of the domain. -/
def checkDrafts (E : Type) [DomainEvent E] (drafts : List Draft) : Except Fault Unit :=
  drafts.forM fun draft => (DomainEvent.ofRaw (E := E) draft.type draft.data).map fun _ => ()

/-- Split events for writing and check that they read back. -/
def encode {E : Type} [DomainEvent E] (events : List E) : Except Fault (List Draft) := do
  let drafts ← events.mapM DomainEvent.toDraft
  checkDrafts E drafts
  return drafts

/-- Decode rows in order; the first that does not fit fails. -/
def decodeAll (E : Type) [DomainEvent E] (rows : List StoredEvent) :
    Except Fault (List (Recorded E)) :=
  rows.mapM Recorded.decode

def appendRaw (E : Type) [DomainEvent E] (draft : Draft) : Action S (Recorded E) := do
  Action.ofExcept (checkDrafts E [draft])
  let row ← EventLog.append draft
  Action.ofExcept (Recorded.decode row)

def append {E : Type} [DomainEvent E] (event : E) : Action S (Recorded E) := do
  let draft ← Action.ofExcept (DomainEvent.toDraft event)
  appendRaw E draft

/-- Append raw events, all or none. -/
def appendBatchRaw (E : Type) [DomainEvent E] (drafts : List Draft) :
    Action S (List (Recorded E)) := do
  Action.ofExcept (checkDrafts E drafts)
  let rows ← EventLog.appendBatch drafts
  Action.ofExcept (decodeAll E rows)

/-- Append events, all or none. -/
def appendBatch {E : Type} [DomainEvent E] (events : List E) : Action S (List (Recorded E)) := do
  let drafts ← Action.ofExcept (encode events)
  let rows ← EventLog.appendBatch drafts
  Action.ofExcept (decodeAll E rows)

/-- The last event of a type that passes a filter. -/
def latest (E : Type) [DomainEvent E] (type : String) (filter : Option Filter) :
    Action S (Option (Recorded E)) := do
  Action.ofExcept (filter.forM Filter.validate)
  match ← EventLog.latest type filter with
  | none => return none
  | some row => return some (← Action.ofExcept (Recorded.decode row))

/-- The events of some streams, in order and each once, those after a floor if
one is given. -/
def streams (E : Type) [DomainEvent E] (specs : List Stream) (after : Option EventId) :
    Action S (List (Recorded E)) := do
  Action.ofExcept (checkStreams specs)
  let rows ← EventLog.streams specs after
  Action.ofExcept (decodeAll E rows)

def stream (E : Type) [DomainEvent E] (spec : Stream) (after : Option EventId) :
    Action S (List (Recorded E)) :=
  streams E [spec] after

/-- Append events unless some stream has an event after the floor. -/
def appendIfNoNewer {E : Type} [DomainEvent E] (events : List E) (floor : EventId)
    (specs : List Stream) : Action S (List (Recorded E)) := do
  Action.ofExcept (checkStreams specs)
  let drafts ← Action.ofExcept (encode events)
  let rows ← EventLog.appendIfNoNewer drafts floor specs
  Action.ofExcept (decodeAll E rows)

end Events

section Projections

variable [ProjectionStore S]

def getProjection (T : Type) [ProjectedState T] (type id : String) :
    Action S (Option (Snapshot T)) := do
  match ← ProjectionStore.get type id with
  | none => return none
  | some row => return some (← Action.ofExcept (Snapshot.decode row))

/-- The snapshots of a type that pass a filter, by id. -/
def queryProjections (T : Type) [ProjectedState T] (type : String) (filter : Option Filter) :
    Action S (List (Snapshot T)) := do
  Action.ofExcept (filter.forM Filter.validate)
  let rows ← ProjectionStore.query type filter
  Action.ofExcept (rows.mapM Snapshot.decode)

/-- Write a state and its last event. -/
def saveProjection {T : Type} [ProjectedState T] (type id : String) (state : T)
    (event : EventId) : Action S Unit := do
  let data ← Action.ofExcept (ProjectedState.encode state)
  ProjectionStore.save type id data event

/-- Replace the state of a projection and leave its last event. -/
def forceProjection {T : Type} [ProjectedState T] (type id : String) (state : T) :
    Action S Unit := do
  let data ← Action.ofExcept (ProjectedState.encode state)
  ProjectionStore.force type id data

/-- Write a state and its last event if that moves the last event forward. -/
def updateProjection {T : Type} [ProjectedState T] (type id : String) (state : T)
    (event : EventId) : Action S Unit := do
  let data ← Action.ofExcept (ProjectedState.encode state)
  ProjectionStore.update type id data event

end Projections

end Client

end Chronicle
