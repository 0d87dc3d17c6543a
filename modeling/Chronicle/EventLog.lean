import Chronicle.Action
import Chronicle.Event.Basic

/-!
# Event logs and projection stores

What a state has to offer to serve as an event log and as a projection store.
Appending one event and reading one stream come from the operations on several.
-/

namespace Chronicle

/-- A state that keeps events. -/
class EventLog (S : Type) where
  /-- Write events in order, all or none. -/
  appendBatch : List Draft → Action S (List StoredEvent)
  /-- The last event of a type that passes a filter. -/
  latest : String → Option Filter → Action S (Option StoredEvent)
  /-- The events of some streams, in order and each once, those after a floor
  if one is given. -/
  streams : List Stream → Option EventId → Action S (List StoredEvent)
  /-- Write events in order unless some stream has an event after the floor. -/
  appendIfNoNewer : List Draft → EventId → List Stream → Action S (List StoredEvent)

namespace EventLog

def append {S : Type} [EventLog S] (draft : Draft) : Action S StoredEvent := do
  match (← appendBatch [draft]).getLast? with
  | some row => return row
  | none => throw (.internal "append returned no rows")

def stream {S : Type} [EventLog S] (stream : Stream) (after : Option EventId) :
    Action S (List StoredEvent) :=
  streams [stream] after

end EventLog

/-- A state that keeps projections under a type and an id. -/
class ProjectionStore (S : Type) where
  get : String → String → Action S (Option StoredProjection)
  /-- The projections of a type that pass a filter, by id. -/
  query : String → Option Filter → Action S (List StoredProjection)
  /-- Write data and last event. -/
  save : String → String → Json → EventId → Action S Unit
  /-- Replace the data of a projection that is there. -/
  force : String → String → Json → Action S Unit
  /-- Write data and last event if that moves the last event forward. -/
  update : String → String → Json → EventId → Action S Unit

end Chronicle
