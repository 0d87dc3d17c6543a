import Chronicle.Filter.Basic
import Chronicle.Time.Instant

/-!
# Events, streams and projections

The nouns of the event log. A `Draft` is an event not yet written, a
`StoredEvent` one that has been. A `Stream` selects events by type and payload;
it serves both for reading and for guarding a conditional append. A
`StoredProjection` is a read model kept under a type and an id, with the last
event folded into it.
-/

namespace Chronicle

/-- The number of an event. The store counts from 1 upward. -/
abbrev EventId := Int

/-- The floor of a caller that has seen no event. -/
def noEvent : EventId := 0

/-- An event not yet written. -/
structure Draft where
  type : String
  data : Json
  deriving Inhabited

/-- An event as written, with its number and time stamps. -/
structure StoredEvent where
  id : EventId
  type : String
  data : Json
  created : Instant
  updated : Instant
  deriving Inhabited

/-- A set of event types and a condition on the payload. Without types it has
no events. -/
structure Stream where
  types : List String
  filter : Option Filter
  deriving DecidableEq, Inhabited

/-- A read model under its key, with the last event folded into it. -/
structure StoredProjection where
  type : String
  id : String
  data : Json
  lastEvent : EventId
  created : Instant
  updated : Instant
  deriving Inhabited

/-- A written event whose payload has been decoded. -/
structure Recorded (E : Type) where
  id : EventId
  event : E
  created : Instant
  updated : Instant

end Chronicle
