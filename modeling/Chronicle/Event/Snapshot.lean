import Chronicle.Event.Codec
import Chronicle.Fault

/-!
# Snapshots

A state is a type of read models that is kept as JSON; one that cannot be written as
JSON is a serialization fault. A snapshot is a stored projection whose data have been
decoded as a state; data that do not fit are a validation fault, which names the
projection's key.
-/

namespace Chronicle

class ProjectedState (S : Type) where
  ofJson : Decoder S
  /-- Write a state as JSON, or say why that cannot be done. -/
  toJson : S → Except String Json

instance : ProjectedState Json := ⟨Decoder.any, .ok⟩

instance : ProjectedState (List Int64) :=
  ⟨Decoder.list Decoder.int64, fun items => .ok (.array (items.map fun n => .ofInt n.toInt))⟩

/-- The data that a state is kept as. -/
def ProjectedState.encode {S : Type} [ProjectedState S] (state : S) : Except Fault Json :=
  (ProjectedState.toJson state).mapError .serialization

/-- A stored projection with its data decoded. -/
structure Snapshot (S : Type) where
  type : String
  id : String
  data : S
  lastEvent : EventId
  created : Instant
  updated : Instant

namespace Snapshot

def decode {S : Type} [ProjectedState S] (row : StoredProjection) : Except Fault (Snapshot S) :=
  match ProjectedState.ofJson row.data with
  | .ok data => .ok ⟨row.type, row.id, data, row.lastEvent, row.created, row.updated⟩
  | .error mismatch =>
    .error (.validation s!"projection {row.type}/{row.id}: {mismatch.message}")

end Snapshot

end Chronicle
