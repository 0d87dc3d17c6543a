import Chronicle.Event.Codec
import Chronicle.Fault

/-!
# Event domains

A domain is a type of events that can be told apart by their `type` and written
as JSON. In JSON an event is tagged: an object with its `type` and its `data`.
The instance says how events are read from and written to this form; from it
come `DomainEvent.ofRaw`, which checks a raw payload against the domain, and
`DomainEvent.toDraft`, which splits an event for writing.
-/

namespace Chronicle

/-- The tagged form of a payload. -/
def Json.tagged (type : String) (data : Json) : Json :=
  .ofMembers [("type", .string type), ("data", data)]

/-- Read a tagged form: the type chooses how the data are read. -/
def Decoder.tagged {α : Type} (variants : List (String × Decoder α)) : Decoder α := fun value => do
  let some tag := value.member? "type" | .error (.missingField "type")
  let name ← Decoder.string tag
  match variants.find? (·.1 = name) with
  | none => .error (.unknownVariant name (variants.map (·.1)))
  | some (_, read) =>
    match value.member? "data" with
    | some data => read data
    | none => .error (.missingField "data")

/-- Split a tagged form for writing: what stands under `data`, or an empty
object when nothing does. -/
def Draft.ofTagged (type : String) : Json → Except Fault Draft
  | .object members =>
    .ok ⟨type, ((Json.object members).member? "data").getD (.object [])⟩
  | other =>
    .error (.serialization
      ("event must serialize as \x7b\"type\", \"data\"\x7d, got " ++ other.text))

class DomainEvent (E : Type) where
  /-- The type an event is written under. -/
  typeOf : E → String
  /-- Read an event from its tagged form. -/
  ofTagged : Decoder E
  /-- Split an event for writing. -/
  toDraft : E → Except Fault Draft

namespace DomainEvent

/-- Read an event from a type and a payload. A payload that does not fit is a
validation fault, which names the type. -/
def ofRaw {E : Type} [DomainEvent E] (type : String) (data : Json) : Except Fault E :=
  (ofTagged (Json.tagged type data)).mapError fun mismatch =>
    .validation (type ++ ": " ++ mismatch.message)

end DomainEvent

/-- Raw events: any type with any payload. -/
instance : DomainEvent Draft where
  typeOf := Draft.type
  ofTagged := Draft.decoder
  toDraft := .ok

def Recorded.decode {E : Type} [DomainEvent E] (row : StoredEvent) : Except Fault (Recorded E) :=
  (DomainEvent.ofRaw row.type row.data).map fun event => ⟨row.id, event, row.created, row.updated⟩

end Chronicle
