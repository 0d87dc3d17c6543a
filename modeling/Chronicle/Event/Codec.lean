import Chronicle.Event.Basic
import Chronicle.Filter.Wire
import Chronicle.Json.Decoder
import Chronicle.Time.Rfc3339

/-!
# Events, streams and projections as JSON

Each of these records is read from an object or from an array of its fields,
and written as an object.
-/

namespace Chronicle

/-- A date and time in its lenient form. -/
def Decoder.instant : Decoder Instant
  | .string s => (Instant.ofLenient s).mapError fun flaw => .content flaw.message
  | other => .error (.wrongType other "an RFC 3339 formatted date and time string")

def Instant.toJson (i : Instant) : Json := .string i.text

/-- An integer as a JSON number. Those beyond the 64-bit ranges, which do not
occur, have none. -/
def Json.ofInt (n : Int) : Json :=
  match Number.ofInt? n with
  | some n => .number n
  | none => .null

def Json.ofStrings (items : List String) : Json := .array (items.map .string)

/-- A filter whose flaws become mismatches. -/
def Filter.decoder : Decoder Filter := fun value =>
  (Filter.ofJson value).mapError fun flaw => .content flaw.fault.message

namespace Draft

def decoder : Decoder Draft :=
  (Record.pure Draft.mk
    |>.required "type" Decoder.string
    |>.required "data" Decoder.any).decoder "struct NewEvent"

def toJson (d : Draft) : Json :=
  .ofMembers [("type", .string d.type), ("data", d.data)]

end Draft

namespace StoredEvent

def decoder : Decoder StoredEvent :=
  (Record.pure StoredEvent.mk
    |>.required "id" (Decoder.integer .int64)
    |>.required "type" Decoder.string
    |>.required "data" Decoder.any
    |>.required "createdAt" Decoder.instant
    |>.required "updatedAt" Decoder.instant).decoder "struct StoredEvent"

def toJson (e : StoredEvent) : Json :=
  .ofMembers
    [("id", .ofInt e.id), ("type", .string e.type), ("data", e.data),
      ("createdAt", e.created.toJson), ("updatedAt", e.updated.toJson)]

end StoredEvent

namespace Stream

def decoder : Decoder Stream :=
  (Record.pure Stream.mk
    |>.required "types" (Decoder.list Decoder.string)
    |>.field "filter" (Decoder.optional Filter.decoder) (some none)).decoder "struct StreamSpec"

/-- A stream without filter is written without one. -/
def toJson (s : Stream) : Json :=
  .ofMembers (("types", .ofStrings s.types) ::
    match s.filter with
    | some f => [("filter", f.toJson)]
    | none => [])

end Stream

namespace StoredProjection

def decoder : Decoder StoredProjection :=
  (Record.pure StoredProjection.mk
    |>.required "type" Decoder.string
    |>.required "id" Decoder.string
    |>.required "data" Decoder.any
    |>.required "lastEventId" (Decoder.integer .int64)
    |>.required "createdAt" Decoder.instant
    |>.required "updatedAt" Decoder.instant).decoder "struct StoredProjection"

def toJson (p : StoredProjection) : Json :=
  .ofMembers
    [("type", .string p.type), ("id", .string p.id), ("data", p.data),
      ("lastEventId", .ofInt p.lastEvent), ("createdAt", p.created.toJson),
      ("updatedAt", p.updated.toJson)]

end StoredProjection

end Chronicle
