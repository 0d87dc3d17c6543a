import Chronicle.Event.Domain

/-!
# A domain of every shape

Events whose payloads take each of the shapes a payload can have: nothing, one
value, a pair and a record. The event without payload is written as an empty
object, which it does not read back from.
-/

namespace Chronicle.Sample

inductive Probe where
  | ping
  | note (text : String)
  | pair (number : Int64) (flag : Bool)
  | box (width : UInt8) (label : Option String)
  deriving DecidableEq

namespace Probe

def type : Probe → String
  | ping => "PING"
  | note _ => "NOTE"
  | pair .. => "PAIR"
  | box .. => "BOX"

/-- Nothing is null. -/
def readPing : Decoder Probe
  | .null => .ok ping
  | other => .error (.wrongType other "unit variant Probe::Ping")

/-- A pair is an array of two items. -/
def readPair : Decoder Probe
  | .array [] => .error (.wrongLength 0 "tuple variant Probe::Pair with 2 elements")
  | .array (first :: rest) => do
    let number ← Decoder.int64 first
    match rest with
    | [] => .error (.wrongLength 1 "tuple variant Probe::Pair with 2 elements")
    | second :: rest =>
      let flag ← Decoder.bool second
      if rest = [] then .ok (pair number flag)
      else .error (.wrongLength (rest.length + 2) "2 elements in sequence")
  | other => .error (.wrongType other "tuple variant Probe::Pair")

/-- How the data of each type are read. -/
def variants : List (String × Decoder Probe) :=
  [("PING", readPing),
    ("NOTE", fun value => (Decoder.string value).map note),
    ("PAIR", readPair),
    ("BOX",
      (((Record.pure box).required "w" Decoder.uint8).field "label"
        (Decoder.optional Decoder.string) (some none)).objectDecoder
          "struct variant Probe::Box")]

def toTagged (e : Probe) : Json :=
  match e with
  | ping => .ofMembers [("type", .string e.type)]
  | note text => Json.tagged e.type (.string text)
  | pair number flag => Json.tagged e.type (.array [.ofInt number.toInt, .bool flag])
  | box width label =>
    Json.tagged e.type
      (.ofMembers [("w", .ofInt width.toNat), ("label", label.elim .null .string)])

end Probe

instance : DomainEvent Probe where
  typeOf := Probe.type
  ofTagged := Decoder.tagged Probe.variants
  toDraft e := Draft.ofTagged e.type e.toTagged

end Chronicle.Sample
