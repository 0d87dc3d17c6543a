import Chronicle.Json.Mismatch

/-!
# Decoders

A decoder reads a JSON value as a value of some type. Those for scalars and
lists are given directly. A record is described field by field, as a `Record`,
and can then be read from an object or from an array of its fields in order.

Of several mismatches the first is reported: in an object that is the first
among the present members in the order of their names, and only after those a
missing field, in the order of declaration.
-/

namespace Chronicle

abbrev Decoder (α : Type) := Json → Except Mismatch α

namespace Decoder

def any : Decoder Json := .ok

def string : Decoder String
  | .string s => .ok s
  | other => .error (.wrongType other "a string")

def bool : Decoder Bool
  | .bool b => .ok b
  | other => .error (.wrongType other "a boolean")

/-- A range of integers with its name in messages. -/
structure IntegerRange where
  name : String
  low : Int
  high : Int

/-- The range of a width, with or without sign. -/
def IntegerRange.int64 : IntegerRange := ⟨"i64", -9223372036854775808, 9223372036854775807⟩

@[inherit_doc IntegerRange.int64]
def IntegerRange.int32 : IntegerRange := ⟨"i32", -2147483648, 2147483647⟩

@[inherit_doc IntegerRange.int64]
def IntegerRange.uint64 : IntegerRange := ⟨"u64", 0, 18446744073709551615⟩

@[inherit_doc IntegerRange.int64]
def IntegerRange.uint8 : IntegerRange := ⟨"u8", 0, 255⟩

/-- An integer within a range. A float is never one. -/
def integer (range : IntegerRange) : Decoder Int
  | .number (.int n h) =>
    if range.low ≤ n ∧ n ≤ range.high then .ok n
    else .error (.wrongValue (.number (.int n h)) range.name)
  | other => .error (.wrongType other range.name)

/-- A word of a width. -/
def int64 : Decoder Int64 := fun value => (integer .int64 value).map Int64.ofInt

@[inherit_doc int64]
def int32 : Decoder Int32 := fun value => (integer .int32 value).map Int32.ofInt

@[inherit_doc int64]
def uint64 : Decoder UInt64 := fun value => (integer .uint64 value).map UInt64.ofInt

@[inherit_doc int64]
def uint8 : Decoder UInt8 := fun value => (integer .uint8 value).map UInt8.ofInt

/-- A float, or an integer as the nearest float. -/
def double : Decoder Double
  | .number n => .ok n.toDouble
  | other => .error (.wrongType other "f64")

/-- Null, or what `item` reads. -/
def optional {α : Type} (item : Decoder α) : Decoder (Option α)
  | .null => .ok none
  | value => (item value).map some

def list {α : Type} (item : Decoder α) : Decoder (List α)
  | .array items => items.mapM item
  | other => .error (.wrongType other "a sequence")

end Decoder

/-- A declared field: whether it has to be present, and whether a value fits
it. -/
structure FieldShape where
  name : String
  required : Bool
  check : Json → Except Mismatch Unit

/-- The description of a record: its fields in order, and how a value is made
from the JSON values of those that are present. -/
structure Record (α : Type) where
  fields : List FieldShape
  build : (String → Option Json) → Except Mismatch α

namespace Record

def pure {α : Type} (value : α) : Record α := ⟨[], fun _ => .ok value⟩

/-- One more field, which may be missing when there is a fallback. -/
def field {α β : Type} (r : Record (α → β)) (name : String) (read : Decoder α)
    (fallback : Option α) : Record β where
  fields := r.fields ++ [⟨name, fallback.isNone, fun value => (read value).map fun _ => ()⟩]
  build get := do
    let make ← r.build get
    match get name with
    | some value => return make (← read value)
    | none =>
      match fallback with
      | some value => return make value
      | none => .error (.missingField name)

/-- One more field, which has to be present. -/
def required {α β : Type} (r : Record (α → β)) (name : String) (read : Decoder α) : Record β :=
  r.field name read none

/-- The present members fit their fields. -/
def checkMembers {α : Type} (r : Record α) (members : List (String × Json)) :
    Except Mismatch Unit :=
  members.forM fun (name, value) =>
    match r.fields.find? (·.name = name) with
    | some shape => shape.check value
    | none => .ok ()

/-- Read the record from the members of an object. Others than the declared
ones are ignored. -/
def readMembers {α : Type} (r : Record α) (members : List (String × Json)) : Except Mismatch α := do
  r.checkMembers members
  r.build fun name => Json.member? name (.object members)

/-- The items fit the fields in order, and no required field is left. -/
def checkItems (wanted : String) (position : Nat) :
    List FieldShape → List Json → Except Mismatch Unit
  | shape :: shapes, item :: items => do
    shape.check item
    checkItems wanted (position + 1) shapes items
  | shape :: shapes, [] =>
    if shape.required then .error (.wrongLength position wanted)
    else checkItems wanted (position + 1) shapes []
  | [], [] => .ok ()
  | [], items =>
    .error (.wrongLength (position + items.length) "fewer elements in array")

/-- Read the record from an array of its fields in order. -/
def readItems {α : Type} (r : Record α) (name : String) (items : List Json) :
    Except Mismatch α := do
  checkItems s!"{name} with {r.fields.length} elements" 0 r.fields items
  let named := (r.fields.map (·.name)).zip items
  r.build fun name => (named.find? (·.1 = name)).map (·.2)

/-- Read the record from an object or an array. The name is that of the
record in messages. -/
def decoder {α : Type} (r : Record α) (name : String) : Decoder α
  | .object members => r.readMembers members
  | .array items => r.readItems name items
  | other => .error (.wrongType other name)

/-- Read the record from an object only. -/
def objectDecoder {α : Type} (r : Record α) (name : String) : Decoder α
  | .object members => r.readMembers members
  | other => .error (.wrongType other name)

end Record

/-- A choice among names, written as a string or as an object with one member
whose value is null. -/
def Decoder.choice {α : Type} (options : List (String × α)) : Decoder α
  | .string name => pick name
  | .object [(name, value)] => do
    let chosen ← pick name
    match value with
    | .null => .ok chosen
    | other => .error (.wrongType other "unit")
  | .object members => .error (.wrongValue (.object members) "map with a single key")
  | other => .error (.wrongType other "string or map")
where
  pick (name : String) : Except Mismatch α :=
    match options.find? (·.1 = name) with
    | some (_, chosen) => .ok chosen
    | none => .error (.unknownVariant name (options.map (·.1)))

end Chronicle
