import Chronicle.Json.Printer
import Chronicle.Json.Rereading
import Chronicle.Query.Path

/-!
# Payloads as queries see them

A payload column holds JSON text. Rows written by the library hold the compact
text of a value, and are kept here as that value; rows put there from outside
hold a document of any spelling, which may not be readable as a value. A
document may even be followed by a NUL and anything else: queries stop at the
NUL, and reading fails.

A query looks at one top-level field (`Payload.cell?`) and reads what it finds
there as text, as a real or as an integer, whatever it is. Absent and null
fields are not found at all.
-/

namespace Chronicle

/-- The content of a payload column. -/
inductive Payload where
  | value (data : Json)
  | verbatim (document : Document) (cutShort : Bool)
  deriving Inhabited

def points (s : String) : List Nat := s.toList.map Char.toNat

/-- What a query finds at a field: integers of 64 bits with sign are exact,
other numbers are read from their text as reals, and arrays and objects are
their text. -/
inductive Cell where
  | bool (value : Bool)
  | int (value : Int)
  | real (value : Double)
  | text (points : List Nat)

namespace Cell

/-- The integer is one of 64 bits with sign. -/
def isInt64 (n : Int) : Bool := Double.int64Range.1 ≤ n && n ≤ Double.int64Range.2

/-- What a query finds where a JSON value stands. -/
def ofJson? : Json → Option Cell
  | .null => none
  | .bool b => some (.bool b)
  | .number (.int n _) =>
    some (if isInt64 n then .int n else .real (leadingReal (toString n).toList))
  | .number (.float x) => some (.real (leadingReal x.jsonText.toList))
  | .string s => some (.text (Chronicle.points s))
  | .array items => some (.text (Chronicle.points (Json.array items).text))
  | .object members => some (.text (Chronicle.points (Json.object members).text))

/-- What a query finds where a document stands. An integer has neither point
nor exponent. -/
def ofDocument? : Document → Option Cell
  | .null => none
  | .bool b => some (.bool b)
  | .number spelling =>
    let n := Document.spelledInt spelling
    some (if Document.isIntegral spelling && isInt64 n then .int n
      else .real (leadingReal spelling))
  | .string spelling => some (.text (Document.codePoints spelling))
  | .array items => some (.text (Chronicle.points (Document.array items).text))
  | .object members => some (.text (Chronicle.points (Document.object members).text))

def asText : Cell → List Nat
  | bool true => Chronicle.points "true"
  | bool false => Chronicle.points "false"
  | int n => Chronicle.points (toString n)
  | real x => Chronicle.points x.queryText
  | text points => points

/-- The characters of a text; half of a surrogate pair, which is none, becomes
one that no number has. -/
def characters (points : List Nat) : List Char := points.map Char.ofNat

def asReal : Cell → Double
  | bool b => .ofInt (if b then 1 else 0)
  | int n => .ofInt n
  | real x => x
  | text points => leadingReal (characters points)

def asInteger : Cell → Int
  | bool b => if b then 1 else 0
  | int n => n
  | real x => x.toInt64
  | text points => leadingInteger (characters points)

end Cell

namespace Payload

/-- The first of some members whose name agrees with the code points. -/
def find? {α : Type} (name : List Nat) (members : List (List Nat × α)) : Option α :=
  (members.find? fun m => sameName m.1 name).map (·.2)

/-- What a query finds at a top-level field. Only objects have fields. -/
def cell? (field : String) : Payload → Option Cell
  | .value (.object members) =>
    (find? (pathPoints field) (members.map fun m => (points m.1, m.2))).bind Cell.ofJson?
  | .verbatim (.object members) _ =>
    (find? (pathPoints field) (members.map fun m => (Document.codePoints m.1, m.2))).bind
      Cell.ofDocument?
  | _ => none

def depth : Payload → Nat
  | value data => data.depth
  | verbatim document _ => document.depth

/-- The deepest nesting that a payload column takes. -/
def writeDepth : Nat := 1000

/-- The deepest nesting that is read back. -/
def readDepth : Nat := 127

def isStorable (p : Payload) : Bool := p.depth ≤ writeDepth

/-- The value that the column's text is read as, if it can be read. -/
def toJson? (p : Payload) : Option Json :=
  if readDepth < p.depth then none else
  match p with
  | value data => data.reread?
  | verbatim document cutShort => if cutShort then none else document.toJson?

end Payload

end Chronicle
