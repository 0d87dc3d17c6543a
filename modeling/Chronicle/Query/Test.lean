import Chronicle.Event.Basic
import Chronicle.Filter.Validity
import Chronicle.Query.Payload

/-!
# Selections

A query selects rows by tests. Filters and streams are compiled to tests, and
the tests have a meaning (`holds`) and, in `Chronicle.Query.Fragment`, a text.
Tests bind parameters: the operand texts and numbers of the filter, with truth
values as 1 and 0.

* A `FieldTest` reads one field as the kind of its operands and compares.
* A filter is a list of field tests, all of which have to hold.
* A `StreamTest` asks for one of some types and for a filter.
* A `Selection` is a list of stream tests, one of which has to hold.
-/

namespace Chronicle

/-- A parameter of a query. -/
inductive Param where
  | int (value : Int)
  | real (value : Double)
  | text (value : String)
  deriving DecidableEq

/-- A field as it was read. -/
inductive Reading where
  | int (value : Int)
  | real (value : Double)
  | text (points : List Nat)

namespace Reading

/-- The order of a field and a parameter. Numbers compare exactly and texts by
their code points; a number comes before every text. -/
def compare : Reading → Param → Option Ordering
  | int a, .int b => some (Ord.compare a b)
  | int a, .real b => (b.compareInt a).map Ordering.swap
  | real a, .int b => a.compareInt b
  | real a, .real b => a.compare b
  | text a, .text b => some (Ord.compare a (points b))
  | text _, _ => some .gt
  | _, .text _ => some .lt

end Reading

/-- A content read as the kind of the operands. -/
def Cell.read (kind : ScalarKind) (cell : Cell) : Reading :=
  match kind with
  | .text => .text cell.asText
  | .number => .real cell.asReal
  | .bool => .int cell.asInteger

/-- What a field test asks of the field's reading. -/
inductive Relation where
  | compare (comparison : Comparison) (operand : Param)
  | within (operands : List Param)
  | outside (operands : List Param)
  deriving DecidableEq

namespace Relation

/-- A comparison with one parameter holds. -/
def compares (comparison : Comparison) (reading : Reading) (operand : Param) : Bool :=
  (reading.compare operand).any comparison.accepts

/-- The relation holds of a field. One that was not found is in no relation,
except that it is outside the empty list. -/
def holds : Relation → Option Reading → Bool
  | compare comparison operand, some reading => compares comparison reading operand
  | within operands, some reading => operands.any (compares .eq reading)
  | outside operands, some reading => operands.all (compares .neq reading)
  | outside [], none => true
  | _, none => false

end Relation

structure FieldTest where
  field : String
  kind : ScalarKind
  relation : Relation
  deriving DecidableEq

def FieldTest.holds (t : FieldTest) (payload : Payload) : Bool :=
  t.relation.holds ((payload.cell? t.field).map (Cell.read t.kind))

def Scalar.param : Scalar → Param
  | .text s => .text s
  | .number (.int n h) =>
    if Cell.isInt64 n then .int n else .real (Number.int n h).toDouble
  | .number (.float x) => .real (.finite x)
  | .bool b => .int (if b then 1 else 0)
  | .infinite negative => .real (.infinite negative)
  | .nan => .real .nan

/-- A condition on a field as a test. An empty list reads the field as text. -/
def Condition.test (field : String) (c : Condition) : FieldTest where
  field := field
  kind := c.kind?.getD .text
  relation := match c with
    | .compare comparison operand => .compare comparison operand.param
    | .within operands => .within (operands.map Scalar.param)
    | .outside operands => .outside (operands.map Scalar.param)

/-- The tests of a filter, without checking it. -/
def Filter.fieldTests (f : Filter) : List FieldTest :=
  f.tests.map fun (field, c) => c.test field

/-- Compile a filter, which has to be valid. -/
def Filter.compile (f : Filter) : Except Fault (List FieldTest) := do
  f.validate
  return f.fieldTests

def holdsAll (tests : List FieldTest) (payload : Payload) : Bool := tests.all (·.holds payload)

/-- Compile a filter that may be absent, which then has no test. -/
def compileOptional : Option Filter → Except Fault (List FieldTest)
  | some f => f.compile
  | none => .ok []

inductive StreamTest where
  /-- Holds of no event. -/
  | never
  /-- The event has one of the types and its payload passes the tests. -/
  | ofTypes (types : List String) (tests : List FieldTest)
  deriving DecidableEq

def StreamTest.holds (type : String) (payload : Payload) : StreamTest → Bool
  | never => false
  | ofTypes types tests => types.contains type && holdsAll tests payload

/-- Compile a stream. One without types has no events, whatever its filter. -/
def Stream.compile (s : Stream) : Except Fault StreamTest :=
  if s.types = [] then .ok .never
  else (compileOptional s.filter).map (.ofTypes s.types)

/-- The union of some streams. -/
abbrev Selection := List StreamTest

def Selection.holds (s : Selection) (type : String) (payload : Payload) : Bool :=
  s.any (·.holds type payload)

/-- Compile streams in order; the first that has an invalid filter fails. -/
def Selection.compile (streams : List Stream) : Except Fault Selection :=
  streams.mapM Stream.compile

end Chronicle
