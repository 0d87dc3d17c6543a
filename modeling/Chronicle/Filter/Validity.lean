import Chronicle.Fault
import Chronicle.Filter.Basic
import Chronicle.Json.Printer

/-!
# Validity of filters

A filter is valid when its field names can stand in a query, its numbers are
finite and each of its lists holds operands of one kind. `Filter.check` reports
the first flaw in the order of fields and conditions; within a condition a
number that is not finite comes before a mixed list.
-/

namespace Chronicle

namespace Filter

/-- What is wrong with a filter, or with JSON that should be one. -/
inductive Flaw where
  | notAnObject (value : Json)
  | operatorsNotAnObject (field : String)
  | unknownOperator (key : String)
  | notAScalar (key : String) (value : Json)
  | notAnArray (key : String)
  | emptyName
  | quoteInName (field : String)
  | notFinite (key : String) (value : Double)
  | mixedKinds (key : String)

def Flaw.fault : Flaw → Fault
  | notAnObject value => .invalidFilter s!"filter must be an object, got {value.text}"
  | operatorsNotAnObject field =>
    .invalidFilter s!"operators for field '{field}' must be an object"
  | unknownOperator key => .unknownOperator key
  | notAScalar key value =>
    .invalidFilter s!"operator '{key}' expects a string, number or boolean, got {value.text}"
  | notAnArray key => .invalidFilter s!"operator '{key}' expects an array"
  | emptyName => .invalidFilter "field name is empty"
  | quoteInName field => .invalidFilter s!"field name '{field}' contains a double quote"
  | notFinite key value => .invalidFilter s!"operator '{key}' got non-finite number {value.name}"
  | mixedKinds key => .invalidFilter s!"operator '{key}' requires values of a single type"

/-- A field name stands between double quotes in a query, so it has none of
its own, and it is not empty. -/
def checkName (field : String) : Except Flaw Unit :=
  if field = "" then .error .emptyName
  else if '"' ∈ field.toList then .error (.quoteInName field)
  else .ok ()

/-- All operands are of the first one's kind. -/
def ofOneKind : List Scalar → Bool
  | [] => true
  | first :: rest => rest.all (·.kind = first.kind)

/-- The operands are finite and, in a list, of one kind. -/
def checkCondition (c : Condition) : Except Flaw Unit :=
  match c.operands.findSome? Scalar.nonFinite? with
  | some value => .error (.notFinite c.key value)
  | none => if ofOneKind c.operands then .ok () else .error (.mixedKinds c.key)

/-- The name of a field, then the conditions on it in order. -/
def checkField (entry : FieldFilter) : Except Flaw Unit := do
  checkName entry.field
  entry.conditions.forM checkCondition

/-- The first flaw of a filter, if it has one. -/
def check (f : Filter) : Except Flaw Unit := f.fields.forM checkField

def Valid (f : Filter) : Prop := f.check = .ok ()

/-- The check as an operation that fails. -/
def validate (f : Filter) : Except Fault Unit := f.check.mapError Flaw.fault

/-- The check of a field name as an operation that fails. -/
def validateName (field : String) : Except Fault Unit := (checkName field).mapError Flaw.fault

end Filter

end Chronicle
