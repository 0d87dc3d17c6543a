import Chronicle.Filter.Validity

/-!
# Filters as JSON

In JSON a filter maps field names to objects that map operators to operands:
each field and each operator once. `Filter.ofJson` reads this form in the order
of the names, stops at the first member that is not of the form, and checks the
result. `Filter.toJson` writes a filter; of conditions on one field with one
operator the last is written.
-/

namespace Chronicle

/-- Read an operand of the operator with the given name. -/
def Scalar.ofJson (key : String) : Json → Except Filter.Flaw Scalar
  | .string s => .ok (.text s)
  | .number n => .ok (.number n)
  | .bool b => .ok (.bool b)
  | other => .error (.notAScalar key other)

/-- An operand as JSON. Numbers that are not finite become null. -/
def Scalar.toJson : Scalar → Json
  | .text s => .string s
  | .number n => .number n
  | .bool b => .bool b
  | .infinite _ | .nan => .null

def Scalar.listOfJson (key : String) : Json → Except Filter.Flaw (List Scalar)
  | .array items => items.mapM (Scalar.ofJson key)
  | _ => .error (.notAnArray key)

/-- Read the condition that an operator and its operand state. -/
def Condition.ofJson (key : String) (operand : Json) : Except Filter.Flaw Condition :=
  match Comparison.ofKey? key with
  | some comparison => (Scalar.ofJson key operand).map (.compare comparison)
  | none =>
    if key = "in" then (Scalar.listOfJson key operand).map .within
    else if key = "nin" then (Scalar.listOfJson key operand).map .outside
    else .error (.unknownOperator key)

/-- The operand or operands of a condition as JSON. -/
def Condition.operandJson : Condition → Json
  | .compare _ operand => operand.toJson
  | .within operands | .outside operands => .array (operands.map Scalar.toJson)

namespace Filter

def addOperators (field : String) (f : Filter) (operators : List (String × Json)) :
    Except Flaw Filter :=
  operators.foldlM (fun f (key, operand) => (Condition.ofJson key operand).map (f.push field)) f

/-- Add one field with its conditions. -/
def addMember (f : Filter) : String × Json → Except Flaw Filter
  | (field, .object operators) => f.addOperators field operators
  | (field, _) => .error (.operatorsNotAnObject field)

/-- The filter that JSON describes, before its check. -/
def assemble : Json → Except Flaw Filter
  | .object members => members.foldlM addMember empty
  | other => .error (.notAnObject other)

/-- Read a filter. Flaws of the form come before those of the content. -/
def ofJson (value : Json) : Except Flaw Filter := do
  let f ← assemble value
  f.check
  return f

def toJson (f : Filter) : Json :=
  .ofMembers (f.fields.map fun entry =>
    (entry.field, .ofMembers (entry.conditions.map fun c => (c.key, c.operandJson))))

end Filter

end Chronicle
