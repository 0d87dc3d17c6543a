import Chronicle.Json.Value

/-!
# Filters

A filter is a conjunction of conditions on top-level payload fields. A
condition compares one field with an operand, or asks whether the field is
among some operands. Operands are texts, numbers and truth values; their kind
decides how the field is read before it is compared.

Filters are built with `Filter.push`, which keeps the fields in the order they
are first seen and collects the conditions of each.
-/

namespace Chronicle

/-- An operand of a condition. A number that is not finite has no JSON form; a
filter that holds one is not valid. -/
inductive Scalar where
  | text (value : String)
  | number (value : Number)
  | bool (value : Bool)
  | infinite (negative : Bool)
  | nan
  deriving DecidableEq

/-- The kind of an operand, which is how a field is read to compare with it. -/
inductive ScalarKind where
  | text
  | number
  | bool
  deriving DecidableEq

namespace Scalar

def ofDouble : Double → Scalar
  | .finite x => .number (.float x)
  | .infinite negative => .infinite negative
  | .nan => .nan

def kind : Scalar → ScalarKind
  | .text _ => .text
  | .number _ | .infinite _ | .nan => .number
  | .bool _ => .bool

/-- The operand as a float that is not finite, if it is one. -/
def nonFinite? : Scalar → Option Double
  | .infinite negative => some (.infinite negative)
  | .nan => some .nan
  | _ => none

end Scalar

inductive Comparison where
  | eq
  | neq
  | gt
  | gte
  | lt
  | lte
  deriving DecidableEq

namespace Comparison

/-- The comparison's name in a filter's JSON form. -/
def key : Comparison → String
  | eq => "eq"
  | neq => "neq"
  | gt => "gt"
  | gte => "gte"
  | lt => "lt"
  | lte => "lte"

/-- The comparison with the given name. -/
def ofKey? : String → Option Comparison
  | "eq" => some eq
  | "neq" => some neq
  | "gt" => some gt
  | "gte" => some gte
  | "lt" => some lt
  | "lte" => some lte
  | _ => none

/-- The comparison's spelling in a query. -/
def symbol : Comparison → String
  | eq => "="
  | neq => "!="
  | gt => ">"
  | gte => ">="
  | lt => "<"
  | lte => "<="

/-- Whether the comparison accepts the order of a field and its operand. -/
def accepts : Comparison → Ordering → Bool
  | eq, o => o == .eq
  | neq, o => o != .eq
  | gt, o => o == .gt
  | gte, o => o != .lt
  | lt, o => o == .lt
  | lte, o => o != .gt

end Comparison

inductive Condition where
  | compare (comparison : Comparison) (operand : Scalar)
  | within (operands : List Scalar)
  | outside (operands : List Scalar)
  deriving DecidableEq

namespace Condition

/-- The operator's name in a filter's JSON form. -/
def key : Condition → String
  | compare comparison _ => comparison.key
  | within _ => "in"
  | outside _ => "nin"

/-- The operator's spelling in a query. -/
def symbol : Condition → String
  | compare comparison _ => comparison.symbol
  | within _ => "IN"
  | outside _ => "NOT IN"

def operands : Condition → List Scalar
  | compare _ operand => [operand]
  | within operands | outside operands => operands

/-- The kind of the operands, which is that of the first; none for an empty
list. -/
def kind? (c : Condition) : Option ScalarKind :=
  c.operands.head?.map Scalar.kind

end Condition

structure FieldFilter where
  field : String
  conditions : List Condition
  deriving DecidableEq

/-- A conjunction of conditions on fields. -/
structure Filter where
  fields : List FieldFilter
  deriving DecidableEq, Inhabited

namespace Filter

def empty : Filter := ⟨[]⟩

def isEmpty (f : Filter) : Bool := f.fields.all (·.conditions.isEmpty)

/-- Add a condition at the end of those on a field. -/
def pushField (field : String) (condition : Condition) : List FieldFilter → List FieldFilter
  | [] => [⟨field, [condition]⟩]
  | entry :: rest =>
    if entry.field = field then ⟨field, entry.conditions ++ [condition]⟩ :: rest
    else entry :: pushField field condition rest

/-- Add a condition on a field. A field not seen before comes last. -/
def push (f : Filter) (field : String) (condition : Condition) : Filter :=
  ⟨pushField field condition f.fields⟩

/-- All conditions with their fields, in order. -/
def tests (f : Filter) : List (String × Condition) :=
  f.fields.flatMap fun entry => entry.conditions.map (entry.field, ·)

theorem flatMap_pushField (field : String) (condition : Condition) (fields : List FieldFilter) :
    ((pushField field condition fields).flatMap fun entry =>
      entry.conditions.map (entry.field, ·)).Perm
        ((field, condition) ::
          fields.flatMap fun entry => entry.conditions.map (entry.field, ·)) := by
  induction fields with
  | nil => simp [pushField]
  | cons entry rest ih =>
    rw [pushField]
    split
    · rename_i same
      subst same
      simp only [List.flatMap_cons, List.map_append, List.map_cons, List.map_nil,
        List.append_assoc, List.singleton_append]
      exact List.perm_middle
    · simp only [List.flatMap_cons]
      exact (List.Perm.append_left _ ih).trans List.perm_middle

/-- Pushing adds one condition to those a filter has. -/
theorem tests_push (f : Filter) (field : String) (condition : Condition) :
    (f.push field condition).tests.Perm ((field, condition) :: f.tests) :=
  flatMap_pushField field condition f.fields

end Filter

end Chronicle
