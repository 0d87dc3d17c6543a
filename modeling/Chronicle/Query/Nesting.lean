import Chronicle.Query.Test

/-!
# The nesting of conditions

A statement is refused when its condition nests too deeply. A chain of
connectives nests to the left, so each of its members adds a level. A condition
that is written as false makes every conjunction that it is in false, which
then has no levels of its own; but the levels that the conjunction had before
count.
-/

namespace Chronicle

/-- How deeply a condition nests, and how deeply it has nested at most while it
was put together. -/
structure Nesting where
  levels : Nat
  most : Nat
  /-- The condition is written as false. -/
  isFalse : Bool
  deriving DecidableEq

namespace Nesting

def ofLevels (n : Nat) : Nesting := ⟨n, n, false⟩

/-- The condition that is written as false. -/
def falsehood : Nesting := ⟨1, 1, true⟩

/-- The condition that is written as true. -/
def truth : Nesting := ofLevels 1

def or (a b : Nesting) : Nesting :=
  let levels := max a.levels b.levels + 1
  ⟨levels, max levels (max a.most b.most), false⟩

def and (a b : Nesting) : Nesting :=
  if a.isFalse || b.isFalse then ⟨1, max a.most b.most, true⟩ else a.or b

/-- Conditions in a chain, and what stands for an empty one. -/
def chain (connect : Nesting → Nesting → Nesting) (none : Nesting) : List Nesting → Nesting
  | [] => none
  | first :: rest => rest.foldl connect first

/-- A column compared with a parameter. -/
def column : Nesting := ofLevels 2

end Nesting

/-- The levels of a field that is read as a kind. As a text it has truth values
spelled out. -/
def ScalarKind.levels : ScalarKind → Nat
  | .text => 4
  | .number | .bool => 3

/-- An empty list is not compared with. -/
def FieldTest.nesting (t : FieldTest) : Nesting :=
  match t.relation with
  | .within [] => .falsehood
  | .outside [] => .truth
  | .outside _ => .ofLevels (t.kind.levels + 2)
  | .compare .. | .within _ => .ofLevels (t.kind.levels + 1)

def nestingOfAll (tests : List FieldTest) : Nesting :=
  .chain .and .truth (tests.map FieldTest.nesting)

/-- An event's type is one of some. A list of one is compared with its member. -/
def nestingOfTypes (types : List String) : Nesting := .ofLevels (if types.length = 1 then 3 else 2)

def StreamTest.nesting : StreamTest → Nesting
  | never => .falsehood
  | ofTypes types tests => (nestingOfTypes types).and (nestingOfAll tests)

def Selection.nesting (s : Selection) : Nesting :=
  .chain .or .falsehood (s.map StreamTest.nesting)

namespace Statement

/-- The most levels that a condition may have. -/
def levelLimit : Nat := 1000

/-- The events of a selection, after a floor if there is one, nest too deeply. -/
def streamsNest (s : Selection) (after : Bool) : Bool :=
  levelLimit < (if after then s.nesting.and .column else s.nesting).most

/-- The rows of a type that pass some tests nest too deeply. -/
def testsNest (tests : List FieldTest) : Bool :=
  levelLimit < (Nesting.column.and (nestingOfAll tests)).most

/-- A guard nests too deeply. It stands in a statement within the guarded one,
where its levels count once more. -/
def guardNests (s : Selection) : Bool :=
  let guard := Nesting.column.and s.nesting
  levelLimit < max guard.most (2 * guard.levels + 2)

end Statement

end Chronicle
