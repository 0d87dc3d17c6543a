import Chronicle.Query.Test

/-!
# The text of selections

A fragment is a piece of query text with the parameters of its question marks,
in order. Field names stand inside string literals, where a quote is doubled;
all other texts and numbers are parameters.

The text of a field depends on the kind it is read as (`fieldText`). Read as
text, it is also what a payload index is built on.
-/

namespace Chronicle

/-- A piece of query text with its parameters. -/
structure Fragment where
  text : String
  params : List Param
  deriving DecidableEq

namespace Fragment

/-- Holds always, or never. -/
def constant (value : Bool) : Fragment := ⟨if value then "1" else "0", []⟩

/-- Fragments in parentheses with a connective between them. -/
def join (connective : String) (parts : List Fragment) : Fragment where
  text := connective.intercalate (parts.map fun part => "(" ++ part.text ++ ")")
  params := parts.flatMap Fragment.params

/-- The most parameters that a statement may have. -/
def paramLimit : Nat := 32766

/-- A statement ends at a NUL, and one that ends within a literal cannot be
prepared, nor can one with too many parameters. -/
def isPreparable (f : Fragment) : Bool :=
  !f.text.toList.contains (Char.ofNat 0) && f.params.length ≤ paramLimit

end Fragment

/-- A text inside a string literal: quotes are doubled. -/
def doubleQuotes : List Char → List Char
  | [] => []
  | c :: cs => if c = '\'' then '\'' :: '\'' :: doubleQuotes cs else c :: doubleQuotes cs

/-- The literal that is the path of a field. -/
def pathLiteral (field : String) : String :=
  "'$.\"" ++ String.ofList (doubleQuotes field.toList) ++ "\"'"

def extractText (field : String) : String :=
  "json_extract(data, " ++ pathLiteral field ++ ")"

/-- The column type that a kind is cast to. -/
def ScalarKind.castType : ScalarKind → String
  | .text => "TEXT"
  | .number => "REAL"
  | .bool => "INTEGER"

def castText (field : String) (kind : ScalarKind) : String :=
  "CAST(" ++ extractText field ++ " AS " ++ kind.castType ++ ")"

/-- A field read as a kind. Truth values extract as numbers, so as text they
are spelled out. -/
def fieldText (field : String) (kind : ScalarKind) : String :=
  match kind with
  | .text =>
    "CASE json_type(data, " ++ pathLiteral field ++
      ") WHEN 'true' THEN 'true' WHEN 'false' THEN 'false' ELSE " ++ castText field .text ++ " END"
  | .number | .bool => castText field kind

def placeholders (n : Nat) : String := ", ".intercalate (List.replicate n "?")

/-- A relation to the right of its field. -/
def Relation.fragment : Relation → Fragment
  | compare comparison operand => ⟨comparison.symbol ++ " ?", [operand]⟩
  | within operands => ⟨"IN (" ++ placeholders operands.length ++ ")", operands⟩
  | outside operands => ⟨"NOT IN (" ++ placeholders operands.length ++ ")", operands⟩

def FieldTest.fragment (t : FieldTest) : Fragment where
  text := fieldText t.field t.kind ++ " " ++ t.relation.fragment.text
  params := t.relation.fragment.params

def allOf (tests : List FieldTest) : Fragment :=
  if tests = [] then .constant true else .join " AND " (tests.map FieldTest.fragment)

def typeAmong (types : List String) : Fragment where
  text := "type IN (" ++ placeholders types.length ++ ")"
  params := types.map .text

def StreamTest.fragment : StreamTest → Fragment
  | never => .constant false
  | ofTypes types tests => .join " AND " [typeAmong types, allOf tests]

def Selection.fragment (s : Selection) : Fragment :=
  if s = [] then .constant false else .join " OR " (s.map StreamTest.fragment)

end Chronicle
