import Chronicle.Json.Value
import Chronicle.Text.Quoted

/-!
# Mismatches

A JSON value that is read as something it is not gives a `Mismatch`. It says
what was met and what was wanted; `Mismatch.message` words it.
-/

namespace Chronicle

/-- A JSON value as a message names it: its sort, with the content of
scalars. -/
def Json.description : Json → String
  | .null => "null"
  | .bool true => "boolean `true`"
  | .bool false => "boolean `false`"
  | .number (.int n _) => "integer `" ++ toString n ++ "`"
  | .number (.float x) => "floating point `" ++ x.jsonText ++ "`"
  | .string s => "string " ++ quoted s
  | .array _ => "sequence"
  | .object _ => "map"

/-- Why a JSON value does not have a wanted shape. -/
inductive Mismatch where
  /-- A value of another sort than the wanted one. -/
  | wrongType (value : Json) (wanted : String)
  /-- A value of the right sort outside the wanted range. -/
  | wrongValue (value : Json) (wanted : String)
  | wrongLength (length : Nat) (wanted : String)
  | missingField (name : String)
  | unknownVariant (name : String) (known : List String)
  /-- A fault of the content, in its own words. -/
  | content (text : String)

def Mismatch.message : Mismatch → String
  | wrongType value wanted => "invalid type: " ++ value.description ++ ", expected " ++ wanted
  | wrongValue value wanted => "invalid value: " ++ value.description ++ ", expected " ++ wanted
  | wrongLength length wanted => "invalid length " ++ toString length ++ ", expected " ++ wanted
  | missingField name => "missing field `" ++ name ++ "`"
  | unknownVariant name known =>
    "unknown variant `" ++ name ++ "`, expected one of " ++
      ", ".intercalate (known.map fun variant => "`" ++ variant ++ "`")
  | content text => text

end Chronicle
