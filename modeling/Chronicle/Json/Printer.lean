import Chronicle.Json.Value

/-!
# Compact JSON text

Values are written without spaces, members in their order, and every character
as itself except quotes, backslashes and control characters. This is the text
kept in a payload column and the one that appears in messages.
-/

namespace Chronicle

namespace Json

def hexDigit (n : Nat) : Char := Nat.digitChar n

def escapeChar (c : Char) : List Char :=
  if c = '"' then ['\\', '"']
  else if c = '\\' then ['\\', '\\']
  else if c = '\n' then ['\\', 'n']
  else if c = '\r' then ['\\', 'r']
  else if c = '\t' then ['\\', 't']
  else if c.toNat = 8 then ['\\', 'b']
  else if c.toNat = 12 then ['\\', 'f']
  else if c.toNat < 32 then
    ['\\', 'u', '0', '0', hexDigit (c.toNat / 16), hexDigit (c.toNat % 16)]
  else [c]

def quote (s : String) : String :=
  String.ofList ('"' :: s.toList.flatMap escapeChar ++ ['"'])

mutual

/-- The compact text of a value. -/
def text : Json → String
  | .null => "null"
  | .bool true => "true"
  | .bool false => "false"
  | .number n => n.text
  | .string s => quote s
  | .array items => "[" ++ textOfItems items ++ "]"
  | .object members => "\x7b" ++ textOfMembers members ++ "\x7d"

def textOfItems : List Json → String
  | [] => ""
  | [item] => text item
  | item :: items => text item ++ "," ++ textOfItems items

def textOfMembers : List (String × Json) → String
  | [] => ""
  | [(name, value)] => quote name ++ ":" ++ text value
  | (name, value) :: members => quote name ++ ":" ++ text value ++ "," ++ textOfMembers members

end

end Json

end Chronicle
