import Chronicle.Text.Visible

/-!
# Quoted text in messages

A message quotes a text so that every character of it can be seen: quotes and
backslashes are escaped, the usual control characters have short escapes, and
other characters that are not visible appear as their code points.
-/

namespace Chronicle

/-- A character of a quoted text. -/
def quotedChar (c : Char) : List Char :=
  if c = Char.ofNat 0 then ['\\', '0']
  else if c = '\t' then ['\\', 't']
  else if c = '\r' then ['\\', 'r']
  else if c = '\n' then ['\\', 'n']
  else if c = '\\' then ['\\', '\\']
  else if c = '"' then ['\\', '"']
  else if isVisible c then [c]
  else '\\' :: 'u' :: '\x7b' :: Nat.toDigits 16 c.toNat ++ ['\x7d']

/-- A text in double quotes with all its characters visible. -/
def quoted (s : String) : String :=
  String.ofList ('"' :: s.toList.flatMap quotedChar ++ ['"'])

end Chronicle
