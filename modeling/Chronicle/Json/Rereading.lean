import Chronicle.Json.Document

/-!
# Values read back

What a payload column gives back is read from the text that was written there. Texts,
names and the structure of a value come back as they were, and so do integers. A float is
read from its digits step by step and may come back as another one near by.
-/

namespace Chronicle

/-- The number that a number's text is read as. -/
def Number.reread? (n : Number) : Option Number := Document.readNumber n.text.toList

namespace Json

mutual

/-- The value that a value's text is read as, if its numbers can be read. -/
def reread? : Json → Option Json
  | .null => some .null
  | .bool b => some (.bool b)
  | .number n => n.reread?.map .number
  | .string s => some (.string s)
  | .array items => (rereadItems? items).map .array
  | .object members => (rereadMembers? members).map .object

def rereadItems? : List Json → Option (List Json)
  | [] => some []
  | item :: items => do
    let value ← reread? item
    let values ← rereadItems? items
    some (value :: values)

def rereadMembers? : List (String × Json) → Option (List (String × Json))
  | [] => some []
  | (name, member) :: members => do
    let value ← reread? member
    let rest ← rereadMembers? members
    some ((name, value) :: rest)

end

end Json

end Chronicle
