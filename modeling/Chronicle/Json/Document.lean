import Chronicle.Json.Value
import Chronicle.Number.Stepwise

/-!
# JSON documents

A document is JSON text after parsing and before reading: members stay in the
order they are written in, names may repeat, and strings and numbers keep their
spelling. `Document.parse?` accepts exactly the strict grammar. Reading a
document as a value (`Document.toJson?`) is a second step, which fails for
unpaired surrogate escapes and for numbers past the largest float.
-/

namespace Chronicle

/-- Parsed JSON text. Strings, names included, are held as written between
their quotes. -/
inductive Document where
  | null
  | bool (value : Bool)
  | number (spelling : List Char)
  | string (spelling : List Char)
  | array (items : List Document)
  | object (members : List (List Char × Document))
  deriving Inhabited

namespace Document

/-! ## Tokens -/

def isBlank (c : Char) : Bool := c = ' ' || c = '\n' || c = '\r' || c = '\t'

def skipBlanks (cs : List Char) : List Char := cs.dropWhile isBlank

def hexValue? (c : Char) : Option Nat :=
  if c.isDigit then some (c.toNat - 48)
  else if 'a' ≤ c ∧ c ≤ 'f' then some (c.toNat - 87)
  else if 'A' ≤ c ∧ c ≤ 'F' then some (c.toNat - 55)
  else none

def hex4? (a b c d : Char) : Option Nat := do
  return ((← hexValue? a) * 4096 + (← hexValue? b) * 256 + (← hexValue? c) * 16 + (← hexValue? d))

/-- Characters that may follow a backslash, `u` apart. -/
def isSimpleEscape (c : Char) : Bool := c ∈ ['"', '\\', '/', 'b', 'f', 'n', 'r', 't']

/-- The body of a string up to its closing quote, and the text after it. -/
def scanString : List Char → Option (List Char × List Char)
  | '"' :: rest => some ([], rest)
  | '\\' :: 'u' :: a :: b :: c :: d :: rest =>
    if (hex4? a b c d).isSome then
      (scanString rest).map fun (body, rest) => ('\\' :: 'u' :: a :: b :: c :: d :: body, rest)
    else none
  | '\\' :: c :: rest =>
    if isSimpleEscape c then
      (scanString rest).map fun (body, rest) => ('\\' :: c :: body, rest)
    else none
  | c :: rest =>
    if c = '\\' ∨ c.toNat < 32 then none
    else (scanString rest).map fun (body, rest) => (c :: body, rest)
  | [] => none

/-- A number: an integer part without a superfluous zero, then a fraction and
an exponent if any, each with at least one digit. -/
def scanNumber (cs : List Char) : Option (List Char × List Char) := do
  let (sign, cs) := match cs with
    | '-' :: cs => (['-'], cs)
    | cs => ([], cs)
  let whole := cs.takeWhile Char.isDigit
  let cs := cs.dropWhile Char.isDigit
  if whole = [] ∨ (whole.head? = some '0' ∧ 1 < whole.length) then none
  let (fraction, cs) := match cs with
    | '.' :: after => ('.' :: after.takeWhile Char.isDigit, after.dropWhile Char.isDigit)
    | cs => ([], cs)
  if fraction.length = 1 then none
  let (power, cs) ← match cs with
    | c :: after =>
      if c = 'e' ∨ c = 'E' then
        let (mark, after) := match after with
          | '-' :: after => ([c, '-'], after)
          | '+' :: after => ([c, '+'], after)
          | after => ([c], after)
        let ds := after.takeWhile Char.isDigit
        if ds = [] then none else some (mark ++ ds, after.dropWhile Char.isDigit)
      else some ([], cs)
    | [] => some ([], [])
  return (sign ++ whole ++ fraction ++ power, cs)

/-! ## The grammar -/

def afterWord (word cs : List Char) : Option (List Char) :=
  if word.isPrefixOf cs then some (cs.drop word.length) else none

mutual

/-- One value from the front of a text without leading white space. -/
def parseValue : Nat → List Char → Option (Document × List Char)
  | 0, _ => none
  | fuel + 1, cs =>
    match cs with
    | '"' :: rest => (scanString rest).map fun (body, rest) => (.string body, rest)
    | '[' :: rest =>
      match skipBlanks rest with
      | ']' :: rest => some (.array [], rest)
      | rest => (parseItems fuel rest).map fun (items, rest) => (.array items, rest)
    | '\x7b' :: rest =>
      match skipBlanks rest with
      | '\x7d' :: rest => some (.object [], rest)
      | rest => (parseMembers fuel rest).map fun (members, rest) => (.object members, rest)
    | 't' :: rest => (afterWord ['r', 'u', 'e'] rest).map fun rest => (.bool true, rest)
    | 'f' :: rest => (afterWord ['a', 'l', 's', 'e'] rest).map fun rest => (.bool false, rest)
    | 'n' :: rest => (afterWord ['u', 'l', 'l'] rest).map fun rest => (.null, rest)
    | cs => (scanNumber cs).map fun (spelling, rest) => (.number spelling, rest)

/-- The items of an array that has some, with the closing bracket. -/
def parseItems : Nat → List Char → Option (List Document × List Char)
  | 0, _ => none
  | fuel + 1, cs => do
    let (item, rest) ← parseValue fuel cs
    match skipBlanks rest with
    | ']' :: rest => some ([item], rest)
    | ',' :: rest =>
      let (items, rest) ← parseItems fuel (skipBlanks rest)
      some (item :: items, rest)
    | _ => none

/-- The members of an object that has some, with the closing brace. -/
def parseMembers : Nat → List Char → Option (List (List Char × Document) × List Char)
  | 0, _ => none
  | fuel + 1, cs => do
    let '"' :: rest := cs | none
    let (name, rest) ← scanString rest
    let ':' :: rest := skipBlanks rest | none
    let (value, rest) ← parseValue fuel (skipBlanks rest)
    match skipBlanks rest with
    | '\x7d' :: rest => some ([(name, value)], rest)
    | ',' :: rest =>
      let (members, rest) ← parseMembers fuel (skipBlanks rest)
      some ((name, value) :: members, rest)
    | _ => none

end

/-- The document that a whole text is, white space around it aside. Each call
of the grammar's functions takes a character, so the text's length bounds
them. -/
def parse? (text : String) : Option Document :=
  let cs := text.toList
  match parseValue (2 * cs.length + 2) (skipBlanks cs) with
  | some (d, rest) => if skipBlanks rest = [] then some d else none
  | none => none

/-! ## Reading -/

/-- The character that a simple escape stands for. -/
def simpleEscape (c : Char) : Char :=
  match c with
  | 'b' => Char.ofNat 8
  | 'f' => Char.ofNat 12
  | 'n' => '\n'
  | 'r' => '\r'
  | 't' => '\t'
  | c => c

/-- The code points of a string's body. Half of a surrogate pair stands for
itself, although it is no character. -/
def codePoints : List Char → List Nat
  | '\\' :: 'u' :: a :: b :: c :: d :: rest =>
    match hex4? a b c d, rest with
    | some high, '\\' :: 'u' :: e :: f :: g :: h :: after =>
      match hex4? e f g h with
      | some low =>
        if 0xD800 ≤ high ∧ high < 0xDC00 ∧ 0xDC00 ≤ low ∧ low < 0xE000 then
          ((high - 0xD800) * 1024 + (low - 0xDC00) + 0x10000) :: codePoints after
        else high :: codePoints ('\\' :: 'u' :: e :: f :: g :: h :: after)
      | none => high :: codePoints ('\\' :: 'u' :: e :: f :: g :: h :: after)
    | some high, rest => high :: codePoints rest
    | none, rest => codePoints rest
  | '\\' :: c :: rest => (simpleEscape c).toNat :: codePoints rest
  | c :: rest => c.toNat :: codePoints rest
  | [] => []

/-- The character with a code point; none for half of a surrogate pair. -/
def character? (n : Nat) : Option Char :=
  if n.isValidChar then some (Char.ofNat n) else none

/-- A number spelled without point and exponent. -/
def isIntegral (spelling : List Char) : Bool := spelling.all fun c => c.isDigit || c = '-'

/-- The float that a number's spelling is read as, unless it is past the largest. -/
def spelledFloat (spelling : List Char) : Option Binary :=
  let (negative, cs) := Numeral.sign spelling
  (Numeral.scan cs).read? negative

/-- The integer that a spelling without point and exponent stands for. -/
def spelledInt (spelling : List Char) : Int :=
  let (negative, cs) := Numeral.sign spelling
  if negative then -(digitsValue cs : Int) else digitsValue cs

/-- A number's value. Integers that fit 64 bits are exact and all other
numbers become floats, `-0` included; none past the largest float. -/
def readNumber (spelling : List Char) : Option Number :=
  let asFloat := (spelledFloat spelling).map .float
  if isIntegral spelling ∧ spelling ≠ ['-', '0'] then
    (Number.ofInt? (spelledInt spelling)).or asFloat
  else asFloat

/-- A string's value; none when half of a surrogate pair stands alone. -/
def readString (spelling : List Char) : Option String :=
  ((codePoints spelling).mapM character?).map String.ofList

mutual

/-- The value of a document; of members with one name the last counts. -/
def toJson? : Document → Option Json
  | .null => some .null
  | .bool b => some (.bool b)
  | .number spelling => (readNumber spelling).map .number
  | .string spelling => (readString spelling).map .string
  | .array items => (itemsToJson? items).map .array
  | .object members => (membersToJson? members).map .ofMembers

def itemsToJson? : List Document → Option (List Json)
  | [] => some []
  | item :: items => do
    let value ← toJson? item
    let values ← itemsToJson? items
    some (value :: values)

def membersToJson? : List (List Char × Document) → Option (List (String × Json))
  | [] => some []
  | (spelling, member) :: members => do
    let name ← readString spelling
    let value ← toJson? member
    let rest ← membersToJson? members
    some ((name, value) :: rest)

end

mutual

def depth : Document → Nat
  | .array items => depthOfItems items + 1
  | .object members => depthOfMembers members + 1
  | _ => 0

def depthOfItems : List Document → Nat
  | [] => 0
  | item :: items => max (depth item) (depthOfItems items)

def depthOfMembers : List (List Char × Document) → Nat
  | [] => 0
  | (_, value) :: members => max (depth value) (depthOfMembers members)

end

mutual

/-- The text without white space, every spelling kept. -/
def text : Document → String
  | .null => "null"
  | .bool true => "true"
  | .bool false => "false"
  | .number spelling => String.ofList spelling
  | .string spelling => String.ofList ('"' :: spelling ++ ['"'])
  | .array items => "[" ++ textOfItems items ++ "]"
  | .object members => "\x7b" ++ textOfMembers members ++ "\x7d"

def textOfItems : List Document → String
  | [] => ""
  | [item] => text item
  | item :: items => text item ++ "," ++ textOfItems items

def textOfMembers : List (List Char × Document) → String
  | [] => ""
  | [(name, value)] => String.ofList ('"' :: name ++ ['"', ':']) ++ text value
  | (name, value) :: members =>
    String.ofList ('"' :: name ++ ['"', ':']) ++ text value ++ "," ++ textOfMembers members

end

end Document

def Json.parse? (text : String) : Option Json := do
  (← Document.parse? text).toJson?

end Chronicle
