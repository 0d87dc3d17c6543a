import Chronicle.Number.Binary

/-!
# Reading decimal numerals

`Double.ofDecimal` gives the number nearest to a decimal, and `Numeral.scan`
takes a numeral from the front of a text. On top of them stand the readers of a
whole float literal (`Double.ofText?`) and of the integer beginning of a text
(`leadingInteger`).
-/

namespace Chronicle

def digitsValue (ds : List Char) : Nat :=
  ds.foldl (fun n c => 10 * n + (c.toNat - 48)) 0

/-- The number nearest to `digits · 10 ^ exponent`. Exponents that can only
give zero or infinity are settled without computing the power. -/
def Double.ofDecimal (negative : Bool) (digits : Nat) (exponent : Int) : Double :=
  let size : Int := exponent + (Nat.toDigits 10 digits).length
  if digits = 0 ∨ size < -400 then .finite (.zero negative)
  else if 400 < size then .infinite negative
  else .nearest negative (digits * Nat.pow 10 exponent.toNat) (Nat.pow 10 (-exponent).toNat)

/-- An unsigned numeral taken from the front of a text. -/
structure Numeral where
  whole : List Char
  fraction : List Char
  exponent : Int
  rest : List Char

namespace Numeral

/-- A sign at the front, if any: true for minus. -/
def sign : List Char → Bool × List Char
  | '-' :: cs => (true, cs)
  | '+' :: cs => (false, cs)
  | cs => (false, cs)

/-- An exponent at the front, or nothing when no digit follows its mark. -/
def exponentPart : List Char → Option (Int × List Char)
  | c :: cs =>
    if c = 'e' ∨ c = 'E' then
      let (negative, cs) := sign cs
      match cs.takeWhile Char.isDigit with
      | [] => none
      | ds =>
        let n : Int := digitsValue ds
        some (if negative then -n else n, cs.dropWhile Char.isDigit)
    else none
  | [] => none

/-- The longest unsigned numeral at the front: digits, a point with digits, an
exponent that has digits. Any part may be missing. -/
def scan (cs : List Char) : Numeral :=
  let whole := cs.takeWhile Char.isDigit
  let cs := cs.dropWhile Char.isDigit
  let (fraction, cs) := match cs with
    | '.' :: after => (after.takeWhile Char.isDigit, after.dropWhile Char.isDigit)
    | cs => ([], cs)
  match exponentPart cs with
  | some (e, rest) => ⟨whole, fraction, e, rest⟩
  | none => ⟨whole, fraction, 0, cs⟩

def isEmpty (n : Numeral) : Bool := n.whole.isEmpty && n.fraction.isEmpty

def toDouble (n : Numeral) (negative : Bool) : Double :=
  .ofDecimal negative (digitsValue (n.whole ++ n.fraction)) (n.exponent - n.fraction.length)

end Numeral

/-- A whole text as a float: a numeral, or one of the names of infinity and
NaN in any case, each with an optional sign. -/
def Double.ofText? (text : String) : Option Double :=
  let (negative, cs) := Numeral.sign text.toList
  let name := String.ofList (cs.map Char.toLower)
  if name = "inf" ∨ name = "infinity" then some (.infinite negative)
  else if name = "nan" then some .nan
  else
    let n := Numeral.scan cs
    if n.isEmpty ∨ n.rest ≠ [] then none else some (n.toDouble negative)

/-- ASCII white space, as a cast to a number skips it. -/
def isCastBlank (c : Char) : Bool :=
  c = ' ' || (9 ≤ c.toNat && c.toNat ≤ 13)

/-- The integer that a text begins with, after white space and a sign, clamped
to 64 bits; zero if it begins with none. -/
def leadingInteger (text : List Char) : Int :=
  let (negative, cs) := Numeral.sign (text.dropWhile isCastBlank)
  let n : Int := digitsValue (cs.takeWhile Char.isDigit)
  Double.clampInt64 (if negative then -n else n)

end Chronicle
