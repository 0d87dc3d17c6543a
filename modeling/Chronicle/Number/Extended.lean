import Chronicle.Number.Decimal
import Chronicle.Number.Numeral

/-!
# Extended precision

A query converts between decimals and reals in numbers of 64 significant bits.
It multiplies by powers of ten, a hundred places, ten places or one place at a
time, and rounds each product. The results are close to those of
`Double.nearest` and `Binary.shortest` and nearly always the same.

* `leadingReal` is the real that a query reads at the beginning of a text.
* `Binary.scaledDigits` are the digits that a query writes a real with.
-/

namespace Chronicle

/-- A number of extended precision, `significand · 2 ^ exponent`. -/
structure Extended where
  significand : Nat
  exponent : Int

namespace Extended

/-- The fraction `num / den` rounded to 64 significant bits, ties to even. -/
def nearest (num den : Nat) : Extended :=
  if num = 0 then ⟨0, 0⟩ else
  let e := gridExponent 64 num den
  ⟨roundToGrid num den e, e⟩

def fraction (x : Extended) : Nat × Nat :=
  (x.significand <<< x.exponent.toNat, 1 <<< (-x.exponent).toNat)

def lt (x y : Extended) : Bool :=
  let e := min x.exponent y.exponent
  x.significand <<< (x.exponent - e).toNat < y.significand <<< (y.exponent - e).toNat

def mul (x y : Extended) : Extended :=
  let z := nearest (x.significand * y.significand) 1
  ⟨z.significand, z.exponent + x.exponent + y.exponent⟩

def powerOfTen (k : Int) : Extended := nearest (Nat.pow 10 k.toNat) (Nat.pow 10 (-k).toNat)

/-- Move the decimal point by `k` places, `n` times. -/
def movePoint (k : Int) : Nat → Extended → Extended
  | 0, x => x
  | n + 1, x => movePoint k n (x.mul (powerOfTen k))

/-- Move the decimal point by `k` places, in steps of a hundred, ten and one. -/
def scale (x : Extended) (k : Int) : Extended :=
  let n := k.natAbs
  movePoint k.sign (n % 10)
    (movePoint (10 * k.sign) (n % 100 / 10) (movePoint (100 * k.sign) (n / 100) x))

/-- The largest finite binary64 number. -/
def largest : Extended := ⟨9007199254740991, 971⟩

/-- The number as a binary64 value. What is past the largest finite one is
infinite, however near. -/
def toDouble (x : Extended) (negative : Bool) : Double :=
  if largest.lt x then .infinite negative else .nearest negative x.fraction.1 x.fraction.2

/-- Move the decimal point by `k` places while the test holds, at most `fuel`
times. The exponent makes up for it. -/
def moveWhile (test : Extended → Bool) (k : Int) : Nat → Extended × Int → Extended × Int
  | 0, moved => moved
  | fuel + 1, (x, e) =>
    if test x then moveWhile test k fuel (x.mul (powerOfTen k), e - k) else (x, e)

/-- A positive number moved to where its whole part has 18 or 19 digits, and
the power of ten that makes up for it. -/
def toWhole (x : Extended) : Extended × Int :=
  let below (k : Int) (y : Extended) := y.lt (powerOfTen k)
  if below 19 x then
    moveWhile (below 17) 1 16 (moveWhile (below 7) 10 16 (moveWhile (below (-97)) 100 16 (x, 0)))
  else
    moveWhile (!below 19 ·) (-1) 16
      (moveWhile (!below 29 ·) (-10) 16 (moveWhile (!below 119 ·) (-100) 16 (x, 0)))

end Extended

/-- The magnitude rounded to `n` significant digits, at most 17. A half goes
away from zero. -/
def Binary.scaledDigits (x : Binary) (n : Nat) : Decimal :=
  if x.significand = 0 then ⟨0, 0⟩ else
  let (y, e) := Extended.toWhole ⟨x.significand, x.exponent⟩
  let whole := y.fraction.1 / y.fraction.2
  let surplus := Decimal.digitCount whole - n
  let unit := Nat.pow 10 surplus
  (Decimal.mk ((2 * whole + unit) / (2 * unit)) (e + surplus)).trim

namespace Numeral

/-- One more digit, unless there are already as many as 64 bits hold; the place
moves by `kept` or `dropped`. -/
def takeDigit (kept dropped : Int) : Nat × Int → Char → Nat × Int
  | (s, place), c =>
    if s < 1844674407370955160 then (10 * s + (c.toNat - 48), place + kept)
    else (s, place + dropped)

/-- The digits of a numeral that count, as a number, and its place. -/
def significant (n : Numeral) : Nat × Int :=
  n.fraction.foldl (takeDigit (-1) 0) (n.whole.foldl (takeDigit 0 1) (0, 0))

/-- The exponent, where all of more than five digits are alike. -/
def boundedExponent (n : Numeral) : Int :=
  if n.exponent.natAbs < 100000 then n.exponent else 10000 * n.exponent.sign

/-- Add zeros to `s` while 64 bits hold it, at most `k`, and leave the others. -/
def addZeros (s : Nat) : Nat → Nat × Nat
  | 0 => (s, 0)
  | k + 1 => if s < 1844674407370955161 then addZeros (10 * s) k else (s, k + 1)

/-- Drop zeros at the end of `s`, at most `k`, and leave the others. -/
def dropZeros (s : Nat) : Nat → Nat × Nat
  | 0 => (s, 0)
  | k + 1 => if s % 10 = 0 then dropZeros (s / 10) k else (s, k + 1)

/-- `s · 10 ^ e` with an exponent as near to zero as 64 bits allow. -/
def settle (s : Nat) (e : Int) : Nat × Int :=
  if 0 ≤ e then ((addZeros s e.toNat).1, (addZeros s e.toNat).2)
  else ((dropZeros s (-e).toNat).1, -(dropZeros s (-e).toNat).2)

/-- The real that a query reads a numeral as. -/
def scaled (n : Numeral) (negative : Bool) : Double :=
  let (s, place) := n.significant
  if s = 0 then .finite (.zero negative) else
  let (s, e) := settle s (n.boundedExponent + place)
  if e = 0 then .nearest negative s 1 else ((Extended.mk s 0).scale e).toDouble negative

end Numeral

/-- The real that a text begins with, after white space and a sign; zero if it
begins with none. -/
def leadingReal (text : List Char) : Double :=
  let (negative, cs) := Numeral.sign (text.dropWhile isCastBlank)
  (Numeral.scan cs).scaled negative

end Chronicle
