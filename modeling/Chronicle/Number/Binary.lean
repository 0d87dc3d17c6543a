/-!
# Binary64 numbers

The numbers a payload may hold and the reals a query compares are binary64
values. A finite one is kept as sign, significand and binary exponent, with the
invariants that make the representation unique, so equality of `Binary` values
is equality of bit patterns. All arithmetic here is exact and on integers.

* `Double.nearest` rounds a fraction to the nearest value, ties to even.
* `Binary.compare`, `Binary.compareInt`: exact comparison, with another value
  and with an integer of any size.
* `Binary.truncate`: the integer part, toward zero.
-/

namespace Chronicle

/-- A finite binary64 number: `±significand · 2 ^ exponent`. The significand
is below `2 ^ 53`, and not below `2 ^ 52` unless the exponent is already the
smallest one. -/
structure Binary where
  negative : Bool
  significand : Nat
  exponent : Int
  significand_lt : significand < 9007199254740992
  le_exponent : -1074 ≤ exponent
  exponent_le : exponent ≤ 971
  normal : 4503599627370496 ≤ significand ∨ exponent = -1074
  deriving DecidableEq

/-- Any binary64 value. The payload of a NaN is not kept: nothing reads it. -/
inductive Double where
  | finite (value : Binary)
  | infinite (negative : Bool)
  | nan
  deriving DecidableEq

namespace Binary

def zero (negative : Bool) : Binary where
  negative := negative
  significand := 0
  exponent := -1074
  significand_lt := by decide
  le_exponent := by decide
  exponent_le := by decide
  normal := Or.inr rfl

instance : Inhabited Binary := ⟨zero false⟩

/-- The largest value. -/
def largest : Binary where
  negative := false
  significand := 9007199254740991
  exponent := 971
  significand_lt := by decide
  le_exponent := by decide
  exponent_le := by decide
  normal := by decide

/-- The value with the given parts, if they are those of a finite value. -/
def ofParts? (negative : Bool) (significand : Nat) (exponent : Int) : Option Binary :=
  if h : significand < 9007199254740992 ∧ -1074 ≤ exponent ∧ exponent ≤ 971 ∧
      (4503599627370496 ≤ significand ∨ exponent = -1074) then
    some ⟨negative, significand, exponent, h.1, h.2.1, h.2.2.1, h.2.2.2⟩
  else
    none

def signed (x : Binary) : Int :=
  if x.negative then -(x.significand : Int) else x.significand

/-- The magnitude as a fraction, numerator and denominator. -/
def magnitude (x : Binary) : Nat × Nat :=
  (x.significand <<< x.exponent.toNat, 1 <<< (-x.exponent).toNat)

/-- The value counted in units of `2 ^ e`, exact when `e` is not above the
exponent. -/
def inUnits (x : Binary) (e : Int) : Int :=
  x.signed * (1 <<< (x.exponent - e).toNat : Nat)

/-- Exact comparison of two finite values; both zeros are equal. -/
def compare (x y : Binary) : Ordering :=
  let e := min x.exponent y.exponent
  Ord.compare (x.inUnits e) (y.inUnits e)

def compareInt (x : Binary) (n : Int) : Ordering :=
  let e := min x.exponent 0
  Ord.compare (x.inUnits e) (n * (1 <<< (-e).toNat : Nat))

/-- The integer part: the fraction is dropped, toward zero. -/
def truncate (x : Binary) : Int :=
  let (num, den) := x.magnitude
  if x.negative then -((num / den : Nat) : Int) else (num / den : Nat)

end Binary

/-- A quotient rounded to the nearest natural number, a half going to the even
one. -/
def roundHalfEven (num den : Nat) : Nat :=
  let q := num / den
  let r := num % den
  if 2 * r < den then q
  else if den < 2 * r then q + 1
  else if q % 2 = 0 then q else q + 1

/-- The exponent of the grid of `bits` bits that `num / den` is rounded on: the
one that leaves that many bits before the point. -/
def gridExponent (bits num den : Nat) : Int :=
  let guess := (num.log2 : Int) - den.log2 - bits
  if (num <<< (-guess).toNat) / (den <<< guess.toNat) < 1 <<< bits then guess else guess + 1

/-- How many units of `2 ^ e` the fraction `num / den` has, rounded to the
nearest number, ties to even. -/
def roundToGrid (num den : Nat) (e : Int) : Nat :=
  roundHalfEven (num <<< (-e).toNat) (den <<< e.toNat)

namespace Double

/-- The value nearest to the fraction `num / den`, ties to the even
significand. Magnitudes past the largest finite value become infinite. -/
def nearest (negative : Bool) (num den : Nat) : Double :=
  if num = 0 then .finite (.zero negative) else
  let e := max (gridExponent 53 num den) (-1074)
  let q := roundToGrid num den e
  let rounded :=
    if q = 9007199254740992 then Binary.ofParts? negative 4503599627370496 (e + 1)
    else Binary.ofParts? negative q e
  match rounded with
  | some x => .finite x
  | none => .infinite negative

def ofInt (n : Int) : Double :=
  nearest (n < 0) n.natAbs 1

/-- Comparison of two values; none when either is NaN. -/
def compare : Double → Double → Option Ordering
  | .nan, _ | _, .nan => none
  | .finite x, .finite y => some (x.compare y)
  | .infinite a, .infinite b => some (if a = b then .eq else if a then .lt else .gt)
  | .infinite a, .finite _ => some (if a then .lt else .gt)
  | .finite _, .infinite b => some (if b then .gt else .lt)

/-- Exact comparison with an integer; none for NaN. -/
def compareInt : Double → Int → Option Ordering
  | .nan, _ => none
  | .finite x, n => some (x.compareInt n)
  | .infinite negative, _ => some (if negative then .lt else .gt)

/-- The smallest and the largest signed 64-bit integer. -/
def int64Range : Int × Int := (-9223372036854775808, 9223372036854775807)

/-- An integer moved into the signed 64-bit range. -/
def clampInt64 (n : Int) : Int :=
  max int64Range.1 (min n int64Range.2)

/-- The integer part, clamped to the signed 64-bit range. NaN has none and
counts as zero. -/
def toInt64 : Double → Int
  | .finite x => clampInt64 x.truncate
  | .infinite negative => if negative then int64Range.1 else int64Range.2
  | .nan => 0

end Double

end Chronicle
