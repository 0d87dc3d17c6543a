import Chronicle.Number.Binary

/-!
# Decimal digits of a binary64 number

A magnitude is written with decimal digits in one of two ways: with the fewest
digits that still read back as the same number (`Binary.shortest`), or rounded
to a fixed count of significant digits (`Binary.rounded`). Both work on exact
fractions.
-/

namespace Chronicle

/-- An unsigned decimal: `digits · 10 ^ exponent`. -/
structure Decimal where
  digits : Nat
  exponent : Int
  deriving DecidableEq

namespace Decimal

/-- Number of decimal digits of `n`; zero has one. -/
def digitCount (n : Nat) : Nat := (Nat.toDigits 10 n).length

/-- Drop trailing zero digits, at most `fuel` of them. -/
def trimWith : Nat → Decimal → Decimal
  | 0, d => d
  | fuel + 1, d =>
    if d.digits ≠ 0 ∧ d.digits % 10 = 0 then trimWith fuel ⟨d.digits / 10, d.exponent + 1⟩ else d

def trim (d : Decimal) : Decimal := trimWith (digitCount d.digits) d

/-- The place of the point: `p` with `10 ^ (p - 1) ≤ num / den < 10 ^ p`, for a
fraction of at least `10 ^ (-324)`, which every positive binary64 number is. -/
def pointPlace (num den : Nat) : Int :=
  (digitCount (num * Nat.pow 10 324 / den) : Int) - 324

/-- The fraction `num / den` divided by `10 ^ k`. -/
def scale (num den : Nat) (k : Int) : Nat × Nat :=
  (num * Nat.pow 10 (-k).toNat, den * Nat.pow 10 k.toNat)

end Decimal

namespace Binary

open Decimal

/-- The numbers that read back as `x`, in quarters of its last place: from
`low` to `high`, the ends included when `closed`. -/
structure Interval where
  low : Nat
  middle : Nat
  high : Nat
  den : Nat
  closed : Bool

/-- The interval of reals that round to the magnitude of `x`. Below a power of
two the grid is twice as fine. -/
def interval (x : Binary) : Interval :=
  let up := (x.exponent - 2).toNat
  let below := if x.significand = 4503599627370496 ∧ x.exponent ≠ -1074 then 1 else 2
  { low := (4 * x.significand - below) <<< up
    middle := (4 * x.significand) <<< up
    high := (4 * x.significand + 2) <<< up
    den := 1 <<< (2 - x.exponent).toNat
    closed := x.significand % 2 = 0 }

/-- The point `c · 10 ^ k` lies in the interval. -/
def Interval.holds (i : Interval) (c : Nat) (k : Int) : Bool :=
  let at10 := c * Nat.pow 10 k.toNat * i.den
  let unit := Nat.pow 10 (-k).toNat
  if i.closed then i.low * unit ≤ at10 ∧ at10 ≤ i.high * unit
  else i.low * unit < at10 ∧ at10 < i.high * unit

/-- The decimal of `n` digits in the interval, if its grid has one there: of
the two neighbours of the middle, the nearer that qualifies. -/
def Interval.withDigits (i : Interval) (n : Nat) : Option Decimal :=
  let k := pointPlace i.middle i.den - n
  let (num, den) := scale i.middle i.den k
  let c := num / den
  let r := num % den
  match i.holds c k, i.holds (c + 1) k with
  | true, true =>
    if 2 * r < den ∨ (2 * r = den ∧ c % 2 = 0) then some ⟨c, k⟩ else some ⟨c + 1, k⟩
  | true, false => some ⟨c, k⟩
  | false, true => some ⟨c + 1, k⟩
  | false, false => none

/-- The magnitude with the fewest digits that read back as `x`, and of those
the nearest to it. Seventeen digits always suffice. -/
def shortest (x : Binary) : Decimal :=
  if x.significand = 0 then ⟨0, 0⟩ else
  (((List.range 17).findSome? fun n => x.interval.withDigits (n + 1)).getD ⟨0, 0⟩).trim

end Binary

end Chronicle
