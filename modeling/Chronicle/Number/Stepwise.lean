import Chronicle.Number.Numeral

/-!
# Numerals read step by step

JSON text is not read as the values nearest to its numerals. The digits of a numeral are
taken while 64 bits hold them, the number they make is rounded to a value, and that value
is multiplied with or divided by a power of ten, which is a rounded value itself. Every
step rounds, so the value read may be another one near by: a value is not always read back
from its own text.
-/

namespace Chronicle

/-- The value, if it is a finite one. -/
def Double.finite? : Double → Option Binary
  | .finite x => some x
  | _ => none

namespace Binary

/-- The value nearest to a number, if it is not past all values. -/
def ofNat? (n : Nat) : Option Binary := (Double.nearest false n 1).finite?

/-- The value nearest to `10 ^ k`. The largest of them is for 308. -/
def powerOfTen? (k : Nat) : Option Binary := ofNat? (Nat.pow 10 k)

/-- The product of two magnitudes, rounded. -/
def times? (x y : Binary) : Option Binary :=
  (Double.nearest false (x.magnitude.1 * y.magnitude.1)
    (x.magnitude.2 * y.magnitude.2)).finite?

/-- The quotient of two magnitudes, rounded. -/
def over? (x y : Binary) : Option Binary :=
  (Double.nearest false (x.magnitude.1 * y.magnitude.2)
    (x.magnitude.2 * y.magnitude.1)).finite?

/-- Divide by `10 ^ 308`, `n` times or until nothing is left. -/
def shrink? : Nat → Binary → Option Binary
  | 0, x => some x
  | n + 1, x =>
    if x.significand = 0 then some x else do
    shrink? n (← x.over? (← powerOfTen? 308))

/-- Move the decimal point by `k` places. What has to be divided by more than `10 ^ 308`
is divided more than once. -/
def shift? (x : Binary) (k : Int) : Option Binary :=
  if x.significand = 0 then some x
  else if 308 < k then none
  else if 0 ≤ k then do x.times? (← powerOfTen? k.toNat)
  else do
    let far := ((-k).toNat - 1) / 308
    (← shrink? far x).over? (← powerOfTen? ((-k).toNat - 308 * far))

end Binary

namespace Numeral

/-- Digits from the front put after those of `s` while 64 bits hold them all, and the
digits that are left. -/
def take64 (s : Nat) : List Char → Nat × List Char
  | [] => (s, [])
  | c :: cs =>
    let t := 10 * s + (c.toNat - 48)
    if t < 18446744073709551616 then take64 t cs else (s, c :: cs)

/-- The digits of a numeral that count, as a number, and the power of ten that goes with
it. Digits before the point that do not count still move it. -/
def counted (n : Numeral) : Nat × Int :=
  let (s, uncounted) := take64 0 n.whole
  let (s, dropped) := take64 s n.fraction
  (s, n.exponent + uncounted.length - (n.fraction.length - dropped.length : Nat))

/-- The value that a numeral in JSON text is read as, unless it is past all values. -/
def read? (n : Numeral) (negative : Bool) : Option Binary := do
  let x ← (← Binary.ofNat? n.counted.1).shift? n.counted.2
  some { x with negative := negative }

end Numeral

end Chronicle
