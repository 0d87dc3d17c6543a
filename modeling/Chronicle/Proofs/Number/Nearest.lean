import Chronicle.Number.Binary
import Mathlib.Algebra.Order.Field.Power
import Mathlib.Data.Rat.Cast.Order
import Mathlib.Order.Compare
import Mathlib.Tactic.FieldSimp
import Mathlib.Tactic.Linarith
import Mathlib.Tactic.Positivity
import Mathlib.Tactic.Ring

/-!
# The values of binary64 numbers

The number that a finite binary64 number stands for is rational (`Binary.value`), and
comparisons are those of the values (`Binary.compare_eq`, `Binary.compareInt_eq`). A
fraction goes to the value nearest to it, and of two that are as near to the even one,
or past the largest value (`Double.nearest_rounds`).
-/

namespace Chronicle

namespace Binary

/-- The number that is stood for. -/
def value (x : Binary) : ℚ := x.signed * 2 ^ x.exponent

theorem two_pow_toNat_mul {e f : Int} (below : e ≤ f) :
    (2 : ℚ) ^ (f - e).toNat * 2 ^ e = 2 ^ f := by
  rw [← zpow_natCast, ← zpow_add₀ (by norm_num), Int.toNat_of_nonneg (by omega), sub_add_cancel]

/-- Counting in units is exact where the unit divides. -/
theorem inUnits_mul (x : Binary) {e : Int} (below : e ≤ x.exponent) :
    (x.inUnits e : ℚ) * 2 ^ e = x.value := by
  rw [inUnits, value, Nat.one_shiftLeft]
  push_cast
  rw [mul_assoc, two_pow_toNat_mul below]

/-- Integers in one unit compare as what they count. -/
theorem compare_units (a b : Int) (e : Int) :
    Ord.compare a b = cmp ((a : ℚ) * 2 ^ e) (b * 2 ^ e) := by
  rw [cmp_mul_pos_right (by positivity), Int.cast_strictMono.cmp_map_eq, cmp_eq_compare]

theorem compare_eq (x y : Binary) : x.compare y = cmp x.value y.value := by
  rw [compare, compare_units _ _ (min x.exponent y.exponent), inUnits_mul x (min_le_left _ _),
    inUnits_mul y (min_le_right _ _)]

theorem compareInt_eq (x : Binary) (n : Int) : x.compareInt n = cmp x.value n := by
  have unit : ((n * (1 <<< (-min x.exponent 0).toNat : Nat) : Int) : ℚ) *
      2 ^ min x.exponent 0 = n := by
    have one := two_pow_toNat_mul (min_le_right x.exponent 0)
    rw [zero_sub, zpow_zero] at one
    rw [Nat.one_shiftLeft]
    push_cast
    rw [mul_assoc, one, mul_one]
  rw [compareInt, compare_units _ _ (min x.exponent 0), inUnits_mul x (min_le_left _ _), unit]

/-- No value is nearer to the number, and where another is as near this one is even. -/
structure IsNearest (x : Binary) (q : ℚ) : Prop where
  nearest : ∀ y : Binary, |x.value - q| ≤ |y.value - q|
  even : ∀ y : Binary, y.value ≠ x.value → |x.value - q| = |y.value - q| → x.significand % 2 = 0

/-- A number that is a value is nearest to itself. -/
theorem IsNearest.value_eq {x y : Binary} (isNearest : x.IsNearest y.value) :
    x.value = y.value := by
  have close := isNearest.nearest y
  rw [sub_self, abs_zero, abs_nonpos_iff, sub_eq_zero] at close
  exact close

end Binary

/-! ## Rounding to a multiple -/

/-- The multiple of `den` that is rounded to is off by half of `den` at most, and by
half only when it is an even one. -/
theorem roundHalfEven_spec {num den : Nat} (positive : 0 < den) :
    2 * |(roundHalfEven num den * den : Int) - num| ≤ den ∧
      (2 * |(roundHalfEven num den * den : Int) - num| = den →
        roundHalfEven num den % 2 = 0) := by
  have division : (num : Int) = (num / den : Nat) * den + (num % den : Nat) := by
    exact_mod_cast (Nat.div_add_mod' num den).symm
  have below := Nat.mod_lt num positive
  have down : |((num / den : Nat) * den : Int) - num| = (num % den : Nat) := by
    rw [division, sub_add_cancel_left, abs_neg, Nat.abs_cast]
  have up : |((num / den + 1 : Nat) * den : Int) - num| = den - (num % den : Nat) := by
    have rest : ((num / den + 1 : Nat) * den : Int) - num = den - (num % den : Nat) := by
      rw [division]
      push_cast
      ring
    rw [rest, abs_of_nonneg (by omega)]
  unfold roundHalfEven
  dsimp only
  split_ifs
  · rw [down]; omega
  · rw [up]; omega
  · rw [down]; omega
  · rw [up]; omega

/-- No multiple of `den` is nearer to `num` than the one it is rounded to. -/
theorem roundHalfEven_nearest {num den : Nat} (positive : 0 < den) (k : Int) :
    |(roundHalfEven num den * den : Int) - num| ≤ |k * den - num| ∧
      (k ≠ roundHalfEven num den →
        |(roundHalfEven num den * den : Int) - num| = |k * den - num| →
        roundHalfEven num den % 2 = 0) := by
  obtain ⟨half, tie⟩ := @roundHalfEven_spec num den positive
  by_cases same : k = roundHalfEven num den
  · subst same
    exact ⟨le_refl _, fun other => absurd rfl other⟩
  -- Another multiple is a whole `den` away.
  have apart : (den : Int) ≤ |k * den - num| + |(roundHalfEven num den * den : Int) - num| := by
    have step : (den : Int) ≤ |k - roundHalfEven num den| * den := by
      have one : 1 ≤ |k - roundHalfEven num den| := Int.one_le_abs (sub_ne_zero.2 same)
      nlinarith
    have triangle := abs_sub (k * den - num : Int) (roundHalfEven num den * den - num)
    have difference : (k * den - num : Int) - (roundHalfEven num den * den - num) =
        (k - roundHalfEven num den) * den := by ring
    rw [difference, abs_mul, Nat.abs_cast] at triangle
    exact step.trans triangle
  exact ⟨by omega, fun _ equal => tie (by omega)⟩

/-! ## Rounding on a grid -/

/-- An integral power, moved to where its exponent is natural. -/
theorem zpow_mul_toNat {b : ℚ} (nonzero : b ≠ 0) (e : Int) :
    b ^ e * b ^ (-e).toNat = b ^ e.toNat := by
  rcases le_total e 0 with below | above
  · rw [Int.toNat_of_nonpos below, pow_zero, ← zpow_natCast, Int.toNat_of_nonneg (by omega),
      ← zpow_add₀ nonzero, add_neg_cancel, zpow_zero]
  · rw [Int.toNat_of_nonpos (by omega), pow_zero, mul_one, ← zpow_natCast,
      Int.toNat_of_nonneg above]

section Grid

variable {num den : Nat}

/-- The distance of a multiple of the unit from the fraction, in integers. -/
theorem grid_distance (positive : 0 < den) (e k : Int) :
    ((|k * (den <<< e.toNat : Nat) - (num <<< (-e).toNat : Nat)| : Int) : ℚ) =
      |(k : ℚ) * 2 ^ e - num / den| * (den * 2 ^ (-e).toNat) := by
  have unit : (0 : ℚ) < den * 2 ^ (-e).toNat := by positivity
  have turned : ((k * (den <<< e.toNat : Nat) - (num <<< (-e).toNat : Nat) : Int) : ℚ) =
      ((k : ℚ) * 2 ^ e - num / den) * (den * 2 ^ (-e).toNat) := by
    rw [Nat.shiftLeft_eq, Nat.shiftLeft_eq]
    push_cast
    rw [← zpow_mul_toNat two_ne_zero e]
    field_simp
  rw [Int.cast_abs, turned, abs_mul, abs_of_pos unit]

/-- No multiple of the unit is nearer to the fraction than the one it is rounded to. -/
theorem roundToGrid_nearest (positive : 0 < den) (e k : Int) :
    |(roundToGrid num den e : ℚ) * 2 ^ e - num / den| ≤ |(k : ℚ) * 2 ^ e - num / den| ∧
      (k ≠ roundToGrid num den e →
        |(roundToGrid num den e : ℚ) * 2 ^ e - num / den| = |(k : ℚ) * 2 ^ e - num / den| →
        roundToGrid num den e % 2 = 0) := by
  have unit : (0 : ℚ) < den * 2 ^ (-e).toNat := by positivity
  have scaled : 0 < den <<< e.toNat := by
    rw [Nat.shiftLeft_eq]
    positivity
  obtain ⟨near, tie⟩ := @roundHalfEven_nearest (num <<< (-e).toNat) _ scaled k
  have chosen := @grid_distance num den positive e (roundToGrid num den e)
  have other := @grid_distance num den positive e k
  rw [Int.cast_natCast] at chosen
  constructor
  · have whole := Int.cast_le (R := ℚ).2 near
    rw [roundToGrid] at chosen ⊢
    rw [chosen, other] at whole
    exact le_of_mul_le_mul_right whole unit
  · intro differs equal
    refine tie differs (Int.cast_injective (α := ℚ) ?_)
    rw [roundToGrid] at chosen equal
    rw [chosen, other, equal]

/-- The multiple that a fraction is rounded to is off by half a unit at most. -/
theorem roundToGrid_half (positive : 0 < den) (e : Int) :
    2 * |(roundToGrid num den e : ℚ) * 2 ^ e - num / den| ≤ 2 ^ e := by
  have unit : (0 : ℚ) < den * 2 ^ (-e).toNat := by positivity
  have scaled : 0 < den <<< e.toNat := by
    rw [Nat.shiftLeft_eq]
    positivity
  have half := (@roundHalfEven_spec (num <<< (-e).toNat) _ scaled).1
  have chosen := @grid_distance num den positive e (roundToGrid num den e)
  rw [Int.cast_natCast] at chosen
  have whole := Int.cast_le (R := ℚ).2 half
  rw [Int.cast_mul, ← roundToGrid, chosen, Int.cast_natCast, Nat.shiftLeft_eq] at whole
  push_cast at whole
  rw [← zpow_mul_toNat two_ne_zero e] at whole
  refine le_of_mul_le_mul_right ?_ unit
  linarith

/-- A fraction that is not above a multiple is not rounded past it. -/
theorem roundToGrid_le (positive : 0 < den) {e : Int} {k : Nat}
    (le : (num : ℚ) / den ≤ k * 2 ^ e) : roundToGrid num den e ≤ k := by
  by_contra! more
  have unit : (0 : ℚ) < 2 ^ e := by positivity
  have beyond : (k : ℚ) * 2 ^ e < roundToGrid num den e * 2 ^ e :=
    mul_lt_mul_of_pos_right (by exact_mod_cast more) unit
  have closer := (@roundToGrid_nearest num den positive e k).1
  rw [Int.cast_natCast, abs_of_pos (by linarith), abs_of_nonneg (by linarith)] at closer
  linarith

theorem le_roundToGrid (positive : 0 < den) {e : Int} {k : Nat}
    (le : (k : ℚ) * 2 ^ e ≤ num / den) : k ≤ roundToGrid num den e := by
  by_contra! fewer
  have unit : (0 : ℚ) < 2 ^ e := by positivity
  have short : (roundToGrid num den e : ℚ) * 2 ^ e < k * 2 ^ e :=
    mul_lt_mul_of_pos_right (by exact_mod_cast fewer) unit
  have closer := (@roundToGrid_nearest num den positive e k).1
  rw [Int.cast_natCast, abs_of_nonpos (by linarith), abs_of_nonpos (by linarith)] at closer
  linarith

/-- On its grid a fraction counts at least `2 ^ (bits - 1)` units, and less than
`2 ^ bits`. -/
theorem gridExponent_spec (bits : Nat) (some_num : num ≠ 0) (some_den : den ≠ 0) :
    (2 : ℚ) ^ (bits + gridExponent bits num den - 1) ≤ num / den ∧
      (num : ℚ) / den < 2 ^ (bits + gridExponent bits num den) := by
  have positive : (0 : ℚ) < den := by positivity
  -- The binary orders of both parts leave two grids to choose from.
  have above : (num : ℚ) / den < 2 ^ ((num.log2 : Int) + 1 - den.log2) := by
    have high : (num : ℚ) < 2 ^ (num.log2 + 1) := by exact_mod_cast Nat.lt_log2_self
    have low : (2 : ℚ) ^ den.log2 ≤ den := by exact_mod_cast Nat.log2_self_le some_den
    rw [zpow_sub₀ two_ne_zero, div_lt_div_iff₀ positive (by positivity)]
    norm_cast at high low ⊢
    exact Nat.mul_lt_mul_of_lt_of_le high low (by positivity)
  have below : (2 : ℚ) ^ ((num.log2 : Int) - den.log2 - 1) < num / den := by
    have low : (2 : ℚ) ^ num.log2 ≤ num := by exact_mod_cast Nat.log2_self_le some_num
    have high : (den : ℚ) < 2 ^ (den.log2 + 1) := by exact_mod_cast Nat.lt_log2_self
    rw [sub_sub, zpow_sub₀ two_ne_zero, div_lt_div_iff₀ (by positivity) positive]
    norm_cast at high low ⊢
    exact Nat.mul_lt_mul_of_le_of_lt low high (by positivity)
  -- The test asks whether the finer one does.
  have test (g : Int) : (num <<< (-g).toNat) / (den <<< g.toNat) < 1 <<< bits ↔
      (num : ℚ) / den < 2 ^ (bits + g) := by
    have unit : (0 : ℚ) < 2 ^ (-g).toNat := by positivity
    have scaled : 0 < den <<< g.toNat := by
      rw [Nat.shiftLeft_eq]
      positivity
    have left : ((num <<< (-g).toNat : Nat) : ℚ) = num * 2 ^ (-g).toNat := by
      rw [Nat.shiftLeft_eq]
      push_cast
      rfl
    have right : ((1 <<< bits * den <<< g.toNat : Nat) : ℚ) =
        2 ^ (bits + g) * den * 2 ^ (-g).toNat := by
      rw [Nat.shiftLeft_eq, Nat.shiftLeft_eq]
      push_cast
      rw [← zpow_mul_toNat two_ne_zero g, zpow_add₀ two_ne_zero, zpow_natCast]
      ring
    rw [Nat.div_lt_iff_lt_mul scaled, ← Nat.cast_lt (α := ℚ), left, right,
      mul_lt_mul_iff_left₀ unit, div_lt_iff₀ positive]
  unfold gridExponent
  dsimp only
  split
  · rename_i fine
    refine ⟨below.le.trans' (le_of_eq ?_), (test _).1 fine⟩
    congr 1
    ring
  · rename_i coarse
    rw [test, not_lt] at coarse
    refine ⟨coarse.trans' (le_of_eq ?_), above.trans_eq ?_⟩
    · congr 1
      ring
    · congr 1
      ring

end Grid

/-! ## Sides of zero -/

/-- The side of zero, as a factor. -/
def side (negative : Bool) : ℚ := if negative then -1 else 1

namespace Binary

theorem value_of_nonneg {x : Binary} (nonneg : x.negative = false) :
    x.value = x.significand * 2 ^ x.exponent := by
  rw [value, signed, nonneg]
  simp

/-- The value on the other side of zero. -/
def opposite (x : Binary) : Binary := { x with negative := !x.negative }

theorem value_opposite (x : Binary) : x.opposite.value = -x.value := by
  unfold value signed opposite
  cases x.negative <;> simp

/-- The value on the side of zero that is not negative. -/
def abs (x : Binary) : Binary := { x with negative := false }

theorem value_abs (x : Binary) : x.abs.value = x.significand * 2 ^ x.exponent :=
  value_of_nonneg rfl

theorem value_abs_nonneg (x : Binary) : 0 ≤ x.abs.value := by
  rw [value_abs]
  positivity

theorem value_eq (x : Binary) : x.value = side x.negative * x.abs.value := by
  rw [value_abs]
  unfold value signed side
  cases x.negative <;> simp

theorem abs_value (x : Binary) : |x.value| = x.abs.value := by
  rw [value_eq, side]
  split <;> simp [abs_of_nonneg x.value_abs_nonneg]

/-- Distances are the same on the other side of zero. -/
theorem IsNearest.opposite {x : Binary} {q : ℚ} (near : x.IsNearest q) :
    x.opposite.IsNearest (-q) := by
  have turned (p : ℚ) : |p - -q| = |-p - q| := by
    rw [← abs_neg]
    congr 1
    ring
  have back (y : Binary) : |y.value - -q| = |y.opposite.value - q| := by
    rw [turned, value_opposite]
  have itself : |x.opposite.value - -q| = |x.value - q| := by
    rw [turned, value_opposite, neg_neg]
  refine ⟨fun y => ?_, fun y differs equal => ?_⟩
  · rw [itself, back]
    exact near.nearest y.opposite
  · rw [itself, back] at equal
    refine near.even y.opposite (fun same => differs ?_) equal
    rw [value_opposite, ← same, value_opposite, neg_neg]

/-- What is nearest to a magnitude is nearest to it on either side of zero. -/
theorem IsNearest.of_abs {x : Binary} {q : ℚ} (near : x.abs.IsNearest q) :
    x.IsNearest (side x.negative * q) := by
  cases sign : x.negative with
  | false =>
    have same : x.abs = x := by
      rw [abs, ← sign]
    rw [same] at near
    rwa [side, if_neg Bool.false_ne_true, one_mul]
  | true =>
    have same : x.abs.opposite = x := by
      rw [abs, Binary.opposite, Bool.not_false, ← sign]
    rw [side, if_pos rfl, neg_one_mul, ← same]
    exact near.opposite

end Binary

/-! ## Rounding to a value -/

namespace Binary

theorem abs_signed_lt (x : Binary) : |x.signed| < 2 ^ 53 := by
  have below := x.significand_lt
  unfold signed
  split <;> simp <;> omega

/-- What is counted in units below half of `2 ^ e` stays below the normal values of
that exponent. -/
theorem value_lt_of_exponent_lt (x : Binary) {e : Int} (lower : x.exponent < e) :
    x.value < 2 ^ 52 * 2 ^ e := by
  have bound : (x.signed : ℚ) < 2 ^ 53 := by
    exact_mod_cast (le_abs_self _).trans_lt x.abs_signed_lt
  have power : (2 : ℚ) ^ x.exponent ≤ 2 ^ (e - 1) :=
    zpow_le_zpow_right₀ (by norm_num) (by omega)
  calc x.value < 2 ^ 53 * 2 ^ x.exponent := mul_lt_mul_of_pos_right bound (by positivity)
    _ ≤ 2 ^ 53 * 2 ^ (e - 1) := mul_le_mul_of_nonneg_left power (by positivity)
    _ = 2 ^ 52 * 2 ^ e := by
      rw [zpow_sub_one₀ two_ne_zero]
      ring

/-- No value is above the largest one. -/
theorem value_le_largest (x : Binary) : x.value ≤ (2 ^ 53 - 1) * 2 ^ (971 : Int) := by
  have bound : (x.signed : ℚ) ≤ 2 ^ 53 - 1 := by
    have below := (le_abs_self _).trans_lt x.abs_signed_lt
    exact_mod_cast Int.le_sub_one_of_lt below
  have power : (2 : ℚ) ^ x.exponent ≤ 2 ^ (971 : Int) :=
    zpow_le_zpow_right₀ (by norm_num) x.exponent_le
  exact mul_le_mul bound power (by positivity) (by norm_num)

end Binary

section Value

variable {num den : Nat}

/-- On a grid that leaves all of its bits to the fraction no value is nearer than the
one that is rounded to. -/
theorem roundToGrid_nearest_value (positive : 0 < den) {e : Int}
    (full : -1074 < e → (2 : ℚ) ^ 52 * 2 ^ e ≤ num / den) (y : Binary) :
    |(roundToGrid num den e : ℚ) * 2 ^ e - num / den| ≤ |y.value - num / den| ∧
      (y.value ≠ roundToGrid num den e * 2 ^ e →
        |(roundToGrid num den e : ℚ) * 2 ^ e - num / den| = |y.value - num / den| →
        roundToGrid num den e % 2 = 0) := by
  rcases lt_or_ge y.exponent e with below | above
  · -- The value is below a multiple that is not above the fraction.
    have lowest := full (lt_of_le_of_lt y.le_exponent below)
    have small := y.value_lt_of_exponent_lt below
    have closer := (@roundToGrid_nearest num den positive e (2 ^ 52)).1
    rw [Int.cast_pow, Int.cast_ofNat, abs_of_nonpos (a := (2 : ℚ) ^ 52 * 2 ^ e - num / den)
      (by linarith)] at closer
    have farther : |(roundToGrid num den e : ℚ) * 2 ^ e - num / den| < |y.value - num / den| := by
      rw [abs_of_neg (a := y.value - num / den) (by linarith)]
      linarith
    exact ⟨farther.le, fun _ equal => absurd equal farther.ne⟩
  · -- The value is a multiple itself.
    have units := y.inUnits_mul above
    obtain ⟨near, tie⟩ := @roundToGrid_nearest num den positive e (y.inUnits e)
    rw [units] at near tie
    refine ⟨near, fun other equal => tie (fun same => other ?_) equal⟩
    rw [← units, same, Int.cast_natCast]

/-- The grid of 53 bits, or the finest one there is, is fine enough for the fraction,
and finer ones only waste its bits. -/
theorem valueGrid_spec (some_num : num ≠ 0) (some_den : den ≠ 0) {e : Int}
    (chosen : e = max (gridExponent 53 num den) (-1074)) :
    (num : ℚ) / den < 2 ^ 53 * 2 ^ e ∧ (-1074 < e → (2 : ℚ) ^ 52 * 2 ^ e ≤ num / den) := by
  obtain ⟨normal, below⟩ := gridExponent_spec 53 some_num some_den
  constructor
  · refine below.trans_le ?_
    rw [zpow_add₀ two_ne_zero]
    exact mul_le_mul_of_nonneg_left (zpow_le_zpow_right₀ (by norm_num) (by omega)) (by positivity)
  · intro normalExponent
    have same : e = gridExponent 53 num den := by omega
    refine normal.trans_eq' ?_
    rw [same, ← zpow_natCast, ← zpow_add₀ two_ne_zero]
    congr 1
    push_cast
    ring

/-- On that grid the fraction counts `2 ^ 53` units at most, and at least half as many
where there are finer ones. What counts all of them is past the last multiple before. -/
theorem valueGrid_count (positive : 0 < den) {e : Int} (under : (num : ℚ) / den < 2 ^ 53 * 2 ^ e)
    (full : -1074 < e → (2 : ℚ) ^ 52 * 2 ^ e ≤ num / den) :
    roundToGrid num den e ≤ 2 ^ 53 ∧ (-1074 < e → 2 ^ 52 ≤ roundToGrid num den e) ∧
      (roundToGrid num den e = 9007199254740992 → ((2 : ℚ) ^ 53 - 1) * 2 ^ e < num / den) := by
  refine ⟨roundToGrid_le positive ?_, fun normalExponent => le_roundToGrid positive ?_,
    fun carry => ?_⟩
  · push_cast
    linarith
  · have lowest := full normalExponent
    push_cast
    linarith
  · by_contra! before
    have least : roundToGrid num den e ≤ 9007199254740991 := by
      refine roundToGrid_le positive ?_
      push_cast
      linarith
    omega

end Value

namespace Double

/-- The real that a number goes to: the value nearest to it, or an infinite one where
the number is past all values. -/
def Rounds (r : Double) (q : ℚ) : Prop :=
  match r with
  | .finite x => x.IsNearest q
  | .infinite negative => ∀ y : Binary, if negative then q < y.value else y.value < q
  | .nan => False

/-- What is past all values is so on either side of zero. -/
theorem rounds_infinite {negative : Bool} {q : ℚ} (past : ∀ y : Binary, y.value < q) :
    (infinite negative).Rounds (side negative * q) := by
  intro y
  cases negative with
  | false => simpa [side] using past y
  | true =>
    have other := past y.opposite
    rw [Binary.value_opposite] at other
    simpa [side] using neg_lt.1 other

/-- A positive fraction goes to a value with the sign that is given and the nearest
magnitude, or is past all values. -/
theorem nearest_magnitude (negative : Bool) {num den : Nat} (some_num : num ≠ 0)
    (some_den : den ≠ 0) :
    (∃ x : Binary, nearest negative num den = .finite x ∧ x.negative = negative ∧
      x.abs.IsNearest (num / den)) ∨
    nearest negative num den = .infinite negative ∧ ∀ y : Binary, y.value < num / den := by
  have positive : 0 < den := Nat.pos_of_ne_zero some_den
  unfold nearest
  rw [if_neg some_num]
  dsimp only
  obtain ⟨e, chosen⟩ : ∃ e, e = max (gridExponent 53 num den) (-1074) := ⟨_, rfl⟩
  rw [← chosen]
  obtain ⟨under, full⟩ := valueGrid_spec some_num some_den chosen
  obtain ⟨count_le, count_ge, past⟩ := valueGrid_count positive under full
  have values := @roundToGrid_nearest_value num den positive e full
  generalize roundToGrid num den e = count at values count_le count_ge past ⊢
  by_cases carry : count = 9007199254740992
  · rw [if_pos carry]
    have doubled : (count : ℚ) * 2 ^ e = (4503599627370496 : Nat) * 2 ^ (e + 1) := by
      rw [carry, zpow_add_one₀ two_ne_zero]
      push_cast
      ring
    by_cases fits : e + 1 ≤ 971
    · rw [Binary.ofParts?, dif_pos (by omega)]
      refine .inl ⟨_, rfl, rfl, fun y => ?_, fun _ _ _ => show 4503599627370496 % 2 = 0 from rfl⟩
      rw [Binary.value_abs, ← doubled]
      exact (values y).1
    · rw [Binary.ofParts?, dif_neg (by omega)]
      refine .inr ⟨rfl, fun y => ?_⟩
      have power : (2 : ℚ) ^ (971 : Int) ≤ 2 ^ e := zpow_le_zpow_right₀ (by norm_num) (by omega)
      calc y.value ≤ (2 ^ 53 - 1) * 2 ^ (971 : Int) := y.value_le_largest
        _ ≤ (2 ^ 53 - 1) * 2 ^ e := mul_le_mul_of_nonneg_left power (by norm_num)
        _ < num / den := past carry
  · rw [if_neg carry]
    by_cases fits : e ≤ 971
    · rw [Binary.ofParts?, dif_pos (by omega)]
      refine .inl ⟨_, rfl, rfl, fun y => ?_, fun y => ?_⟩
      · rw [Binary.value_abs]
        exact (values y).1
      · rw [Binary.value_abs]
        exact (values y).2
    · rw [Binary.ofParts?, dif_neg (by omega)]
      refine .inr ⟨rfl, fun y => ?_⟩
      have power : (2 : ℚ) ^ ((971 : Int) + 1) ≤ 2 ^ e :=
        zpow_le_zpow_right₀ (by norm_num) (by omega)
      rw [zpow_add_one₀ two_ne_zero] at power
      have last := y.value_le_largest
      have first := full (by omega)
      have gap : (0 : ℚ) < 2 ^ (971 : Int) := by positivity
      generalize (2 : ℚ) ^ (971 : Int) = top at power last gap
      linarith

/-- A fraction goes to the nearest value, or past all of them. -/
theorem nearest_rounds (negative : Bool) (num : Nat) {den : Nat} (some_den : den ≠ 0) :
    (nearest negative num den).Rounds (side negative * (num / den)) := by
  by_cases zero : num = 0
  · subst zero
    have none : (Binary.zero negative).value = 0 := by
      simp [Binary.value, Binary.zero, Binary.signed]
    show (Binary.zero negative).IsNearest _
    rw [Nat.cast_zero, zero_div, mul_zero]
    refine ⟨fun y => ?_, fun _ _ _ => rfl⟩
    rw [none, sub_zero, abs_zero]
    exact abs_nonneg _
  rcases nearest_magnitude negative zero some_den with ⟨x, rounded, rfl, near⟩ | ⟨beyond, past⟩
  · rw [rounded]
    exact near.of_abs
  · rw [beyond]
    exact rounds_infinite past

/-- An integer goes to the nearest value, or past all of them. -/
theorem ofInt_rounds (n : Int) : (ofInt n).Rounds n := by
  have rounds := nearest_rounds (n < 0) n.natAbs one_ne_zero
  have same : side (decide (n < 0)) * ((n.natAbs : ℚ) / (1 : Nat)) = n := by
    rw [Nat.cast_one, div_one, Nat.cast_natAbs, side]
    rcases lt_or_ge n 0 with below | above
    · simp [below, abs_of_neg]
    · simp [above, abs_of_nonneg]
  rwa [same] at rounds

/-- An integer of 64 bits goes to the nearest value. -/
theorem ofInt_isNearest {n : Int} (small : n.natAbs < 2 ^ 64) :
    ∃ x : Binary, ofInt n = .finite x ∧ x.IsNearest n := by
  have rounds := ofInt_rounds n
  cases rounded : ofInt n with
  | finite x =>
    rw [rounded] at rounds
    exact ⟨x, rfl, rounds⟩
  | nan =>
    rw [rounded] at rounds
    exact rounds.elim
  | infinite negative =>
    rw [rounded] at rounds
    -- A value of 65 bits is farther from zero, on either side.
    have large := rounds
      ⟨negative, 4503599627370496, 12, by decide, by decide, by decide, by decide⟩
    have bound : |(n : ℚ)| < 2 ^ 64 := by
      rw [← Int.cast_abs, Int.abs_eq_natAbs]
      exact_mod_cast small
    rw [abs_lt] at bound
    cases negative with
    | true =>
      rw [if_pos rfl, Binary.value_eq, Binary.value_abs] at large
      norm_num [side] at large
      linarith
    | false =>
      rw [if_neg Bool.false_ne_true, Binary.value_eq, Binary.value_abs] at large
      norm_num [side] at large
      linarith

end Double

end Chronicle
