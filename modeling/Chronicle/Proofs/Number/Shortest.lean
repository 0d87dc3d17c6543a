import Chronicle.Number.Decimal
import Chronicle.Proofs.Number.Numerals

/-!
# The shortest decimals of values

The numbers that read back as a value lie between the halves of the ways to its
neighbours (`Binary.isNearest_of_holds`). Seventeen digits always have a decimal there,
so the shortest one reads back as the value (`Binary.shortest_isNearest`). Where the
value is a decimal of fewer than 53 bits, that decimal is the shortest one
(`Binary.shortest_of_decimal`).
-/

namespace Chronicle

namespace Binary

/-! ## Neighbours -/

section Neighbours

variable {x y : Binary}

/-- Values in units of a power of two that none is finer than are integers apart. -/
theorem add_one_unit_le {e n : Int} (coarser : e ≤ y.exponent) (above : n * 2 ^ e < y.value) :
    ((n : ℚ) + 1) * 2 ^ e ≤ y.value := by
  have unit : (0 : ℚ) < 2 ^ e := by positivity
  rw [← y.inUnits_mul coarser] at above ⊢
  have more := lt_of_mul_lt_mul_right above unit.le
  have least : n + 1 ≤ y.inUnits e := Int.add_one_le_of_lt (by exact_mod_cast more)
  exact mul_le_mul_of_nonneg_right (by exact_mod_cast least) unit.le

theorem le_sub_one_unit {e n : Int} (coarser : e ≤ y.exponent) (below : y.value < n * 2 ^ e) :
    y.value ≤ ((n : ℚ) - 1) * 2 ^ e := by
  have unit : (0 : ℚ) < 2 ^ e := by positivity
  rw [← y.inUnits_mul coarser] at below ⊢
  have fewer := lt_of_mul_lt_mul_right below unit.le
  have most : y.inUnits e ≤ n - 1 := Int.le_sub_one_of_lt (by exact_mod_cast fewer)
  exact mul_le_mul_of_nonneg_right (by exact_mod_cast most) unit.le

/-- A larger value is a whole unit larger. -/
theorem add_unit_le (above : x.abs.value < y.value) :
    (x.significand + 1) * 2 ^ x.exponent ≤ y.value := by
  rw [value_abs] at above
  rcases lt_or_ge y.exponent x.exponent with finer | coarser
  · -- Smaller exponents only have smaller values.
    have unit : (0 : ℚ) < 2 ^ x.exponent := by positivity
    have small := y.value_lt_of_exponent_lt finer
    have normal := x.normal.resolve_right (by have := y.le_exponent; omega)
    have large : (2 : ℚ) ^ 52 ≤ x.significand := by exact_mod_cast normal
    have bound := mul_le_mul_of_nonneg_right large unit.le
    linarith
  · exact add_one_unit_le (n := x.significand) coarser above

/-- A smaller value is a whole unit smaller, or half a unit below a power of two. -/
theorem le_sub_unit (below : y.value < x.abs.value) :
    y.value ≤ (x.significand - 1) * 2 ^ x.exponent ∨
      (x.significand = 4503599627370496 ∧ x.exponent ≠ -1074) ∧
        y.value ≤ (x.significand - 1 / 2) * 2 ^ x.exponent := by
  rw [value_abs] at below
  have unit : (0 : ℚ) < 2 ^ x.exponent := by positivity
  rcases lt_or_ge y.exponent x.exponent with finer | coarser
  · have small := y.value_lt_of_exponent_lt finer
    have notLowest : x.exponent ≠ -1074 := by have := y.le_exponent; omega
    have normal := x.normal.resolve_right notLowest
    rcases Nat.eq_or_lt_of_le normal with power | more
    · refine .inr ⟨⟨power.symm, notLowest⟩, ?_⟩
      have half : (2 : ℚ) ^ x.exponent = 2 * 2 ^ (x.exponent - 1) := by
        rw [zpow_sub_one₀ two_ne_zero]
        ring
      have bits : (x.significand : ℚ) = 2 ^ 52 := by exact_mod_cast power.symm
      have half_unit : (0 : ℚ) < 2 ^ (x.exponent - 1) := by positivity
      rw [bits, half] at below ⊢
      rcases lt_or_ge y.exponent (x.exponent - 1) with finest | next
      · have smaller := y.value_lt_of_exponent_lt finest
        linarith
      · have least := le_sub_one_unit (n := 2 ^ 53) next (by push_cast; linarith)
        push_cast at least
        linarith
    · refine .inl (small.le.trans (mul_le_mul_of_nonneg_right ?_ unit.le))
      have bits : (2 : ℚ) ^ 52 + 1 ≤ x.significand := by exact_mod_cast more
      linarith
  · exact .inl (le_sub_one_unit (n := x.significand) coarser below)

/-- Another value is apart from the magnitude by more than a `2 ^ 54`-th of it. -/
theorem abs_apart (differ : y.value ≠ x.abs.value) :
    x.abs.value < 2 ^ 54 * |y.value - x.abs.value| := by
  have unit : (0 : ℚ) < 2 ^ x.exponent := by positivity
  have bits : (x.significand : ℚ) < 2 ^ 53 := by exact_mod_cast x.significand_lt
  have size : x.abs.value < 2 ^ 53 * 2 ^ x.exponent := by
    rw [value_abs]
    exact mul_lt_mul_of_pos_right bits unit
  have itself := x.value_abs
  rcases lt_or_gt_of_ne differ with below | above
  · rw [abs_of_neg (by linarith)]
    rcases le_sub_unit below with whole | ⟨-, half⟩ <;> linarith
  · rw [abs_of_pos (by linarith)]
    have more := add_unit_le above
    linarith

/-- Values that differ are apart by more than a `2 ^ 54`-th of either. -/
theorem apart (differ : y.value ≠ x.value) : |x.value| < 2 ^ 54 * |y.value - x.value| := by
  rw [abs_value]
  have signed := x.value_eq
  cases sign : x.negative with
  | false =>
    rw [sign, side, if_neg Bool.false_ne_true, one_mul] at signed
    rw [signed] at differ ⊢
    exact abs_apart differ
  | true =>
    rw [sign, side, if_pos rfl, neg_one_mul] at signed
    have other : y.opposite.value ≠ x.abs.value := by
      rw [value_opposite]
      intro same
      rw [signed, ← same, neg_neg] at differ
      exact differ rfl
    have distance : |y.value - x.value| = |y.opposite.value - x.abs.value| := by
      rw [value_opposite, signed, ← abs_neg]
      congr 1
      ring
    rw [distance]
    exact abs_apart other

end Neighbours

/-! ## The interval of a value -/

section Interval

variable {x : Binary}

/-- How many quarters of a unit the interval goes down from the magnitude. -/
def quartersBelow (x : Binary) : Nat :=
  if x.significand = 4503599627370496 ∧ x.exponent ≠ -1074 then 1 else 2

/-- The number halfway to the value below the magnitude. -/
def lowEnd (x : Binary) : ℚ := (4 * x.significand - x.quartersBelow) * 2 ^ (x.exponent - 2)

/-- The number halfway to the value above the magnitude. -/
def highEnd (x : Binary) : ℚ := (4 * x.significand + 2) * 2 ^ (x.exponent - 2)

theorem quarters (x : Binary) (n : ℚ) : n * 2 ^ x.exponent = 4 * n * 2 ^ (x.exponent - 2) := by
  rw [zpow_sub₀ two_ne_zero]
  ring

/-- The upper end is two quarters of a unit above the magnitude, and the lower end is
below it by no more. -/
theorem ends_spec (x : Binary) :
    x.abs.value - 2 * 2 ^ (x.exponent - 2) ≤ x.lowEnd ∧ x.lowEnd < x.abs.value ∧
      x.highEnd = x.abs.value + 2 * 2 ^ (x.exponent - 2) := by
  have unit : (0 : ℚ) < 2 ^ (x.exponent - 2) := by positivity
  have some_below : (1 : ℚ) ≤ x.quartersBelow ∧ (x.quartersBelow : ℚ) ≤ 2 := by
    unfold quartersBelow
    split <;> norm_num
  have least := mul_le_mul_of_nonneg_right some_below.1 unit.le
  have most := mul_le_mul_of_nonneg_right some_below.2 unit.le
  rw [value_abs, quarters, lowEnd, highEnd]
  refine ⟨?_, ?_, ?_⟩ <;> linarith

theorem lowEnd_pos (nonzero : x.significand ≠ 0) : 0 < x.lowEnd := by
  have one : (1 : ℚ) ≤ x.significand := by exact_mod_cast Nat.one_le_iff_ne_zero.2 nonzero
  refine mul_pos ?_ (by positivity)
  unfold quartersBelow
  split <;> push_cast <;> linarith

/-- The interval is wider than the seventeenth digit of the magnitude, also below a power
of two. -/
theorem width_spec (x : Binary) : x.abs.value / 10 ^ 16 < x.highEnd - x.lowEnd := by
  have unit : (0 : ℚ) < 2 ^ (x.exponent - 2) := by positivity
  have bits : (x.significand : ℚ) < 2 ^ 53 := by exact_mod_cast x.significand_lt
  have size := mul_lt_mul_of_pos_right bits unit
  rw [value_abs, quarters, highEnd, lowEnd, quartersBelow]
  split
  · rename_i power
    rw [power.1]
    push_cast
    linarith
  · push_cast
    linarith

theorem highEnd_lt (x : Binary) : x.highEnd < 10 ^ (342 : Int) := by
  have bits : (x.significand : ℚ) < 2 ^ 53 := by exact_mod_cast x.significand_lt
  have count : (4 * x.significand + 2 : ℚ) < 2 ^ 57 := by linarith
  have power : (2 : ℚ) ^ (x.exponent - 2) ≤ 2 ^ (969 : Int) :=
    zpow_le_zpow_right₀ (by norm_num) (by have := x.exponent_le; omega)
  calc x.highEnd < 2 ^ 57 * 2 ^ (x.exponent - 2) :=
        mul_lt_mul_of_pos_right count (by positivity)
    _ ≤ 2 ^ 57 * 2 ^ (969 : Int) := mul_le_mul_of_nonneg_left power (by positivity)
    _ = 8 ^ (342 : Int) := by
      rw [show (8 : ℚ) = 2 ^ (3 : Int) by norm_num, ← zpow_mul, ← zpow_natCast,
        ← zpow_add₀ two_ne_zero]
      rfl
    _ ≤ 10 ^ (342 : Int) := zpow_le_zpow_left₀ (by norm_num) (by norm_num) (by norm_num)

theorem highEnd_le {y : Binary} (above : x.abs.value < y.value) :
    2 * x.highEnd ≤ x.abs.value + y.value := by
  have more := add_unit_le above
  rw [value_abs, quarters, highEnd]
  rw [quarters] at more
  linarith

theorem le_lowEnd {y : Binary} (below : y.value < x.abs.value) :
    x.abs.value + y.value ≤ 2 * x.lowEnd := by
  have unit : (0 : ℚ) < 2 ^ (x.exponent - 2) := by positivity
  rw [value_abs, quarters, lowEnd, quartersBelow]
  rcases le_sub_unit below with whole | ⟨power, half⟩
  · rw [quarters] at whole
    split <;> push_cast <;> linarith
  · rw [quarters] at half
    rw [if_pos power]
    push_cast
    linarith

/-- The ends of the interval, the middle and the denominator stand for the numbers
between which a decimal reads back. -/
theorem interval_spec (nonzero : x.significand ≠ 0) :
    0 < x.interval.den ∧ (x.interval.low : ℚ) = x.lowEnd * x.interval.den ∧
      (x.interval.middle : ℚ) = x.abs.value * x.interval.den ∧
      (x.interval.high : ℚ) = x.highEnd * x.interval.den ∧
      x.interval.closed = decide (x.significand % 2 = 0) := by
  have turn : (2 : ℚ) ^ (x.exponent - 2) * 2 ^ (2 - x.exponent).toNat =
      2 ^ (x.exponent - 2).toNat := by
    have moved := zpow_mul_toNat (two_ne_zero (α := ℚ)) (x.exponent - 2)
    rwa [neg_sub] at moved
  have fits : (if x.significand = 4503599627370496 ∧ x.exponent ≠ -1074 then 1 else 2) ≤
      4 * x.significand := by
    split <;> omega
  refine ⟨?_, ?_, ?_, ?_, rfl⟩
  · rw [interval, Nat.one_shiftLeft]
    positivity
  all_goals
    rw [interval, Nat.one_shiftLeft]
    dsimp only
    rw [Nat.shiftLeft_eq]
  · rw [lowEnd, quartersBelow]
    push_cast [Nat.cast_sub fits]
    rw [mul_assoc, turn]
  · rw [value_abs, quarters]
    push_cast
    rw [mul_assoc (4 * (x.significand : ℚ)), turn, mul_assoc]
  · rw [highEnd]
    push_cast
    rw [mul_assoc, turn]

theorem holds_iff (nonzero : x.significand ≠ 0) (c : Nat) (k : Int) :
    x.interval.holds c k ↔
      if x.significand % 2 = 0 then x.lowEnd ≤ c * 10 ^ k ∧ c * 10 ^ k ≤ x.highEnd
      else x.lowEnd < c * 10 ^ k ∧ c * 10 ^ k < x.highEnd := by
  obtain ⟨positive, low, -, high, closed⟩ := interval_spec nonzero
  have den : (0 : ℚ) < x.interval.den := by exact_mod_cast positive
  have unit : (0 : ℚ) < 10 ^ (-k).toNat := by positivity
  -- Both sides of each test are taken by one factor.
  have scaled (q : ℚ) : q * x.interval.den * 10 ^ (-k).toNat =
      q * (x.interval.den * 10 ^ (-k).toNat) := by ring
  have at10 : (c : ℚ) * 10 ^ k.toNat * x.interval.den =
      c * 10 ^ k * (x.interval.den * 10 ^ (-k).toNat) := by
    rw [← zpow_mul_toNat (by norm_num) k]
    ring
  have factor := mul_pos den unit
  unfold Interval.holds
  dsimp only
  rw [closed]
  by_cases even : x.significand % 2 = 0
  · rw [if_pos even, decide_eq_true even, if_pos rfl, decide_eq_true_eq,
      ← Nat.cast_le (α := ℚ), ← Nat.cast_le (α := ℚ), Nat.pow_eq, Nat.pow_eq]
    push_cast
    rw [low, high, scaled, scaled, at10, mul_le_mul_iff_left₀ factor, mul_le_mul_iff_left₀ factor]
  · rw [if_neg even, decide_eq_false even, if_neg Bool.false_ne_true, decide_eq_true_eq,
      ← Nat.cast_lt (α := ℚ), ← Nat.cast_lt (α := ℚ), Nat.pow_eq, Nat.pow_eq]
    push_cast
    rw [low, high, scaled, scaled, at10, mul_lt_mul_iff_left₀ factor, mul_lt_mul_iff_left₀ factor]

/-- What the interval holds lies between its ends. -/
theorem between_of_holds (nonzero : x.significand ≠ 0) {c : Nat} {k : Int}
    (holds : x.interval.holds c k) : x.lowEnd ≤ c * 10 ^ k ∧ c * 10 ^ k ≤ x.highEnd := by
  rw [holds_iff nonzero] at holds
  split at holds
  · exact holds
  · exact ⟨holds.1.le, holds.2.le⟩

/-- A decimal strictly between the ends is held. -/
theorem holds_of_between (nonzero : x.significand ≠ 0) {c : Nat} {k : Int}
    (low : x.lowEnd < c * 10 ^ k) (high : c * 10 ^ k < x.highEnd) : x.interval.holds c k := by
  rw [holds_iff nonzero]
  split
  · exact ⟨low.le, high.le⟩
  · exact ⟨low, high⟩

/-- The interval holds the decimals that the magnitude is nearest to. -/
theorem isNearest_of_holds (nonzero : x.significand ≠ 0) {c : Nat} {k : Int}
    (holds : x.interval.holds c k) : x.abs.IsNearest (c * 10 ^ k) := by
  obtain ⟨low, high⟩ := between_of_holds nonzero holds
  rw [holds_iff nonzero] at holds
  generalize (c : ℚ) * 10 ^ k = d at *
  constructor
  · intro y
    rcases lt_trichotomy y.value x.abs.value with below | same | above
    · have half := le_lowEnd below
      rw [abs_of_nonpos (a := y.value - d) (by linarith), abs_le]
      constructor <;> linarith
    · rw [same]
    · have half := highEnd_le above
      rw [abs_of_nonneg (a := y.value - d) (by linarith), abs_le]
      constructor <;> linarith
  · intro y differ equal
    by_contra odd
    rw [if_neg (show ¬ x.significand % 2 = 0 from odd)] at holds
    rcases lt_or_gt_of_ne differ with below | above
    · have half := le_lowEnd below
      rw [abs_of_neg (a := y.value - d) (by linarith [holds.1]), abs_eq (by linarith [holds.1])]
        at equal
      rcases equal with same | same <;> linarith [holds.1]
    · have half := highEnd_le above
      rw [abs_of_pos (a := y.value - d) (by linarith [holds.2]), abs_eq (by linarith [holds.2])]
        at equal
      rcases equal with same | same <;> linarith [holds.2]

end Interval

end Binary

/-! ## Places and digits -/

/-- A natural quotient is the floor of the fraction. -/
theorem natDiv_bounds {n d : Nat} (positive : 0 < d) :
    ((n / d : Nat) : ℚ) ≤ n / d ∧ (n : ℚ) / d < (n / d : Nat) + 1 := by
  have some_den : (0 : ℚ) < d := by exact_mod_cast positive
  rw [le_div_iff₀ some_den, div_lt_iff₀ some_den]
  constructor
  · exact_mod_cast Nat.div_mul_le_self n d
  · rw [add_one_mul]
    exact_mod_cast Nat.lt_div_mul_add positive

namespace Decimal

/-- A number lies between the powers of ten around its count of digits. -/
theorem digitCount_spec {n : Nat} (nonzero : n ≠ 0) :
    10 ^ (digitCount n - 1) ≤ n ∧ n < 10 ^ digitCount n := by
  have some_digits : 0 < digitCount n := Nat.length_toDigits_pos
  refine ⟨?_, (Nat.length_toDigits_le_iff (by decide) some_digits).1 le_rfl⟩
  rcases Nat.eq_zero_or_pos (digitCount n - 1) with one | several
  · rw [one]
    exact Nat.one_le_iff_ne_zero.2 nonzero
  · by_contra! fewer
    have short := (Nat.length_toDigits_le_iff (by decide) several).2 fewer
    rw [← digitCount] at short
    omega

section Places

variable {num den : Nat}

/-- The place of the point lies between the powers of ten around the fraction. -/
theorem pointPlace_spec (positive : 0 < den) (large : (1 : ℚ) ≤ num / den * 10 ^ 324) :
    (10 : ℚ) ^ (pointPlace num den - 1) ≤ num / den ∧
      (num : ℚ) / den < 10 ^ pointPlace num den := by
  unfold pointPlace
  rw [← Nat.cast_ofNat (R := Int) (n := 324)]
  -- How far the point is moved does not matter.
  generalize (OfNat.ofNat 324 : Nat) = k at large ⊢
  rw [Nat.pow_eq]
  have moved : (num : ℚ) / den * 10 ^ k = ((num * 10 ^ k : Nat) : ℚ) / den := by
    push_cast
    ring
  have shift : (0 : ℚ) < 10 ^ k := by positivity
  obtain ⟨below, above⟩ := @natDiv_bounds (num * 10 ^ k) den positive
  rw [← moved] at below above
  have some_whole : num * 10 ^ k / den ≠ 0 := by
    intro zero
    rw [zero] at above
    push_cast at above
    linarith
  generalize num * 10 ^ k / den = whole at below above some_whole ⊢
  obtain ⟨short, long⟩ := digitCount_spec some_whole
  obtain ⟨n, digits⟩ : ∃ n, digitCount whole = n + 1 :=
    Nat.exists_eq_succ_of_ne_zero Nat.length_toDigits_pos.ne'
  rw [digits] at short long ⊢
  rw [Nat.add_sub_cancel] at short
  constructor
  · have power : (10 : ℚ) ^ (((n + 1 : Nat) : Int) - k - 1) * 10 ^ k = 10 ^ n := by
      rw [← zpow_natCast, ← zpow_natCast, ← zpow_add₀ (by norm_num)]
      congr 1
      push_cast
      ring
    refine le_of_mul_le_mul_right ?_ shift
    rw [power]
    exact below.trans' (by exact_mod_cast short)
  · have power : (10 : ℚ) ^ (((n + 1 : Nat) : Int) - k) * 10 ^ k = 10 ^ (n + 1) := by
      rw [← zpow_natCast, ← zpow_natCast, ← zpow_add₀ (by norm_num)]
      congr 1
      ring
    refine lt_of_mul_lt_mul_right ?_ shift.le
    rw [power]
    exact above.trans_le (by exact_mod_cast long)

/-- The fraction in units of a power of ten. -/
theorem scale_eq (k : Int) :
    ((scale num den k).1 : ℚ) / (scale num den k).2 = num / den / 10 ^ k := by
  rw [scale, Nat.pow_eq, Nat.pow_eq]
  push_cast
  rw [← zpow_mul_toNat (by norm_num) k]
  field_simp

/-- Dropping zeros keeps the number, and does not make its digits more. -/
theorem trimWith_spec (fuel : Nat) (d : Decimal) :
    (trimWith fuel d).value = d.value ∧ (trimWith fuel d).digits ≤ d.digits ∧
      d.exponent ≤ (trimWith fuel d).exponent := by
  induction fuel generalizing d with
  | zero => exact ⟨rfl, le_rfl, le_rfl⟩
  | succ fuel ih =>
    rw [trimWith]
    split
    · rename_i zero
      obtain ⟨same, fewer, later⟩ := ih ⟨d.digits / 10, d.exponent + 1⟩
      have whole : d.digits = d.digits / 10 * 10 :=
        (Nat.div_mul_cancel (Nat.dvd_of_mod_eq_zero zero.2)).symm
      refine ⟨same.trans ?_, fewer.trans (Nat.div_le_self _ _), by dsimp only at later; omega⟩
      have cast : (d.digits : ℚ) = (d.digits / 10 : Nat) * 10 := by exact_mod_cast whole
      rw [value, value, cast, zpow_add_one₀ (by norm_num)]
      ring
    · exact ⟨rfl, le_rfl, le_rfl⟩

end Places

end Decimal

namespace Binary

/-! ## The first decimal in the interval -/

section Shortest

variable {x : Binary}

/-- The place of the point in the decimals of the magnitude. -/
def place (x : Binary) : Int := Decimal.pointPlace x.interval.middle x.interval.den

/-- How many whole units of `10 ^ k` the magnitude has. -/
def wholeAt (x : Binary) (k : Int) : Nat :=
  (Decimal.scale x.interval.middle x.interval.den k).1 /
    (Decimal.scale x.interval.middle x.interval.den k).2

theorem middle_div (nonzero : x.significand ≠ 0) :
    (x.interval.middle : ℚ) / x.interval.den = x.abs.value := by
  obtain ⟨positive, -, middle, -⟩ := interval_spec nonzero
  rw [middle, mul_div_cancel_right₀]
  exact_mod_cast positive.ne'

/-- No magnitude but zero has its point more than 323 places before the first digit. -/
theorem place_spec (nonzero : x.significand ≠ 0) :
    (10 : ℚ) ^ (x.place - 1) ≤ x.abs.value ∧ x.abs.value < 10 ^ x.place := by
  obtain ⟨positive, -⟩ := interval_spec nonzero
  have least : (2 : ℚ) ^ (-1074 : Int) ≤ x.abs.value := by
    rw [value_abs]
    have one : (1 : ℚ) ≤ x.significand := by exact_mod_cast Nat.one_le_iff_ne_zero.2 nonzero
    have power : (2 : ℚ) ^ (-1074 : Int) ≤ 2 ^ x.exponent :=
      zpow_le_zpow_right₀ (by norm_num) x.le_exponent
    calc (2 : ℚ) ^ (-1074 : Int) ≤ 1 * 2 ^ x.exponent := by rwa [one_mul]
      _ ≤ x.significand * 2 ^ x.exponent := mul_le_mul_of_nonneg_right one (by positivity)
  have powers : 2 ^ 1074 ≤ 10 ^ 324 := by decide +kernel
  have large : (1 : ℚ) ≤ x.interval.middle / x.interval.den * 10 ^ 324 := by
    rw [middle_div nonzero]
    calc (1 : ℚ) = 2 ^ (-1074 : Int) * 2 ^ 1074 := by
          rw [← zpow_natCast, ← zpow_add₀ two_ne_zero]
          rfl
      _ ≤ x.abs.value * 10 ^ 324 :=
          mul_le_mul least (by exact_mod_cast powers) (by positivity) x.value_abs_nonneg
  have place := Decimal.pointPlace_spec positive large
  rwa [middle_div nonzero] at place

theorem wholeAt_bounds (nonzero : x.significand ≠ 0) (k : Int) :
    x.wholeAt k * 10 ^ k ≤ x.abs.value ∧ x.abs.value < (x.wholeAt k + 1) * 10 ^ k := by
  obtain ⟨positive, -⟩ := interval_spec nonzero
  have unit : (0 : ℚ) < 10 ^ k := by positivity
  have some_den : 0 < (Decimal.scale x.interval.middle x.interval.den k).2 := by
    rw [Decimal.scale, Nat.pow_eq]
    exact Nat.mul_pos positive (Nat.pow_pos (by decide))
  obtain ⟨below, above⟩ :=
    @natDiv_bounds (Decimal.scale x.interval.middle x.interval.den k).1 _ some_den
  rw [Decimal.scale_eq, middle_div nonzero] at below above
  exact ⟨(le_div_iff₀ unit).1 below, (div_lt_iff₀ unit).1 above⟩

theorem withDigits_eq_some {n : Nat} {d : Decimal} (found : x.interval.withDigits n = some d) :
    d.exponent = x.place - n ∧ x.interval.holds d.digits d.exponent ∧
      d.digits ≤ x.wholeAt d.exponent + 1 := by
  unfold Interval.withDigits at found
  dsimp only at found
  rw [← place, ← wholeAt] at found
  split at found
  · rename_i here next
    split at found <;> obtain rfl := Option.some.inj found
    · exact ⟨rfl, here, Nat.le_succ _⟩
    · exact ⟨rfl, next, le_rfl⟩
  · rename_i here _
    obtain rfl := Option.some.inj found
    exact ⟨rfl, here, Nat.le_succ _⟩
  · rename_i _ next
    obtain rfl := Option.some.inj found
    exact ⟨rfl, next, le_rfl⟩
  · cases found

theorem withDigits_isSome {n : Nat}
    (held : x.interval.holds (x.wholeAt (x.place - n)) (x.place - n) ∨
      x.interval.holds (x.wholeAt (x.place - n) + 1) (x.place - n)) :
    (x.interval.withDigits n).isSome := by
  unfold Interval.withDigits
  dsimp only
  rw [← place, ← wholeAt]
  split
  · split <;> rfl
  · rfl
  · rfl
  · rename_i here next
    rw [here, next] at held
    simp at held

/-- Seventeen digits suffice: their unit is finer than the interval. -/
theorem withDigits_seventeen (nonzero : x.significand ≠ 0) : (x.interval.withDigits 17).isSome := by
  obtain ⟨least, -⟩ := place_spec nonzero
  obtain ⟨below, above⟩ := wholeAt_bounds nonzero (x.place - 17)
  have finer : (10 : ℚ) ^ (x.place - (17 : Nat)) ≤ x.abs.value / 10 ^ 16 := by
    rw [le_div_iff₀ (by positivity)]
    refine least.trans_eq' ?_
    rw [← zpow_natCast, ← zpow_add₀ (by norm_num)]
    congr 1
    push_cast
    ring
  obtain ⟨-, above_low, high⟩ := x.ends_spec
  have wide := x.width_spec
  have below_high : x.abs.value < x.highEnd := by
    rw [high]
    exact lt_add_of_pos_right _ (by positivity)
  refine withDigits_isSome ?_
  by_cases low : x.lowEnd < x.wholeAt (x.place - (17 : Nat)) * 10 ^ (x.place - (17 : Nat))
  · exact .inl (holds_of_between nonzero low (below.trans_lt below_high))
  · refine .inr (holds_of_between nonzero ?_ ?_)
    · exact above_low.trans (by exact_mod_cast above)
    · push_cast at low finer ⊢
      linarith

/-- The shortest decimal is the first that some number of digits has in the interval. -/
theorem shortest_eq (nonzero : x.significand ≠ 0) :
    ∃ n < 17, ∃ d, x.interval.withDigits (n + 1) = some d ∧
      (∀ j < n, x.interval.withDigits (j + 1) = none) ∧ x.shortest = d.trim := by
  have some_digits : ((List.range 17).findSome? fun n => x.interval.withDigits (n + 1)).isSome := by
    rw [List.findSome?_isSome_iff]
    exact ⟨16, by decide, withDigits_seventeen nonzero⟩
  obtain ⟨d, found⟩ := Option.isSome_iff_exists.1 some_digits
  obtain ⟨before, n, after, split, here, fails⟩ := List.findSome?_eq_some_iff.1 found
  rw [List.range_eq_range'] at split
  obtain ⟨k, within, rfl, rest⟩ := List.range'_eq_append_iff.1 split
  obtain ⟨rfl, some_left, -⟩ := List.range'_eq_cons_iff.1 rest.symm
  rw [zero_add, mul_one] at here
  refine ⟨k, by omega, d, here, fun j earlier => fails j ?_, ?_⟩
  · exact List.mem_range'_1.2 ⟨Nat.zero_le j, by omega⟩
  · rw [shortest, if_neg nonzero, found, Option.getD_some]

/-- The shortest decimal of a value reads back as the value. -/
theorem shortest_isNearest (nonzero : x.significand ≠ 0) :
    x.abs.IsNearest x.shortest.value := by
  obtain ⟨n, -, d, found, -, trimmed⟩ := shortest_eq nonzero
  obtain ⟨-, held, -⟩ := withDigits_eq_some found
  rw [trimmed, Decimal.trim, (Decimal.trimWith_spec _ _).1]
  exact isNearest_of_holds nonzero held

/-- A decimal of `n` digits in the interval has no more than `n` digits, or is the power
of ten above them. -/
theorem withDigits_digits_le (nonzero : x.significand ≠ 0) {n : Nat} {d : Decimal}
    (found : x.interval.withDigits n = some d) : d.digits ≤ 10 ^ n := by
  obtain ⟨exponent, -, digits⟩ := withDigits_eq_some found
  obtain ⟨below, -⟩ := wholeAt_bounds nonzero d.exponent
  have size := below.trans_lt (place_spec nonzero).2
  have split : (10 : ℚ) ^ x.place = 10 ^ n * 10 ^ d.exponent := by
    rw [exponent, ← zpow_natCast, ← zpow_add₀ (by norm_num)]
    congr 1
    ring
  rw [split] at size
  have count := lt_of_mul_lt_mul_right size (by positivity)
  have whole : x.wholeAt d.exponent < 10 ^ n := by exact_mod_cast count
  exact digits.trans whole

theorem neg_lt_place (x : Binary) : -324 < x.place := by
  unfold place Decimal.pointPlace
  have some_digits : 0 < Decimal.digitCount (x.interval.middle * Nat.pow 10 324 / x.interval.den) :=
    Nat.length_toDigits_pos
  omega

/-- The shortest decimal has seventeen digits at most, and its point is not far from
them. -/
theorem shortest_bounds (nonzero : x.significand ≠ 0) :
    x.shortest.digits ≠ 0 ∧ x.shortest.digits ≤ 10 ^ 17 ∧ x.shortest.exponent.natAbs < 400 := by
  obtain ⟨n, few, d, found, -, trimmed⟩ := shortest_eq nonzero
  obtain ⟨exponent, held, -⟩ := withDigits_eq_some found
  obtain ⟨same, fewer, later⟩ := Decimal.trimWith_spec (Decimal.digitCount d.digits) d
  rw [← Decimal.trim, ← trimmed] at same fewer later
  obtain ⟨low, high⟩ := between_of_holds nonzero held
  rw [← Decimal.value, ← same] at low high
  have some_digits : x.shortest.digits ≠ 0 := by
    intro zero
    rw [Decimal.value, zero, Nat.cast_zero, zero_mul] at low
    exact absurd low (not_le.2 (lowEnd_pos nonzero))
  have lowest := x.neg_lt_place
  have highest : x.shortest.exponent < 342 := by
    have one : (1 : ℚ) ≤ x.shortest.digits := by
      exact_mod_cast Nat.one_le_iff_ne_zero.2 some_digits
    have least : (10 : ℚ) ^ x.shortest.exponent ≤ x.shortest.value :=
      le_mul_of_one_le_left (by positivity) one
    exact (zpow_lt_zpow_iff_right₀ (by norm_num)).1 ((least.trans high).trans_lt x.highEnd_lt)
  refine ⟨some_digits, (fewer.trans (withDigits_digits_le nonzero found)).trans ?_, by omega⟩
  exact Nat.pow_le_pow_right (by decide) (by omega)

section Decimals

variable {c : Nat} {k : Int}

/-- A decimal fraction that is a multiple of a power of two has as many factors of five
in its digits as it has places, so that 53 bits have few places. -/
theorem places_lt {c m n j : Nat} (counted : c * 2 ^ n = m * 10 ^ j) (some_digits : c ≠ 0)
    (few : c < 2 ^ 53) : j < 23 := by
  have divides : 5 ^ j ∣ c := by
    have coprime : Nat.Coprime (5 ^ j) (2 ^ n) := Nat.Coprime.pow j n (by decide)
    refine coprime.dvd_of_dvd_mul_right ⟨m * 2 ^ j, ?_⟩
    rw [counted, show (10 : Nat) ^ j = 5 ^ j * 2 ^ j from mul_pow 5 2 j]
    ring
  by_contra! many
  have five := Nat.le_of_dvd (Nat.pos_of_ne_zero some_digits) divides
  have least := Nat.pow_le_pow_right (show 0 < 5 by decide) many
  norm_num at least few
  omega

/-- A decimal of 53 bits is never below the normal values. -/
theorem normal_of_decimal (same : x.abs.value = c * 10 ^ k) (few : c < 2 ^ 53)
    (nonzero : x.significand ≠ 0) : 4503599627370496 ≤ x.significand := by
  by_contra! small
  have lowest := x.normal.resolve_left (by omega)
  have one : (1 : ℚ) ≤ x.significand := by exact_mod_cast Nat.one_le_iff_ne_zero.2 nonzero
  rw [value_abs, lowest, zpow_neg, ← div_eq_mul_inv, div_eq_iff (by positivity)] at same
  have some_digits : c ≠ 0 := by
    rintro rfl
    rw [Nat.cast_zero, zero_mul, zero_mul] at same
    linarith
  have size : (x.significand : ℚ) < 2 ^ 52 := by exact_mod_cast small
  rcases le_or_gt 0 k with whole | fractional
  · -- A whole number is not as small.
    have least : (1 : ℚ) ≤ c * 10 ^ k := by
      have digits : (1 : ℚ) ≤ c := by exact_mod_cast Nat.one_le_iff_ne_zero.2 some_digits
      exact one_le_mul_of_one_le_of_one_le digits (one_le_zpow₀ (by norm_num) whole)
    have power : (2 : ℚ) ^ 52 ≤ 2 ^ (1074 : Int) := by
      rw [← zpow_natCast]
      exact zpow_le_zpow_right₀ (by norm_num) (by norm_num)
    have large := mul_le_mul_of_nonneg_right least (show (0 : ℚ) ≤ 2 ^ (1074 : Int) by positivity)
    rw [one_mul, ← same] at large
    exact absurd size (not_lt.2 (power.trans large))
  · -- A fraction of few places is not as small either.
    obtain ⟨j, rfl⟩ : ∃ j : Nat, k = -(j : Int) := ⟨(-k).toNat, by omega⟩
    have counted : c * 2 ^ 1074 = x.significand * 10 ^ j := by
      refine Nat.cast_injective (R := ℚ) ?_
      rw [Nat.cast_mul, Nat.cast_mul, Nat.cast_pow, Nat.cast_pow, same, zpow_neg, zpow_natCast,
        Nat.cast_ofNat, Nat.cast_ofNat, mul_right_comm, inv_mul_cancel_right₀ (by positivity)]
      rfl
    have places := places_lt counted some_digits few
    have large : 2 ^ 1074 ≤ x.significand * 10 ^ j := by
      rw [← counted]
      exact Nat.le_mul_of_pos_left _ (Nat.pos_of_ne_zero some_digits)
    have most : x.significand * 10 ^ j ≤ 2 ^ 52 * 10 ^ 23 :=
      Nat.mul_le_mul small.le (Nat.pow_le_pow_right (by decide) places.le)
    have powers : 2 ^ 52 * 10 ^ 23 < 2 ^ 1074 := by decide +kernel
    omega

/-- A decimal has the place of the magnitude that it is. -/
theorem place_of_decimal (same : x.abs.value = c * 10 ^ k) (nonzero : x.significand ≠ 0)
    (some_digits : c ≠ 0) : x.place = Decimal.digitCount c + k := by
  have digit : (0 : ℚ) < 10 ^ k := by positivity
  obtain ⟨least, most⟩ := place_spec nonzero
  obtain ⟨least', most'⟩ := Decimal.digitCount_spec some_digits
  have upper : x.place - 1 < Decimal.digitCount c + k := by
    refine (zpow_lt_zpow_iff_right₀ (show (1 : ℚ) < 10 by norm_num)).1 (least.trans_lt ?_)
    rw [same, zpow_add₀ (by norm_num), zpow_natCast]
    exact mul_lt_mul_of_pos_right (by exact_mod_cast most') digit
  have lower : (Decimal.digitCount c - 1 : Nat) + k < x.place := by
    refine (zpow_lt_zpow_iff_right₀ (show (1 : ℚ) < 10 by norm_num)).1 (most.trans_le' ?_)
    rw [same, zpow_add₀ (by norm_num), zpow_natCast]
    exact mul_le_mul_of_nonneg_right (by exact_mod_cast least') digit.le
  have some_count : 0 < Decimal.digitCount c := Nat.length_toDigits_pos
  omega

/-- A decimal is found at its own count of digits. -/
theorem withDigits_of_decimal (same : x.abs.value = c * 10 ^ k) (nonzero : x.significand ≠ 0)
    (some_digits : c ≠ 0) : (x.interval.withDigits (Decimal.digitCount c)).isSome := by
  have digit : (0 : ℚ) < 10 ^ k := by positivity
  have place := place_of_decimal same nonzero some_digits
  have here : x.place - Decimal.digitCount c = k := by omega
  have whole : x.wholeAt k = c := by
    obtain ⟨below, above⟩ := wholeAt_bounds nonzero k
    rw [same] at below above
    have fewer : x.wholeAt k ≤ c := by exact_mod_cast le_of_mul_le_mul_right below digit
    have more : c < x.wholeAt k + 1 := by exact_mod_cast lt_of_mul_lt_mul_right above digit.le
    omega
  obtain ⟨-, low, high⟩ := x.ends_spec
  refine withDigits_isSome (.inl ?_)
  rw [here, whole]
  refine holds_of_between nonzero ?_ ?_ <;> rw [← same]
  · exact low
  · rw [high]
    exact lt_add_of_pos_right _ (by positivity)

/-- The last place of a decimal of 53 bits is coarser than half of the interval. -/
theorem half_lt_place (same : x.abs.value = c * 10 ^ k) (few : c < 2 ^ 53)
    (normal : 4503599627370496 ≤ x.significand) : 2 * 2 ^ (x.exponent - 2) < (10 : ℚ) ^ k := by
  have digit : (0 : ℚ) < 10 ^ k := by positivity
  have unit : (0 : ℚ) < 2 ^ (x.exponent - 2) := by positivity
  have bits : (2 : ℚ) ^ 52 ≤ x.significand := by exact_mod_cast normal
  have fewer : (c : ℚ) < 2 ^ 53 := by exact_mod_cast few
  refine lt_of_mul_lt_mul_left ?_ (show (0 : ℚ) ≤ 2 ^ 53 by positivity)
  calc (2 : ℚ) ^ 53 * (2 * 2 ^ (x.exponent - 2)) = 4 * 2 ^ 52 * 2 ^ (x.exponent - 2) := by ring
    _ ≤ 4 * (x.significand : ℚ) * 2 ^ (x.exponent - 2) :=
      mul_le_mul_of_nonneg_right (mul_le_mul_of_nonneg_left bits (by norm_num)) unit.le
    _ = c * 10 ^ k := by rw [← quarters, ← value_abs, same]
    _ < 2 ^ 53 * 10 ^ k := mul_lt_mul_of_pos_right fewer digit

/-- A value that is a decimal of 53 bits has that decimal as its shortest one. -/
theorem shortest_of_decimal (same : x.abs.value = c * 10 ^ k) (few : c < 2 ^ 53)
    (nonzero : x.significand ≠ 0) : x.shortest.value = x.abs.value := by
  have normal := normal_of_decimal same few nonzero
  have coarse := half_lt_place same few normal
  have some_digits : c ≠ 0 := by
    rintro rfl
    rw [Nat.cast_zero, zero_mul] at same
    exact absurd ((lowEnd_pos nonzero).trans x.ends_spec.2.1) (by rw [same]; exact lt_irrefl 0)
  obtain ⟨n, -, d, found, fails, trimmed⟩ := shortest_eq nonzero
  obtain ⟨exponent, held, -⟩ := withDigits_eq_some found
  rw [trimmed, Decimal.trim, (Decimal.trimWith_spec _ _).1]
  have first : n + 1 ≤ Decimal.digitCount c := by
    by_contra! fewer
    have some_count : 0 < Decimal.digitCount c := Nat.length_toDigits_pos
    have none := fails (Decimal.digitCount c - 1) (by omega)
    have itself := withDigits_of_decimal same nonzero some_digits
    rw [Nat.sub_add_cancel some_count] at none
    rw [none] at itself
    cases itself
  have place := place_of_decimal same nonzero some_digits
  -- Multiples of its last place that are in the interval are the decimal itself.
  obtain ⟨j, later⟩ : ∃ j : Nat, d.exponent = j + k := ⟨(d.exponent - k).toNat, by omega⟩
  have multiple : d.value = ((d.digits * 10 ^ j : Nat) : ℚ) * 10 ^ k := by
    rw [Decimal.value, later, zpow_add₀ (by norm_num), zpow_natCast]
    push_cast
    ring
  obtain ⟨low, high⟩ := between_of_holds nonzero held
  obtain ⟨low', -, high'⟩ := x.ends_spec
  rw [← Decimal.value, multiple] at low high
  rw [multiple, same]
  rw [same] at low' high'
  generalize d.digits * 10 ^ j = count at *
  have digit : (0 : ℚ) < 10 ^ k := by positivity
  have fewer : (count : ℚ) < c + 1 := by
    refine lt_of_mul_lt_mul_right ?_ digit.le
    linarith
  have more : (c : ℚ) < count + 1 := by
    refine lt_of_mul_lt_mul_right ?_ digit.le
    linarith
  have equal : count = c := by
    have fewer : count < c + 1 := by exact_mod_cast fewer
    have more : c < count + 1 := by exact_mod_cast more
    omega
  rw [equal]

end Decimals

end Shortest

end Binary

end Chronicle
