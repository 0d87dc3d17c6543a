import Chronicle.Number.Extended
import Chronicle.Proofs.Number.Nearest

/-!
# How precise extended precision is

An operation in extended precision rounds its exact result to 64 bits, and is off by a
`2 ^ 64`-th of it at most. `Within n a q` counts the roundings that lie between `q` and
`a`. Moving the decimal point takes two for each step, one of the power of ten and one
of the product (`Extended.scale_within`), and 44 roundings are still off by less than a
`2 ^ 58`-th (`Within.close`).
-/

namespace Chronicle

/-- The part that one rounding to 64 bits is off by at most. -/
def roundoff : ℚ := 1 / 2 ^ 64

theorem one_sub_roundoff_nonneg : (0 : ℚ) ≤ 1 - roundoff := by norm_num [roundoff]

theorem one_add_roundoff_nonneg : (0 : ℚ) ≤ 1 + roundoff := by norm_num [roundoff]

/-- The number is `q` up to `n` roundings to 64 bits. -/
structure Within (n : Nat) (a q : ℚ) : Prop where
  low : q * (1 - roundoff) ^ n ≤ a
  high : a ≤ q * (1 + roundoff) ^ n

namespace Within

variable {m n : Nat} {a b p q : ℚ}

theorem refl (q : ℚ) : Within 0 q q := ⟨by simp, by simp⟩

theorem nonneg (within : Within n a q) (nonneg : 0 ≤ q) : 0 ≤ a := by
  have factor := pow_nonneg one_sub_roundoff_nonneg n
  exact (mul_nonneg nonneg factor).trans within.low

theorem mul (nonneg : 0 ≤ p) (nonneg' : 0 ≤ q) (left : Within m a p) (right : Within n b q) :
    Within (m + n) (a * b) (p * q) := by
  have factor := one_sub_roundoff_nonneg
  have factor' := one_add_roundoff_nonneg
  constructor
  · calc p * q * (1 - roundoff) ^ (m + n) = p * (1 - roundoff) ^ m * (q * (1 - roundoff) ^ n) := by
          rw [pow_add]
          ring
      _ ≤ a * b := mul_le_mul left.low right.low (by positivity) (left.nonneg nonneg)
  · calc a * b ≤ p * (1 + roundoff) ^ m * (q * (1 + roundoff) ^ n) :=
          mul_le_mul left.high right.high (right.nonneg nonneg') (by positivity)
      _ = p * q * (1 + roundoff) ^ (m + n) := by
          rw [pow_add]
          ring

theorem trans (left : Within n a b) (right : Within m b q) : Within (m + n) a q := by
  constructor
  · refine left.low.trans' ?_
    rw [pow_add, ← mul_assoc]
    exact mul_le_mul_of_nonneg_right right.low (pow_nonneg one_sub_roundoff_nonneg n)
  · refine left.high.trans ?_
    rw [pow_add, ← mul_assoc]
    exact mul_le_mul_of_nonneg_right right.high (pow_nonneg one_add_roundoff_nonneg n)

theorem mono (nonneg : 0 ≤ q) (fewer : m ≤ n) (within : Within m a q) : Within n a q := by
  constructor
  · refine within.low.trans' (mul_le_mul_of_nonneg_left ?_ nonneg)
    exact pow_le_pow_of_le_one one_sub_roundoff_nonneg (by norm_num [roundoff]) fewer
  · refine within.high.trans (mul_le_mul_of_nonneg_left ?_ nonneg)
    exact pow_le_pow_right₀ (by norm_num [roundoff]) fewer

/-- Up to 44 roundings together are off by less than a `2 ^ 58`-th. -/
theorem close (nonneg : 0 ≤ q) (few : n ≤ 44) (within : Within n a q) :
    |a - q| ≤ q / 2 ^ 58 := by
  obtain ⟨low, high⟩ := within.mono nonneg few
  have least : (1 : ℚ) - 1 / 2 ^ 58 ≤ (1 - roundoff) ^ 44 := by norm_num [roundoff]
  have most : (1 + roundoff) ^ 44 ≤ (1 : ℚ) + 1 / 2 ^ 58 := by norm_num [roundoff]
  have low' := (mul_le_mul_of_nonneg_left least nonneg).trans low
  have high' := high.trans (mul_le_mul_of_nonneg_left most nonneg)
  rw [abs_le]
  constructor <;> linarith

end Within

namespace Extended

/-- The number that is stood for. -/
def value (x : Extended) : ℚ := x.significand * 2 ^ x.exponent

theorem value_nonneg (x : Extended) : 0 ≤ x.value := by
  unfold value
  positivity

theorem nearest_within (num : Nat) {den : Nat} (some_den : den ≠ 0) :
    Within 1 (nearest num den).value (num / den) := by
  by_cases zero : num = 0
  · subst zero
    simpa [nearest, value] using (Within.refl 0).mono le_rfl zero_le_one
  obtain ⟨bits, -⟩ := gridExponent_spec 64 zero some_den
  have half := @roundToGrid_half num den (Nat.pos_of_ne_zero some_den) (gridExponent 64 num den)
  have same : (nearest num den).value =
      roundToGrid num den (gridExponent 64 num den) * 2 ^ gridExponent 64 num den := by
    rw [nearest, if_neg zero, value]
  have unit : (2 : ℚ) ^ gridExponent 64 num den ≤ num / den / 2 ^ 63 := by
    rw [le_div_iff₀ (by positivity)]
    refine bits.trans' (le_of_eq ?_)
    rw [mul_comm, ← zpow_natCast, ← zpow_add₀ two_ne_zero]
    congr 1
    push_cast
    ring
  rw [← same] at half
  have close : |(nearest num den).value - num / den| ≤ num / den / 2 ^ 64 := by linarith
  rw [abs_le] at close
  rw [pow_succ] at close
  constructor
  · rw [roundoff, pow_one]
    linarith
  · rw [roundoff, pow_one]
    linarith

theorem mul_within (x y : Extended) : Within 1 (x.mul y).value (x.value * y.value) := by
  have rounded := (nearest_within (x.significand * y.significand) one_ne_zero).mul
    (by positivity) (by positivity) (Within.refl (2 ^ (x.exponent + y.exponent)))
  have product : (nearest (x.significand * y.significand) 1).value *
      2 ^ (x.exponent + y.exponent) = (x.mul y).value := by
    unfold mul value
    dsimp only
    rw [add_assoc, zpow_add₀ two_ne_zero (nearest _ 1).exponent, mul_assoc]
  have whole : ((x.significand * y.significand : Nat) : ℚ) / (1 : Nat) *
      2 ^ (x.exponent + y.exponent) = x.value * y.value := by
    rw [value, value, zpow_add₀ two_ne_zero]
    push_cast
    ring
  rwa [product, whole] at rounded

theorem powerOfTen_within (k : Int) : Within 1 (powerOfTen k).value (10 ^ k) := by
  have rounded := nearest_within (Nat.pow 10 k.toNat)
    (show Nat.pow 10 (-k).toNat ≠ 0 by simp)
  have same : ((Nat.pow 10 k.toNat : Nat) : ℚ) / (Nat.pow 10 (-k).toNat : Nat) = 10 ^ k := by
    rw [Nat.pow_eq, Nat.pow_eq]
    push_cast
    rw [← zpow_mul_toNat (by norm_num) k, mul_div_cancel_right₀ _ (by positivity)]
  rwa [same] at rounded

/-- Moving the point takes two roundings for each step. -/
theorem movePoint_within (k : Int) (n : Nat) {m : Nat} {x : Extended} {q : ℚ} (nonneg : 0 ≤ q)
    (within : Within m x.value q) :
    Within (m + 2 * n) (movePoint k n x).value (q * 10 ^ (k * n)) := by
  induction n generalizing m x q with
  | zero => simpa [movePoint] using within
  | succ n ih =>
    have step : Within (m + 2) (x.mul (powerOfTen k)).value (q * 10 ^ k) := by
      have power := within.mul nonneg (by positivity) (powerOfTen_within k)
      exact (mul_within x (powerOfTen k)).trans power
    have rest := ih (by positivity) step
    have places : q * 10 ^ k * 10 ^ (k * n) = q * 10 ^ (k * (n + 1 : Nat)) := by
      rw [mul_assoc, ← zpow_add₀ (by norm_num)]
      congr 2
      push_cast
      ring
    rw [places] at rest
    rwa [show m + 2 + 2 * n = m + 2 * (n + 1) by ring] at rest

/-- Moving the point by less than five hundred places takes 44 roundings at most. -/
theorem scale_within {x : Extended} {k : Int} (near : k.natAbs < 500) :
    Within 44 (x.scale k).value (x.value * 10 ^ k) := by
  have hundreds := movePoint_within (100 * k.sign) (k.natAbs / 100) x.value_nonneg
    (Within.refl x.value)
  have tens := movePoint_within (10 * k.sign) (k.natAbs % 100 / 10)
    (mul_nonneg x.value_nonneg (by positivity)) hundreds
  have ones := movePoint_within k.sign (k.natAbs % 10)
    (mul_nonneg (mul_nonneg x.value_nonneg (by positivity)) (by positivity)) tens
  have places : 100 * k.sign * (k.natAbs / 100 : Nat) + 10 * k.sign * (k.natAbs % 100 / 10 : Nat) +
      k.sign * (k.natAbs % 10 : Nat) = k := by
    have digits : 100 * (k.natAbs / 100) + 10 * (k.natAbs % 100 / 10) + k.natAbs % 10 =
        k.natAbs := by omega
    have whole : k.sign * (k.natAbs : Int) = k := Int.sign_mul_natAbs k
    rw [← digits] at whole
    push_cast at whole ⊢
    linarith
  rw [mul_assoc, mul_assoc, ← zpow_add₀ (by norm_num), ← zpow_add₀ (by norm_num), ← add_assoc,
    places] at ones
  exact ones.mono (mul_nonneg x.value_nonneg (by positivity)) (by omega)

theorem lt_iff (x y : Extended) : x.lt y ↔ x.value < y.value := by
  have counted (z : Extended) {e : Int} (below : e ≤ z.exponent) :
      ((z.significand <<< (z.exponent - e).toNat : Nat) : ℚ) * 2 ^ e = z.value := by
    rw [Nat.shiftLeft_eq]
    push_cast
    rw [mul_assoc, Binary.two_pow_toNat_mul below, value]
  rw [lt, decide_eq_true_eq, ← counted x (min_le_left _ y.exponent),
    ← counted y (min_le_right x.exponent _), mul_lt_mul_iff_left₀ (by positivity), Nat.cast_lt]

/-- A number of extended precision goes to the nearest value, or past all of them. -/
theorem toDouble_rounds (x : Extended) (negative : Bool) :
    (x.toDouble negative).Rounds (side negative * x.value) := by
  have fraction : (x.fraction.1 : ℚ) / x.fraction.2 = x.value := by
    rw [Extended.fraction, value, Nat.shiftLeft_eq, Nat.one_shiftLeft]
    push_cast
    rw [← zpow_mul_toNat two_ne_zero x.exponent, ← mul_assoc,
      mul_div_cancel_right₀ _ (by positivity)]
  have some_den : x.fraction.2 ≠ 0 := by
    rw [Extended.fraction, Nat.one_shiftLeft]
    positivity
  unfold toDouble
  split
  · rename_i past
    rw [lt_iff] at past
    refine Double.rounds_infinite fun y => y.value_le_largest.trans_lt (past.trans_eq' ?_)
    rw [largest, value]
    norm_num
  · rw [← fraction]
    exact Double.nearest_rounds negative _ some_den

end Extended

end Chronicle
