import Chronicle.Proofs.Number.Shortest
import Mathlib.Order.WithBot

/-!
# Reading a value from its text

A query reads a value from its shortest decimal in extended precision, and not always
as the value itself. It does not stray far: no other value lies between the two
(`Binary.leadingReal_adjoins`). A value that is a decimal of 53 bits is read as itself
(`Binary.leadingReal_of_decimal`).
-/

namespace Chronicle

/-! ## Points -/

/-- Rational numbers with two infinite ends. -/
abbrev Point := WithBot (WithTop ℚ)

/-- A rational number as a point. -/
def Point.ofRat (q : ℚ) : Point := ((q : WithTop ℚ) : Point)

theorem Point.ofRat_strictMono : StrictMono Point.ofRat := fun _ _ less =>
  WithBot.coe_lt_coe.2 (WithTop.coe_lt_coe.2 less)

theorem Point.bot_lt_ofRat (q : ℚ) : ⊥ < Point.ofRat q := WithBot.bot_lt_coe _

theorem Point.ofRat_lt_top (q : ℚ) : Point.ofRat q < ⊤ :=
  WithBot.coe_lt_coe.2 (WithTop.coe_lt_top q)

namespace Double

/-- The point that a real stands for. A NaN stands for none, and is counted as the
lowest. -/
def value : Double → Point
  | .finite x => Point.ofRat x.value
  | .infinite negative => if negative then ⊥ else ⊤
  | .nan => ⊥

theorem compareInt_eq {x : Double} (number : x ≠ .nan) (n : Int) :
    x.compareInt n = some (cmp x.value (Point.ofRat n)) := by
  cases x with
  | finite x =>
    rw [compareInt, Binary.compareInt_eq, value, Point.ofRat_strictMono.cmp_map_eq]
  | infinite negative =>
    cases negative with
    | true => exact congrArg some ((cmp_eq_lt_iff _ _).2 (Point.bot_lt_ofRat n)).symm
    | false => exact congrArg some ((cmp_eq_gt_iff _ _).2 (Point.ofRat_lt_top n)).symm
  | nan => exact absurd rfl number

theorem compare_eq_finite {x : Double} (number : x ≠ .nan) (y : Binary) :
    x.compare (.finite y) = some (cmp x.value (Point.ofRat y.value)) := by
  cases x with
  | finite x =>
    rw [compare, Binary.compare_eq, value, Point.ofRat_strictMono.cmp_map_eq]
  | infinite negative =>
    cases negative with
    | true => exact congrArg some ((cmp_eq_lt_iff _ _).2 (Point.bot_lt_ofRat _)).symm
    | false => exact congrArg some ((cmp_eq_gt_iff _ _).2 (Point.ofRat_lt_top _)).symm
  | nan => exact absurd rfl number

end Double

/-! ## Numbers next to each other -/

/-- No value lies strictly between the number and the point. -/
structure Adjoins (q : ℚ) (r : Point) : Prop where
  above : ∀ z : Binary, q < z.value → r ≤ Point.ofRat z.value
  below : ∀ z : Binary, z.value < q → Point.ofRat z.value ≤ r

/-- A number goes to a value on its side of the half of the way to any other. -/
theorem Binary.IsNearest.le_half {x z : Binary} {q : ℚ} (near : x.IsNearest q)
    (less : x.value < z.value) : 2 * q ≤ x.value + z.value := by
  have close := near.nearest z
  by_contra! past
  rw [abs_of_neg (by linarith)] at close
  rcases abs_cases (z.value - q) with ⟨same, -⟩ | ⟨same, -⟩ <;> linarith

theorem Binary.IsNearest.half_le {x z : Binary} {q : ℚ} (near : x.IsNearest q)
    (more : z.value < x.value) : x.value + z.value ≤ 2 * q := by
  have close := near.nearest z
  by_contra! past
  rw [abs_of_pos (by linarith)] at close
  rcases abs_cases (z.value - q) with ⟨same, -⟩ | ⟨same, -⟩ <;> linarith

namespace Double

/-- A value before the real that a number goes to is before the number, too. -/
theorem Rounds.le {r : Double} {q : ℚ} (rounds : r.Rounds q) {z : Binary}
    (less : Point.ofRat z.value < r.value) : z.value ≤ q := by
  cases r with
  | finite x =>
    have less : z.value < x.value := Point.ofRat_strictMono.lt_iff_lt.1 less
    have half := Binary.IsNearest.half_le rounds less
    linarith
  | infinite negative =>
    cases negative with
    | true => exact absurd less not_lt_bot
    | false => exact (rounds z).le
  | nan => exact rounds.elim

theorem Rounds.ge {r : Double} {q : ℚ} (rounds : r.Rounds q) {z : Binary}
    (more : r.value < Point.ofRat z.value) : q ≤ z.value := by
  cases r with
  | finite x =>
    have more : x.value < z.value := Point.ofRat_strictMono.lt_iff_lt.1 more
    have half := Binary.IsNearest.le_half rounds more
    linarith
  | infinite negative =>
    cases negative with
    | true => exact (rounds z).le
    | false => exact absurd more not_top_lt
  | nan => exact rounds.elim

/-- Nothing lies between a number and what it goes to. -/
theorem Rounds.adjoins {r : Double} {q : ℚ} (rounds : r.Rounds q) : Adjoins q r.value where
  above _ past := not_lt.1 fun less => absurd (rounds.le less) (not_le.2 past)
  below _ past := not_lt.1 fun more => absurd (rounds.ge more) (not_le.2 past)

end Double

/-- Half the way to a value is more than any error of reading. -/
theorem not_past {x z d q : ℚ} (half : 2 * d ≤ x + z) (far : |x| < 2 ^ 54 * (z - x))
    (far' : |z| < 2 ^ 54 * (z - x)) (close : |q - d| ≤ |d| / 2 ^ 58) : q < z := by
  have size := abs_lt.1 far
  have size' := abs_lt.1 far'
  have near := abs_le.1 close
  rcases abs_cases d with ⟨same, -⟩ | ⟨same, -⟩ <;> rw [same] at near <;> linarith

namespace Binary

variable {x : Binary} {d q : ℚ} {r : Double}

/-- A number that is close to what the value is nearest to does not go past the next
value. -/
theorem adjoins_of_close (near : x.IsNearest d) (close : |q - d| ≤ |d| / 2 ^ 58)
    (rounds : r.Rounds q) : Adjoins x.value r.value := by
  constructor
  · intro z past
    rw [← not_lt]
    intro less
    have far := apart (x := x) (y := z) past.ne'
    have far' := apart (x := z) (y := x) past.ne
    rw [abs_of_pos (a := z.value - x.value) (by linarith)] at far
    rw [abs_of_neg (a := x.value - z.value) (by linarith), neg_sub] at far'
    have before := not_past (near.le_half past) far far' close
    exact absurd (rounds.le less) (not_le.2 before)
  · -- The same on the other side of zero.
    intro z past
    rw [← not_lt]
    intro more
    have far := apart (x := x) (y := z) past.ne
    have far' := apart (x := z) (y := x) past.ne'
    rw [abs_of_neg (a := z.value - x.value) (by linarith)] at far
    rw [abs_of_pos (a := x.value - z.value) (by linarith)] at far'
    have half : 2 * -d ≤ -x.value + -z.value := by linarith [near.half_le past]
    have turned : |-q - -d| ≤ |-d| / 2 ^ 58 := by
      rwa [abs_neg, ← neg_sub', abs_neg]
    have before := not_past half (by rw [abs_neg]; linarith) (by rw [abs_neg]; linarith) turned
    exact absurd (rounds.ge more) (not_le.2 (neg_lt_neg_iff.1 before))

/-- The text of a value is read as a number that is close to its shortest decimal. -/
theorem leadingReal_jsonText (nonzero : x.significand ≠ 0) :
    ∃ q, |q - side x.negative * x.shortest.value| ≤
        |side x.negative * x.shortest.value| / 2 ^ 58 ∧
      (leadingReal x.jsonText.toList).Rounds q := by
  obtain ⟨some_digits, few, near⟩ := shortest_bounds nonzero
  obtain ⟨q, within, rounds⟩ := leadingReal_render x.negative some_digits few near
  have nonneg : 0 ≤ x.shortest.value := by
    unfold Decimal.value
    positivity
  have one : |side x.negative| = 1 := by
    unfold side
    split <;> simp
  refine ⟨_, ?_, rounds⟩
  rw [← mul_sub, abs_mul, abs_mul, one, one_mul, one_mul, abs_of_nonneg nonneg]
  exact within.close nonneg le_rfl

theorem jsonText_zero (zero : x.significand = 0) :
    x.jsonText.toList = (if x.negative then ['-'] else []) ++ ['0', '.', '0'] := by
  rw [jsonText, shortest, if_pos zero, Layout.render, String.toList_ofList]
  cases x.negative <;> rfl

/-- The text of zero is read as zero. -/
theorem leadingReal_zero (zero : x.significand = 0) :
    leadingReal x.jsonText.toList = .finite (.zero x.negative) := by
  rw [jsonText_zero zero]
  cases x.negative <;> rfl

theorem value_of_zero (zero : x.significand = 0) : x.value = 0 := by
  rw [value_eq, value_abs, zero, Nat.cast_zero, zero_mul, mul_zero]

/-- The text of a value is read as the value or as one next to it. -/
theorem leadingReal_adjoins (x : Binary) :
    Adjoins x.value (leadingReal x.jsonText.toList).value := by
  by_cases zero : x.significand = 0
  · rw [leadingReal_zero zero, value_of_zero zero, Double.value, value_of_zero rfl]
    have order := Point.ofRat_strictMono
    exact ⟨fun z past => (order past).le, fun z past => (order past).le⟩
  · obtain ⟨q, close, rounds⟩ := leadingReal_jsonText zero
    exact adjoins_of_close (shortest_isNearest zero).of_abs close rounds

/-! ## Decimals of 53 bits -/

/-- The largest value is the bound of all values. -/
theorem value_largest : largest.value = (2 ^ 53 - 1) * 2 ^ (971 : Int) := by
  rw [value_of_nonneg rfl]
  norm_num [largest]

/-- The largest value has no factor of five, so that it is no decimal of 53 bits. -/
theorem largest_not_decimal {c : Nat} {k : Int} (few : c < 2 ^ 53) :
    ((2 : ℚ) ^ 53 - 1) * 2 ^ (971 : Int) ≠ c * 10 ^ k := by
  intro same
  have bits : (c : ℚ) < 2 ^ 53 := by exact_mod_cast few
  rcases le_or_gt k 0 with fractional | whole
  · have power : (10 : ℚ) ^ k ≤ 1 := zpow_le_one_of_nonpos₀ (by norm_num) fractional
    have power' : (2 : ℚ) ≤ 2 ^ (971 : Int) := by
      rw [← zpow_one (2 : ℚ), ← zpow_mul]
      exact zpow_le_zpow_right₀ (by norm_num) (by norm_num)
    have positive : (0 : ℚ) ≤ c := Nat.cast_nonneg c
    generalize (2 : ℚ) ^ (971 : Int) = top at same power'
    nlinarith
  · obtain ⟨j, rfl⟩ : ∃ j : Nat, k = (j + 1 : Nat) := ⟨(k - 1).toNat, by omega⟩
    have factors (n : Nat) : 9007199254740991 * 2 ^ n ≠ c * 10 ^ (j + 1) := by
      intro counted
      have divides : 5 ∣ 9007199254740991 * 2 ^ n := ⟨c * 10 ^ j * 2, by rw [counted]; ring⟩
      have coprime : Nat.Coprime 5 (2 ^ n) := Nat.Coprime.pow_right n (by decide)
      exact absurd (coprime.dvd_of_dvd_mul_right divides) (by decide)
    refine factors 971 (Nat.cast_injective (R := ℚ) ?_)
    rw [zpow_natCast, zpow_ofNat] at same
    rw [Nat.cast_mul, Nat.cast_mul, Nat.cast_pow, Nat.cast_pow, Nat.cast_ofNat, Nat.cast_ofNat,
      Nat.cast_ofNat, ← same]
    norm_num only

/-- Rounding a number that is close to a value gives the value, if it gives one. -/
theorem value_eq_of_close {y : Binary} {q : ℚ} (close : |q - x.value| ≤ |x.value| / 2 ^ 58)
    (rounds : (Double.finite y).Rounds q) : y.value = x.value := by
  by_contra differ
  have far := apart differ
  have nearer := rounds.nearest x
  have triangle := abs_sub_le y.value q x.value
  rw [abs_sub_comm x.value q] at nearer
  have positive := abs_nonneg x.value
  linarith

/-- Only the largest value has no other one before an infinite end. -/
theorem abs_of_adjoins_infinite {negative : Bool}
    (adjoins : Adjoins x.value (Double.infinite negative).value) :
    |x.value| = (2 ^ 53 - 1) * 2 ^ (971 : Int) := by
  have most := x.value_le_largest
  have least := x.opposite.value_le_largest
  rw [← value_largest] at most least ⊢
  rw [value_opposite] at least
  have nonneg : 0 ≤ largest.value := by
    rw [value_largest]
    norm_num
  cases negative with
  | true =>
    have last : x.value ≤ -largest.value := by
      by_contra! before
      rw [← value_opposite] at before
      exact absurd (adjoins.below _ before) (not_le.2 (Point.bot_lt_ofRat _))
    rw [abs_of_nonpos (by linarith)]
    linarith
  | false =>
    have last : largest.value ≤ x.value := by
      by_contra! before
      exact absurd (adjoins.above _ before) (not_le.2 (Point.ofRat_lt_top _))
    rw [abs_of_nonneg (by linarith)]
    linarith

/-- A value that is a decimal of 53 bits is read back from its text. -/
theorem leadingReal_of_decimal {c k : Int} (same : x.value = c * 10 ^ k) (few : |c| < 2 ^ 53) :
    ∃ y : Binary, leadingReal x.jsonText.toList = .finite y ∧ y.value = x.value := by
  by_cases zero : x.significand = 0
  · exact ⟨_, leadingReal_zero zero, (value_of_zero rfl).trans (value_of_zero zero).symm⟩
  have magnitude : x.abs.value = c.natAbs * 10 ^ k := by
    rw [← abs_value, same, abs_mul, abs_of_pos (a := (10 : ℚ) ^ k) (by positivity),
      Nat.cast_natAbs, Int.cast_abs]
  have bits : c.natAbs < 2 ^ 53 := by
    rw [Int.abs_eq_natAbs] at few
    exact_mod_cast few
  obtain ⟨q, close, rounds⟩ := leadingReal_jsonText zero
  rw [shortest_of_decimal magnitude bits zero, ← value_eq] at close
  have near := leadingReal_adjoins x
  cases read : leadingReal x.jsonText.toList with
  | finite y =>
    rw [read] at rounds
    exact ⟨y, rfl, value_eq_of_close close rounds⟩
  | infinite negative =>
    rw [read] at near
    have last := abs_of_adjoins_infinite near
    rw [abs_value, magnitude] at last
    exact absurd last.symm (largest_not_decimal bits)
  | nan =>
    rw [read] at rounds
    exact rounds.elim

end Binary

end Chronicle
