import Chronicle.Json.Rereading
import Chronicle.Proofs.Number.Reading

/-!
# Numbers read back from JSON text

The text of every number can be read (`Number.reread?_isSome`): an integer comes back as
itself and a float as a float. None comes back as too large, although the digits of the
largest ones are rounded before they are multiplied with a power of ten that is rounded,
too. Up to the power of 308 no product of what seventeen digits and a power of ten are
rounded to is past the largest value, unless the decimal is (`productsFit`).

A float need not come back as itself (`reread_roundFloat`).
-/

namespace Chronicle

namespace Binary

/-! ## Values in order -/

variable {x y z : Binary} {p q : ℚ}

/-- What is nearest to a number is not before a value that is not past the number. -/
theorem IsNearest.ge (near : x.IsNearest q) (past : z.value ≤ q) : z.value ≤ x.value := by
  by_contra! before
  have close := near.nearest z
  rw [abs_of_neg (by linarith), abs_of_nonpos (by linarith)] at close
  linarith

/-- Numbers in order go to values in order. -/
theorem IsNearest.mono (near : x.IsNearest p) (near' : y.IsNearest q) (less : p < q) :
    x.value ≤ y.value := by
  by_contra! more
  have low := near.half_le more
  have high := near'.le_half more
  linarith

theorem le_largest (x : Binary) : x.value ≤ largest.value :=
  x.value_le_largest.trans_eq value_largest.symm

theorem magnitude_eq (x : Binary) : (x.magnitude.1 : ℚ) / x.magnitude.2 = x.abs.value := by
  have moved := zpow_mul_toNat (two_ne_zero (α := ℚ)) x.exponent
  rw [value_abs, magnitude, Nat.shiftLeft_eq, Nat.one_shiftLeft]
  push_cast
  rw [div_eq_iff (by positivity), mul_assoc, moved]

/-- The largest value is a whole number. -/
theorem largest_whole : largest.value = (largest.magnitude.1 : ℚ) := by
  have whole := largest.magnitude_eq
  rw [show largest.magnitude.2 = 1 from rfl, Nat.cast_one, div_one] at whole
  exact whole.symm

theorem magnitude_pos (x : Binary) : 0 < x.magnitude.2 := by
  rw [magnitude, Nat.one_shiftLeft]
  positivity

/-! ## Single steps -/

/-- A fraction that is not past the largest value goes to a value. -/
theorem nearest_finite {num den : Nat} (some_den : den ≠ 0)
    (inside : (num : ℚ) / den ≤ largest.value) :
    ∃ x : Binary, (Double.nearest false num den).finite? = some x ∧ x.negative = false ∧
      x.IsNearest (num / den) := by
  by_cases zero : num = 0
  · have rounds := Double.nearest_rounds false num some_den
    subst zero
    rw [Nat.cast_zero, zero_div, mul_zero] at rounds
    refine ⟨.zero false, rfl, rfl, ?_⟩
    rw [Nat.cast_zero, zero_div]
    exact rounds
  · rcases Double.nearest_magnitude false zero some_den with ⟨x, rounded, sign, near⟩ | ⟨-, past⟩
    · refine ⟨x, by rw [rounded]; rfl, sign, ?_⟩
      simpa [side, sign] using near.of_abs
    · exact absurd inside (not_le.2 (past largest))

/-- A number that is not past the largest value goes to a value. -/
theorem ofNat?_spec {n : Nat} (inside : (n : ℚ) ≤ largest.value) :
    ∃ x, ofNat? n = some x ∧ x.negative = false ∧ x.IsNearest n := by
  have found := @nearest_finite n 1 one_ne_zero (by simpa using inside)
  simpa [ofNat?] using found

theorem ofNat?_isNearest {n : Nat} (inside : (n : ℚ) ≤ largest.value)
    (rounded : ofNat? n = some x) : x.IsNearest n ∧ x.abs = x := by
  obtain ⟨y, found, sign, near⟩ := ofNat?_spec inside
  obtain rfl := Option.some.inj (rounded.symm.trans found)
  exact ⟨near, by rw [abs, ← sign]⟩

theorem times?_isSome (inside : x.abs.value * y.abs.value ≤ largest.value) :
    (x.times? y).isSome := by
  have positive := Nat.mul_pos x.magnitude_pos y.magnitude_pos
  obtain ⟨z, found, -⟩ := @nearest_finite (x.magnitude.1 * y.magnitude.1) _ positive.ne' (by
    push_cast
    rwa [mul_div_mul_comm, magnitude_eq, magnitude_eq])
  exact Option.isSome_iff_exists.2 ⟨z, found⟩

/-- Dividing by one or more never goes past all values. -/
theorem over?_isSome (least : 1 ≤ y.abs.value) : (x.over? y).isSome := by
  have some_den : x.magnitude.2 * y.magnitude.1 ≠ 0 := by
    have numerator : y.magnitude.1 ≠ 0 := by
      intro zero
      rw [← magnitude_eq, zero, Nat.cast_zero, zero_div] at least
      linarith
    exact Nat.mul_ne_zero x.magnitude_pos.ne' numerator
  obtain ⟨z, found, -⟩ := @nearest_finite (x.magnitude.1 * y.magnitude.2) _ some_den (by
    push_cast
    rw [mul_div_mul_comm, magnitude_eq, ← inv_div, magnitude_eq, ← div_eq_mul_inv]
    exact (div_le_self x.value_abs_nonneg least).trans x.abs.le_largest)
  exact Option.isSome_iff_exists.2 ⟨z, found⟩

/-! ## Powers of ten -/

theorem digitCount_largest : Decimal.digitCount largest.magnitude.1 = 309 := by decide +kernel

theorem ten_le_largest {k : Nat} (near : k < 309) : ((Nat.pow 10 k : Nat) : ℚ) ≤ largest.value := by
  have last := (Decimal.digitCount_spec (show largest.magnitude.1 ≠ 0 by decide +kernel)).1
  have fewer : k ≤ Decimal.digitCount largest.magnitude.1 - 1 := by
    rw [digitCount_largest]
    omega
  generalize Decimal.digitCount largest.magnitude.1 = count at last fewer
  rw [largest_whole]
  exact Nat.cast_le.2 ((pow_le_pow_right₀ (by decide) fewer).trans last)

/-- The number one, from which the powers of ten rise. -/
theorem exists_one : ∃ x : Binary, x.value = 1 := by
  refine ⟨⟨false, 4503599627370496, -52, by decide, by decide, by decide, by decide⟩, ?_⟩
  rw [value_of_nonneg rfl]
  norm_num

theorem powerOfTen?_spec {k : Nat} (near : k < 309) :
    ∃ p, powerOfTen? k = some p ∧ 1 ≤ p.abs.value := by
  obtain ⟨p, found, sign, nearest⟩ := ofNat?_spec (ten_le_largest near)
  obtain ⟨one, value_one⟩ := exists_one
  have least : one.value ≤ ((Nat.pow 10 k : Nat) : ℚ) := by
    rw [value_one]
    exact Nat.one_le_cast.2 (Nat.one_le_pow k 10 (by decide))
  refine ⟨p, found, ?_⟩
  rw [abs, ← sign, ← value_one]
  exact nearest.ge least

/-- A value can be divided by each power of ten. -/
theorem over?_powerOfTen (x : Binary) {k : Nat} (near : k < 309) :
    ((powerOfTen? k).bind x.over?).isSome := by
  obtain ⟨p, power, least⟩ := powerOfTen?_spec near
  rw [power]
  exact over?_isSome least

theorem shrink?_isSome (n : Nat) (x : Binary) : (shrink? n x).isSome := by
  induction n generalizing x with
  | zero => rfl
  | succ n ih =>
    rw [shrink?]
    split
    · rfl
    · obtain ⟨p, power, -⟩ := @powerOfTen?_spec 308 (by decide)
      have divided := x.over?_powerOfTen (show 308 < 309 by decide)
      rw [power] at divided
      obtain ⟨y, quotient⟩ := Option.isSome_iff_exists.1 divided
      rw [Option.bind_some] at quotient
      rw [power, Option.bind_eq_bind, Option.bind_some, quotient, Option.bind_some]
      exact ih y

/-- The largest number of up to seventeen digits that makes a decimal with `10 ^ k` which
is not past all values, or the power of ten above these. -/
def mostDigits (k : Nat) : Nat := min (Nat.pow 10 17) (largest.magnitude.1 / Nat.pow 10 k)

/-- No product of a number of that many digits and a power of ten, both of them rounded,
is past the largest value. -/
theorem productsFit : ∀ k < 309, ∃ x p, ofNat? (mostDigits k) = some x ∧
    powerOfTen? k = some p ∧
      x.magnitude.1 * p.magnitude.1 ≤
        largest.magnitude.1 * (x.magnitude.2 * p.magnitude.2) := by
  have checked : (List.range 309).all (fun k => ((ofNat? (mostDigits k)).bind fun x =>
      (powerOfTen? k).map fun p => decide (x.magnitude.1 * p.magnitude.1 ≤
        largest.magnitude.1 * (x.magnitude.2 * p.magnitude.2))) = some true) = true := by
    decide +kernel
  intro k below
  have here := List.all_eq_true.1 checked k (List.mem_range.2 below)
  simp only [decide_eq_true_eq, Option.bind_eq_some_iff, Option.map_eq_some_iff] at here
  obtain ⟨x, digits, p, power, fits⟩ := here
  exact ⟨x, p, digits, power, fits⟩

/-- Fewer digits go to no larger value. -/
theorem ofNat?_mono {m n : Nat} (few : m ≤ n) (inside : (n : ℚ) ≤ largest.value)
    (digits : ofNat? m = some x) (digits' : ofNat? n = some y) : x.value ≤ y.value := by
  rcases few.lt_or_eq with fewer | rfl
  · have less : (m : ℚ) < n := by exact_mod_cast fewer
    exact (ofNat?_isNearest (less.le.trans inside) digits).1.mono
      (ofNat?_isNearest inside digits').1 less
  · exact (congrArg value (Option.some.inj (digits.symm.trans digits'))).le

/-- Up to seventeen digits can be multiplied with a power of ten, if the decimal is not past
the largest value. -/
theorem times?_powerOfTen {m k : Nat} (few : m ≤ 10 ^ 17) (near : k < 309)
    (inside : m * 10 ^ k ≤ largest.magnitude.1) (digits : ofNat? m = some x) :
    ((powerOfTen? k).bind x.times?).isSome := by
  have seventeen : ((10 ^ 17 : Nat) : ℚ) ≤ largest.value := ten_le_largest (by decide)
  obtain ⟨y, p, most, power, fits⟩ := productsFit k near
  have bound : m ≤ mostDigits k :=
    le_min few ((Nat.le_div_iff_mul_le (Nat.pow_pos (by decide))).2 inside)
  have capped : ((mostDigits k : Nat) : ℚ) ≤ largest.value :=
    le_trans (by exact_mod_cast min_le_left _ _) seventeen
  have lower := ofNat?_mono bound capped digits most
  have below : y.abs.value * p.abs.value ≤ largest.value := by
    rw [← magnitude_eq, ← magnitude_eq, ← mul_div_mul_comm, largest_whole, ← Nat.cast_mul,
      ← Nat.cast_mul, div_le_iff₀
        (Nat.cast_pos.2 (Nat.mul_pos y.magnitude_pos p.magnitude_pos)), ← Nat.cast_mul]
    exact Nat.cast_le.2 fits
  rw [power]
  refine times?_isSome (le_trans (mul_le_mul_of_nonneg_right ?_ p.value_abs_nonneg) below)
  rwa [(ofNat?_isNearest (le_trans (by exact_mod_cast few) seventeen) digits).2,
    (ofNat?_isNearest capped most).2]

/-- Up to seventeen digits with their point moved, of a decimal that is not past the
largest value, are read as a value. -/
theorem shift?_isSome {m : Nat} {k : Int} (few : m ≤ 10 ^ 17)
    (inside : (m : ℚ) * 10 ^ k ≤ largest.value) (digits : ofNat? m = some x) :
    (x.shift? k).isSome := by
  rw [shift?]
  split
  · rfl
  rename_i nonzero
  have positive : 1 ≤ m := by
    rw [Nat.one_le_iff_ne_zero]
    rintro rfl
    obtain rfl : Binary.zero false = x := Option.some.inj digits
    exact nonzero rfl
  have product {j : Nat} (whole : k = j) : m * 10 ^ j ≤ largest.magnitude.1 := by
    rw [largest_whole, whole, zpow_natCast] at inside
    exact_mod_cast inside
  split
  · rename_i far
    obtain ⟨j, whole⟩ := Int.eq_ofNat_of_zero_le (show 0 ≤ k by omega)
    have power := pow_le_pow_right₀ (show 1 ≤ 10 by decide) (show 309 ≤ j by omega)
    have past := (Decimal.digitCount_spec (show largest.magnitude.1 ≠ 0 by decide +kernel)).2
    rw [digitCount_largest] at past
    have least : 10 ^ j ≤ m * 10 ^ j := Nat.le_mul_of_pos_left _ positive
    exact absurd ((power.trans least).trans (product whole)) (not_le.2 past)
  split
  · rename_i near whole
    obtain ⟨j, rfl⟩ := Int.eq_ofNat_of_zero_le whole
    exact times?_powerOfTen few (by omega) (product rfl) digits
  · obtain ⟨y, shrunk⟩ := Option.isSome_iff_exists.1
      (shrink?_isSome (((-k).toNat - 1) / 308) x)
    dsimp only
    rw [shrunk]
    exact y.over?_powerOfTen (by omega)

end Binary

/-! ## Numerals -/

namespace Numeral

/-- All digits count while 64 bits hold their number. -/
theorem take64_eq {ds : List Char} {s : Nat}
    (fits : s * 10 ^ ds.length + digitsValue ds < 18446744073709551616) :
    take64 s ds = (s * 10 ^ ds.length + digitsValue ds, []) := by
  induction ds generalizing s with
  | nil => simp [take64, digitsValue]
  | cons c ds ih =>
    have front : (10 * s + (c.toNat - 48)) * 10 ^ ds.length + digitsValue ds =
        s * 10 ^ (c :: ds).length + digitsValue (c :: ds) := by
      rw [← foldl_digits, ← foldl_digits]
      rfl
    have least : 10 * s + (c.toNat - 48) ≤ (10 * s + (c.toNat - 48)) * 10 ^ ds.length :=
      Nat.le_mul_of_pos_right _ (by positivity)
    rw [take64, if_pos (by omega), ih (by omega), front]

theorem counted_eq {n : Numeral}
    (fits : digitsValue (n.whole ++ n.fraction) < 18446744073709551616) :
    n.counted = (digitsValue (n.whole ++ n.fraction), n.exponent - n.fraction.length) := by
  have least : digitsValue n.whole ≤ digitsValue n.whole * 10 ^ n.fraction.length :=
    Nat.le_mul_of_pos_right _ (by positivity)
  rw [digitsValue_append] at fits ⊢
  rw [counted, take64_eq (by rw [zero_mul, zero_add]; omega)]
  dsimp only
  rw [zero_mul, zero_add, take64_eq fits]
  simp

/-- A numeral of up to seventeen digits that is not past the largest value is read. -/
theorem read?_isSome {n : Numeral} (negative : Bool)
    (few : digitsValue (n.whole ++ n.fraction) ≤ 10 ^ 17)
    (inside : n.value ≤ Binary.largest.value) : (n.read? negative).isSome := by
  have bound : ((digitsValue (n.whole ++ n.fraction) : Nat) : ℚ) ≤ Binary.largest.value :=
    le_trans (by exact_mod_cast few) (@Binary.ten_le_largest 17 (by decide))
  obtain ⟨x, digits, -⟩ := Binary.ofNat?_spec bound
  obtain ⟨y, moved⟩ := Option.isSome_iff_exists.1 (Binary.shift?_isSome few inside digits)
  simp [read?, counted_eq (few.trans_lt (by decide)), digits, moved]

end Numeral

/-! ## Texts -/

namespace Binary

variable {x : Binary}

theorem shortest_abs (x : Binary) : x.abs.shortest = x.shortest := by
  simp only [shortest, interval, abs]
  rfl

/-- Only the largest value has a magnitude that is not before it. -/
theorem abs_eq_largest (top : largest.value ≤ x.abs.value) : x.abs = largest := by
  have few := x.significand_lt
  have near := x.exponent_le
  have place : x.exponent = 971 := by
    by_contra other
    have below := x.abs.value_lt_of_exponent_lt (show x.exponent < 971 by omega)
    rw [value_of_nonneg (x := largest) rfl] at top
    have least : ((9007199254740991 : Nat) : ℚ) * 2 ^ (971 : Int) ≤ x.abs.value := top
    have unit : (0 : ℚ) < 2 ^ (971 : Int) := by positivity
    generalize (2 : ℚ) ^ (971 : Int) = power at below least unit
    push_cast at least
    linarith
  have digits : x.significand = largest.significand := by
    rw [value_of_nonneg (x := largest) rfl, value_abs, place] at top
    have least := le_of_mul_le_mul_right top (by positivity)
    exact le_antisymm (Nat.le_of_lt_succ few) (by exact_mod_cast least)
  cases x
  simp_all [abs, largest]

/-- The shortest decimal of a value is not past the largest value, although that of the
largest one could be. -/
theorem shortest_le_largest (x : Binary) : x.shortest.value ≤ largest.value := by
  by_cases zero : x.significand = 0
  · rw [shortest, if_pos zero, Decimal.value, Nat.cast_zero, zero_mul]
    exact largest.value_abs_nonneg
  by_contra! past
  have same := abs_eq_largest ((shortest_isNearest zero).ge past.le)
  have decimal : 0 ≤ largest.shortest.exponent ∧
      largest.shortest.digits * Nat.pow 10 largest.shortest.exponent.toNat ≤
        largest.magnitude.1 := by
    decide +kernel
  rw [← shortest_abs, same, largest_whole] at past
  obtain ⟨whole, inside⟩ := decimal
  generalize largest.magnitude.1 = top at past inside
  generalize largest.shortest = d at past whole inside
  rw [Decimal.value, ← Int.toNat_of_nonneg whole, zpow_natCast] at past
  have beyond : top < d.digits * 10 ^ d.exponent.toNat := by exact_mod_cast past
  exact absurd inside (not_le.2 beyond)

end Binary

namespace Document

theorem not_isIntegral {spelling : List Char} (mark : '.' ∈ spelling ∨ 'e' ∈ spelling) :
    isIntegral spelling = false := by
  rw [isIntegral, List.all_eq_false]
  rcases mark with point | exponent
  · exact ⟨'.', point, by decide⟩
  · exact ⟨'e', exponent, by decide⟩

/-- The text of a float is read as a float. -/
theorem readNumber_jsonText (x : Binary) :
    ∃ y, readNumber x.jsonText.toList = some (.float y) := by
  by_cases zero : x.significand = 0
  · rw [Binary.jsonText_zero zero]
    cases x.negative with
    | false => exact ⟨.zero false, rfl⟩
    | true => exact ⟨.zero true, rfl⟩
  obtain ⟨some_digits, few, near⟩ := Binary.shortest_bounds zero
  obtain ⟨body, written, spells⟩ := spells_render x.negative some_digits few near
  rw [← Binary.jsonText] at written
  have marked : '.' ∈ x.jsonText.toList ∨ 'e' ∈ x.jsonText.toList := by
    have inBody {c : Char} (present : c ∈ body) : c ∈ x.jsonText.toList := by
      rw [written]
      split
      · exact List.mem_cons_of_mem _ present
      · exact present
    exact spells.mark.imp inBody inBody
  have inside : (Numeral.scan body).value ≤ Binary.largest.value := by
    rw [spells.value]
    exact x.shortest_le_largest
  obtain ⟨y, read⟩ := Option.isSome_iff_exists.1
    (Numeral.read?_isSome x.negative spells.few inside)
  have float : spelledFloat x.jsonText.toList = some y := by
    rw [spelledFloat, written, Numeral.sign_signed _ spells.digit]
    exact read
  refine ⟨y, ?_⟩
  rw [readNumber, if_neg (by simp [not_isIntegral marked]), float]
  rfl

/-- The text of an integer is an integral spelling, and stands for the integer. -/
theorem spelled_toString (n : Int) : isIntegral (toString n).toList ∧
    (toString n).toList ≠ ['-', '0'] ∧ spelledInt (toString n).toList = n := by
  have digits (m : Nat) : ∀ c ∈ Nat.toDigits 10 m, c.isDigit := fun _ => isDigit_of_mem_toDigits
  cases n with
  | ofNat m =>
    rw [show (toString (Int.ofNat m)).toList = Nat.toDigits 10 m from Nat.toList_repr]
    obtain ⟨c, first, digit⟩ := head_toDigits m []
    obtain ⟨cs, listed⟩ := List.head?_eq_some_iff.1 first
    rw [List.append_nil] at listed
    have unsigned := Numeral.sign_of_digit digit cs
    have value := digitsValue_toDigits m
    have all := digits m
    rw [listed] at value all ⊢
    refine ⟨?_, ?_, ?_⟩
    · rw [isIntegral, List.all_eq_true]
      exact fun c present => by simp [all c present]
    · rintro minus
      obtain ⟨rfl, -⟩ := List.cons.inj minus
      exact absurd digit (by decide)
    · rw [spelledInt, unsigned]
      simpa using value
  | negSucc m =>
    have written : (toString (Int.negSucc m)).toList = '-' :: Nat.toDigits 10 (m + 1) := by
      show ("-" ++ (m + 1).repr).toList = _
      rw [String.toList_append, Nat.toList_repr]
      rfl
    have value := digitsValue_toDigits (m + 1)
    rw [written]
    refine ⟨?_, ?_, ?_⟩
    · rw [isIntegral, List.all_cons, List.all_eq_true.2 fun c present => by
        simp [digits _ c present]]
      rfl
    · rintro zero
      rw [(List.cons.inj zero).2] at value
      exact absurd value (by simp [digitsValue])
    · rw [spelledInt, Numeral.sign]
      dsimp only
      rw [if_pos rfl, value]
      rfl

/-- The text of an integer is read as the integer. -/
theorem readNumber_toString {n : Int}
    (inRange : -9223372036854775808 ≤ n ∧ n ≤ 18446744073709551615) :
    readNumber (toString n).toList = some (.int n inRange) := by
  obtain ⟨integral, notZero, value⟩ := spelled_toString n
  rw [readNumber, if_pos ⟨integral, notZero⟩, value, Number.ofInt?, dif_pos inRange]
  rfl

end Document

/-- Every number can be read back: integers as themselves, and floats as floats. -/
theorem Number.reread?_isSome (n : Number) : n.reread?.isSome := by
  cases n with
  | int n inRange => exact Option.isSome_iff_exists.2 ⟨_, Document.readNumber_toString inRange⟩
  | float x =>
    obtain ⟨y, read⟩ := Document.readNumber_jsonText x
    exact Option.isSome_iff_exists.2 ⟨_, read⟩

/-- The number that a number is read back as. -/
def Number.reread (n : Number) : Number := n.reread?.get n.reread?_isSome

theorem Number.reread?_eq (n : Number) : n.reread? = some n.reread := (Option.some_get _).symm

theorem Number.reread_eq {n m : Number} (read : n.reread? = some m) : n.reread = m :=
  Option.some.inj (n.reread?_eq.symm.trans read)

/-- A float comes back as a float. -/
theorem Number.exists_reread_float (x : Binary) : ∃ y, (Number.float x).reread = .float y := by
  obtain ⟨y, read⟩ := Document.readNumber_jsonText x
  exact ⟨y, reread_eq read⟩

@[simp]
theorem Number.reread_int {n : Int}
    (inRange : -9223372036854775808 ≤ n ∧ n ≤ 18446744073709551615) :
    (Number.int n inRange).reread = .int n inRange :=
  reread_eq (Document.readNumber_toString inRange)

/-- The float `1.9e+24`. -/
def Binary.roundFloat : Binary :=
  ⟨false, 7078051567077637, 28, by decide, by decide, by decide, by decide⟩

/-- The float before it, `1.8999999999999998e+24`. -/
def Binary.beforeRound : Binary :=
  ⟨false, 7078051567077636, 28, by decide, by decide, by decide, by decide⟩

/-- The digits `19` are multiplied with a power of ten that was rounded down. -/
theorem Number.reread_roundFloat :
    (Number.float .roundFloat).reread = .float .beforeRound := by
  refine reread_eq ?_
  rw [reread?, text, Binary.jsonText, Layout.render, String.toList_ofList]
  decide +kernel

end Chronicle
