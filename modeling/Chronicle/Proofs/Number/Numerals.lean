import Chronicle.Number.Layout
import Chronicle.Proofs.Number.Precision
import Mathlib.Data.List.TakeWhile

/-!
# Reading numerals

A query reads a numeral from its first digits, as many as 64 bits hold, and moves the
point in extended precision. Where all digits count, the real that is read is the one
that the number goes to after 44 roundings at most (`Numeral.scaled_rounds`). The digits
of an integer of 64 bits without sign are read as the value that the integer itself
goes to (`leadingReal_toDigits`), and the text of a decimal as the decimal
(`leadingReal_render`).
-/

namespace Chronicle

/-- The number that is written. -/
def Decimal.value (d : Decimal) : ℚ := d.digits * 10 ^ d.exponent

/-! ## Digits -/

theorem foldl_digits (s : Nat) (ds : List Char) :
    ds.foldl (fun n c => 10 * n + (c.toNat - 48)) s = s * 10 ^ ds.length + digitsValue ds := by
  induction ds generalizing s with
  | nil => simp [digitsValue]
  | cons c ds ih =>
    rw [digitsValue, List.foldl_cons, List.foldl_cons, ih, ih (10 * 0 + _), List.length_cons,
      pow_succ]
    ring

theorem digitsValue_append (as bs : List Char) :
    digitsValue (as ++ bs) = digitsValue as * 10 ^ bs.length + digitsValue bs := by
  rw [digitsValue, List.foldl_append, foldl_digits]
  rfl

theorem digitsValue_zeros (n : Nat) : digitsValue (Layout.zeros n) = 0 := by
  induction n with
  | zero => rfl
  | succ n ih =>
    rw [Layout.zeros, List.replicate_succ', digitsValue_append]
    rw [Layout.zeros] at ih
    rw [ih]
    rfl

theorem digitsValue_toDigits (m : Nat) : digitsValue (Nat.toDigits 10 m) = m := by
  have digit : ∀ n < 10, digitsValue [Nat.digitChar n] = n := by decide
  induction m using Nat.strongRecOn with
  | ind m ih =>
    rcases Nat.lt_or_ge m 10 with small | large
    · rw [Nat.toDigits_of_lt_base small, digit m small]
    · rw [Nat.toDigits_of_base_le (by decide) large, digitsValue_append,
        ih (m / 10) (Nat.div_lt_self (by omega) (by decide)), digit _ (Nat.mod_lt _ (by decide))]
      exact Nat.div_add_mod' m 10

theorem isDigit_of_mem_toDigits {m : Nat} {c : Char} (present : c ∈ Nat.toDigits 10 m) :
    c.isDigit := Nat.isDigit_of_mem_toDigits (by decide) (by decide) present

namespace Numeral

/-- All digits count while 64 bits hold their number. -/
theorem foldl_takeDigit (kept dropped : Int) {ds : List Char} {s : Nat} {place : Int}
    (fits : s * 10 ^ ds.length + digitsValue ds < 18446744073709551600) :
    ds.foldl (takeDigit kept dropped) (s, place) =
      (s * 10 ^ ds.length + digitsValue ds, place + kept * ds.length) := by
  induction ds generalizing s place with
  | nil => simp [digitsValue]
  | cons c ds ih =>
    have front : (10 * s + (c.toNat - 48)) * 10 ^ ds.length + digitsValue ds =
        s * 10 ^ (c :: ds).length + digitsValue (c :: ds) := by
      rw [← foldl_digits, ← foldl_digits]
      rfl
    have least : 10 * s + (c.toNat - 48) ≤ (10 * s + (c.toNat - 48)) * 10 ^ ds.length :=
      Nat.le_mul_of_pos_right _ (by positivity)
    rw [List.foldl_cons, takeDigit, if_pos (by omega), ih (by omega), front, List.length_cons]
    congr 1
    push_cast
    ring

/-- The number that is written, where the exponent is not too long. -/
def value (n : Numeral) : ℚ :=
  digitsValue (n.whole ++ n.fraction) * 10 ^ (n.exponent - n.fraction.length)

theorem significant_eq {n : Numeral}
    (fits : digitsValue (n.whole ++ n.fraction) < 18446744073709551600) :
    n.significant = (digitsValue (n.whole ++ n.fraction), -(n.fraction.length : Int)) := by
  have least : digitsValue n.whole ≤ digitsValue n.whole * 10 ^ n.fraction.length :=
    Nat.le_mul_of_pos_right _ (by positivity)
  rw [digitsValue_append] at fits ⊢
  rw [significant, foldl_takeDigit 0 1 (by rw [zero_mul, zero_add]; omega), zero_mul, zero_add,
    foldl_takeDigit (-1) 0 fits]
  congr 1
  ring

/-! ## Scaling -/

theorem addZeros_spec (s k : Nat) :
    (addZeros s k).1 * 10 ^ (addZeros s k).2 = s * 10 ^ k ∧ (addZeros s k).2 ≤ k := by
  induction k generalizing s with
  | zero => exact ⟨rfl, le_rfl⟩
  | succ k ih =>
    rw [addZeros]
    split
    · obtain ⟨same, fewer⟩ := ih (10 * s)
      refine ⟨same.trans ?_, fewer.trans (Nat.le_succ k)⟩
      rw [pow_succ]
      ring
    · exact ⟨rfl, le_rfl⟩

theorem dropZeros_spec (s k : Nat) :
    (dropZeros s k).1 * 10 ^ k = s * 10 ^ (dropZeros s k).2 ∧ (dropZeros s k).2 ≤ k := by
  induction k generalizing s with
  | zero => exact ⟨rfl, le_rfl⟩
  | succ k ih =>
    rw [dropZeros]
    split
    · rename_i zero
      obtain ⟨same, fewer⟩ := ih (s / 10)
      refine ⟨?_, fewer.trans (Nat.le_succ k)⟩
      have whole : s / 10 * 10 = s := Nat.div_mul_cancel (Nat.dvd_of_mod_eq_zero zero)
      rw [pow_succ, ← mul_assoc, same, mul_right_comm, whole]
    · exact ⟨rfl, le_rfl⟩

/-- Settling keeps the number, and brings the exponent no farther from zero. -/
theorem settle_spec (s : Nat) (e : Int) :
    ((settle s e).1 : ℚ) * 10 ^ (settle s e).2 = s * 10 ^ e ∧
      (settle s e).2.natAbs ≤ e.natAbs := by
  unfold settle
  split
  · rename_i nonneg
    obtain ⟨same, fewer⟩ := addZeros_spec s e.toNat
    refine ⟨?_, by dsimp only; omega⟩
    have whole : (s : ℚ) * 10 ^ e = s * 10 ^ e.toNat := by
      rw [← zpow_natCast, Int.toNat_of_nonneg nonneg]
    rw [whole, zpow_natCast]
    exact_mod_cast same
  · obtain ⟨j, rfl⟩ : ∃ j : Nat, e = -(j : Int) := ⟨(-e).toNat, by omega⟩
    rw [neg_neg, Int.toNat_natCast]
    obtain ⟨same, fewer⟩ := dropZeros_spec s j
    refine ⟨?_, by dsimp only; omega⟩
    dsimp only
    rw [zpow_neg, zpow_neg, zpow_natCast, zpow_natCast, ← div_eq_mul_inv, ← div_eq_mul_inv,
      div_eq_div_iff (by positivity) (by positivity)]
    exact_mod_cast same

/-- A numeral is read as the real that its number goes to after 44 roundings at most. -/
theorem scaled_rounds (n : Numeral) (negative : Bool)
    (fits : digitsValue (n.whole ++ n.fraction) < 18446744073709551600)
    (few : n.exponent.natAbs < 100000) (near : (n.exponent - n.fraction.length).natAbs < 500) :
    ∃ q, Within 44 q n.value ∧ (n.scaled negative).Rounds (side negative * q) := by
  have nonneg : 0 ≤ n.value := by
    unfold value
    positivity
  have bounded : n.boundedExponent = n.exponent := if_pos few
  unfold scaled
  rw [significant_eq fits]
  dsimp only
  split
  · rename_i zero
    refine ⟨0, ?_, ?_⟩
    · rw [value, zero, Nat.cast_zero, zero_mul]
      exact (Within.refl 0).mono le_rfl (by decide)
    · have rounds := Double.nearest_rounds negative 0 one_ne_zero
      rwa [Nat.cast_zero, zero_div] at rounds
  · obtain ⟨same, nearer⟩ := settle_spec (digitsValue (n.whole ++ n.fraction))
      (n.boundedExponent + -(n.fraction.length : Int))
    rw [bounded, ← sub_eq_add_neg] at same nearer ⊢
    generalize settle _ _ = settled at same nearer ⊢
    obtain ⟨s, e⟩ := settled
    dsimp only at same nearer ⊢
    have written : (s : ℚ) * 10 ^ e = n.value := same
    split
    · rename_i whole
      rw [whole, zpow_zero, mul_one] at written
      refine ⟨n.value, (Within.refl _).mono nonneg (by decide), ?_⟩
      have rounds := Double.nearest_rounds negative s one_ne_zero
      rwa [Nat.cast_one, div_one, written] at rounds
    · have whole : (Extended.mk s 0).value = s := by
        rw [Extended.value, zpow_zero, mul_one]
      have within := @Extended.scale_within ⟨s, 0⟩ e (by omega)
      rw [whole, written] at within
      exact ⟨_, within, Extended.toDouble_rounds _ negative⟩

/-! ## Scanning -/

/-- Digits at the front of a text are no sign. -/
theorem sign_of_digit {c : Char} (digit : c.isDigit) (cs : List Char) :
    sign (c :: cs) = (false, c :: cs) := by
  have range : 48 ≤ c.toNat ∧ c.toNat ≤ 57 := by
    simpa [Char.isDigit, UInt32.le_iff_toNat_le] using digit
  unfold sign
  split
  · rename_i minus
    obtain ⟨rfl, -⟩ := List.cons.inj minus
    exact absurd range.1 (by decide)
  · rename_i plus
    obtain ⟨rfl, -⟩ := List.cons.inj plus
    exact absurd range.1 (by decide)
  · rfl

/-- A text that begins with a digit has the sign that is put before it. -/
theorem sign_signed (negative : Bool) {body : List Char}
    (digit : ∃ c ∈ body.head?, c.isDigit) :
    sign (if negative then '-' :: body else body) = (negative, body) := by
  cases negative with
  | true => rfl
  | false =>
    obtain ⟨c, first, isDigit⟩ := digit
    obtain ⟨cs, rfl⟩ := List.head?_eq_some_iff.1 first
    exact sign_of_digit isDigit cs

/-- Digits at the front of a text are neither white space nor a sign. -/
theorem leadingReal_of_digit {c : Char} (digit : c.isDigit) (cs : List Char) :
    leadingReal (c :: cs) = (scan (c :: cs)).scaled false := by
  have range : 48 ≤ c.toNat ∧ c.toNat ≤ 57 := by
    simpa [Char.isDigit, UInt32.le_iff_toNat_le] using digit
  have notBlank : isCastBlank c = false := by
    have notSpace : c ≠ ' ' := by
      rintro rfl
      exact absurd range.1 (by decide)
    simp [isCastBlank, notSpace]
    omega
  rw [leadingReal, List.dropWhile_cons_of_neg (by simp [notBlank]), sign_of_digit digit]

/-- A text that begins with a digit is read with or without a minus before it. -/
theorem leadingReal_signed (negative : Bool) {body : List Char}
    (digit : ∃ c ∈ body.head?, c.isDigit) :
    leadingReal (if negative then '-' :: body else body) = (scan body).scaled negative := by
  cases negative with
  | true => rfl
  | false =>
    obtain ⟨c, first, isDigit⟩ := digit
    obtain ⟨cs, rfl⟩ := List.head?_eq_some_iff.1 first
    exact leadingReal_of_digit isDigit cs

section Scan

variable {whole fraction : List Char}

theorem takeWhile_digits (digits : ∀ c ∈ whole, c.isDigit) (rest : List Char)
    (stops : ∀ c ∈ rest.head?, ¬ c.isDigit) :
    (whole ++ rest).takeWhile Char.isDigit = whole ∧
      (whole ++ rest).dropWhile Char.isDigit = rest := by
  rw [List.takeWhile_append_of_pos digits, List.dropWhile_append_of_pos digits]
  cases rest with
  | nil => simp
  | cons c cs =>
    have stop : ¬ c.isDigit := stops c rfl
    simp [stop]

/-- Digits alone are a numeral without fraction and exponent. -/
theorem scan_digits (digits : ∀ c ∈ whole, c.isDigit) : scan whole = ⟨whole, [], 0, []⟩ := by
  obtain ⟨taken, dropped⟩ := takeWhile_digits digits [] (by simp)
  rw [List.append_nil] at taken dropped
  simp [scan, taken, dropped, exponentPart]

/-- Digits with a point among them are a numeral without exponent. -/
theorem scan_positional (digits : ∀ c ∈ whole, c.isDigit) (digits' : ∀ c ∈ fraction, c.isDigit) :
    scan (whole ++ '.' :: fraction) = ⟨whole, fraction, 0, []⟩ := by
  obtain ⟨taken, dropped⟩ := takeWhile_digits digits ('.' :: fraction) (by simp)
  have taken' : fraction.takeWhile Char.isDigit = fraction := List.takeWhile_eq_self_iff.2 digits'
  have dropped' : fraction.dropWhile Char.isDigit = [] := List.dropWhile_eq_nil_iff.2 digits'
  simp [scan, taken, dropped, taken', dropped', exponentPart]

/-- The exponent of a text is read as it was written. -/
theorem exponentPart_exponentText (e : Int) :
    exponentPart ('e' :: Layout.json.exponentText e) = some (e, []) := by
  have nonempty : Nat.toDigits 10 e.natAbs ≠ [] := Nat.toDigits_ne_nil
  obtain ⟨c, cs, listed⟩ := List.exists_cons_of_ne_nil nonempty
  have digits : ∀ c ∈ Nat.toDigits 10 e.natAbs, c.isDigit := fun _ => isDigit_of_mem_toDigits
  have some_digits : Layout.json.exponentDigits - (Nat.toDigits 10 e.natAbs).length = 0 := by
    rw [listed]
    simp [Layout.json]
  have taken : (Nat.toDigits 10 e.natAbs).takeWhile Char.isDigit = Nat.toDigits 10 e.natAbs :=
    List.takeWhile_eq_self_iff.2 digits
  have dropped : (Nat.toDigits 10 e.natAbs).dropWhile Char.isDigit = [] :=
    List.dropWhile_eq_nil_iff.2 digits
  have value := digitsValue_toDigits e.natAbs
  rw [Layout.exponentText]
  rw [some_digits, Layout.zeros, List.replicate_zero]
  rw [listed] at taken dropped value ⊢
  rcases lt_or_ge e 0 with below | above
  · rw [if_pos below]
    simp [exponentPart, sign, taken, dropped, value, abs_of_neg below]
  · rw [if_neg (not_lt.2 above)]
    simp [exponentPart, sign, taken, dropped, value, abs_of_nonneg above]

theorem scan_scientific (digits : ∀ c ∈ whole, c.isDigit) (e : Int) :
    scan (Layout.json.scientific whole e) = ⟨whole.take 1, whole.drop 1, e, []⟩ := by
  have exponent := exponentPart_exponentText e
  have first : ∀ c ∈ whole.take 1, c.isDigit :=
    fun c present => digits c (List.mem_of_mem_take present)
  have others : ∀ c ∈ whole.drop 1, c.isDigit :=
    fun c present => digits c (List.mem_of_mem_drop present)
  have mark : ∀ c ∈ ('e' :: Layout.json.exponentText e).head?, ¬ c.isDigit := by simp
  rw [Layout.scientific]
  cases rest : whole.drop 1 with
  | nil =>
    obtain ⟨taken, dropped⟩ := takeWhile_digits first _ mark
    simp [Layout.json] at taken dropped exponent ⊢
    simp [scan, taken, dropped, exponent]
  | cons c cs =>
    rw [rest] at others
    obtain ⟨taken, dropped⟩ := takeWhile_digits first
      ('.' :: (c :: cs ++ 'e' :: Layout.json.exponentText e)) (by simp)
    obtain ⟨taken', dropped'⟩ := takeWhile_digits others _ mark
    simp only [List.append_assoc, List.cons_append] at taken dropped taken' dropped' ⊢
    simp [scan, taken, dropped, taken', dropped', exponent]

end Scan

end Numeral

open Numeral

/-! ## Texts of numbers -/

/-- The text begins with a digit, has a point or an exponent, and is scanned as a numeral
of the decimal's number that has neither too many digits nor too many places. -/
structure Spells (body : List Char) (d : Decimal) : Prop where
  digit : ∃ c ∈ body.head?, c.isDigit
  mark : '.' ∈ body ∨ 'e' ∈ body
  value : (scan body).value = d.value
  few : digitsValue ((scan body).whole ++ (scan body).fraction) ≤ 10 ^ 17
  exponent : (scan body).exponent.natAbs < 100000
  places : ((scan body).exponent - (scan body).fraction.length).natAbs < 500

theorem Spells.of_scan {body whole fraction rest : List Char} {d : Decimal} {s : Nat} {e : Int}
    (digit : ∃ c ∈ body.head?, c.isDigit) (mark : '.' ∈ body ∨ 'e' ∈ body)
    (scanned : scan body = ⟨whole, fraction, e, rest⟩)
    (counted : digitsValue (whole ++ fraction) = s)
    (same : s * 10 ^ (e - fraction.length) = d.value)
    (few : s ≤ 10 ^ 17) (short : e.natAbs < 100000)
    (near : (e - fraction.length).natAbs < 500) : Spells body d where
  digit := digit
  mark := mark
  value := by rw [scanned, Numeral.value, counted, same]
  few := by rw [scanned, counted]; exact few
  exponent := by rw [scanned]; exact short
  places := by rw [scanned]; exact near

theorem isDigit_of_mem_zeros {n : Nat} {c : Char} (present : c ∈ Layout.zeros n) : c.isDigit := by
  rw [List.eq_of_mem_replicate present]
  rfl

section Spells

variable {m : Nat} {e : Int}

theorem head_toDigits (m : Nat) (rest : List Char) :
    ∃ c ∈ (Nat.toDigits 10 m ++ rest).head?, c.isDigit := by
  cases listed : Nat.toDigits 10 m with
  | nil => exact absurd listed Nat.toDigits_ne_nil
  | cons c cs => exact ⟨c, rfl, isDigit_of_mem_toDigits (listed ▸ List.mem_cons_self)⟩

/-- With an exponent, the first digit stands before the point and the others after it. -/
theorem spells_scientific (few : m ≤ 10 ^ 17) (near : e.natAbs < 400) :
    Spells (Layout.json.scientific (Nat.toDigits 10 m)
      (e + (Nat.toDigits 10 m).length - 1)) ⟨m, e⟩ := by
  have short : (Nat.toDigits 10 m).length ≤ 18 :=
    (Nat.length_toDigits_le_iff (by decide) (by decide)).2 (by omega)
  have some_digits : 0 < (Nat.toDigits 10 m).length := Nat.length_toDigits_pos
  have whole : digitsValue ((Nat.toDigits 10 m).take 1 ++ (Nat.toDigits 10 m).drop 1) = m := by
    rw [List.take_append_drop, digitsValue_toDigits]
  have first : ∃ c ∈ (Layout.json.scientific (Nat.toDigits 10 m)
      (e + (Nat.toDigits 10 m).length - 1)).head?, c.isDigit := by
    obtain ⟨c, present, digit⟩ := head_toDigits m []
    obtain ⟨cs, listed⟩ := List.head?_eq_some_iff.1 present
    rw [List.append_nil] at listed
    rw [Layout.scientific, listed]
    exact ⟨c, rfl, digit⟩
  have places : (e + (Nat.toDigits 10 m).length - 1 - ((Nat.toDigits 10 m).drop 1).length : Int) =
      e := by
    rw [List.length_drop]
    omega
  refine .of_scan first (.inr (by simp [Layout.scientific]))
    (scan_scientific (fun _ => isDigit_of_mem_toDigits) _) whole ?_
    (by omega) (by omega) (by omega)
  rw [places, Decimal.value]

/-- Zeros after the digits, and one after the point. -/
theorem spells_whole {k : Nat} (small : k + (Nat.toDigits 10 m).length ≤ 16) :
    Spells (Nat.toDigits 10 m ++ Layout.zeros k ++ ['.', '0']) ⟨m, k⟩ := by
  have front : ∀ c ∈ Nat.toDigits 10 m ++ Layout.zeros k, c.isDigit := by
    intro c present
    rcases List.mem_append.1 present with given | zero
    · exact isDigit_of_mem_toDigits given
    · exact isDigit_of_mem_zeros zero
  have counted : digitsValue (Nat.toDigits 10 m ++ Layout.zeros k ++ ['0']) =
      m * 10 ^ (k + 1) := by
    rw [digitsValue_append, digitsValue_append, digitsValue_toDigits, digitsValue_zeros,
      Layout.zeros, List.length_replicate, add_zero, pow_succ, mul_assoc]
    rfl
  have bound : m * 10 ^ (k + 1) < 10 ^ 17 := by
    have long : m < 10 ^ (Nat.toDigits 10 m).length :=
      (Nat.length_toDigits_le_iff (by decide) Nat.length_toDigits_pos).1 le_rfl
    calc m * 10 ^ (k + 1) < 10 ^ (Nat.toDigits 10 m).length * 10 ^ (k + 1) :=
          Nat.mul_lt_mul_of_pos_right long (by positivity)
      _ = 10 ^ ((Nat.toDigits 10 m).length + (k + 1)) := (pow_add _ _ _).symm
      _ ≤ 10 ^ 17 := Nat.pow_le_pow_right (by decide) (by omega)
  refine .of_scan ?_ (.inl (by simp)) (scan_positional front (by simp)) counted ?_ (by omega)
    (by decide) (by decide)
  · rw [List.append_assoc]
    exact head_toDigits m _
  · rw [Decimal.value, List.length_singleton]
    push_cast
    rw [zpow_natCast, pow_succ, ← mul_assoc, mul_assoc _ (10 : ℚ)]
    norm_num

/-- The point stands among the digits. -/
theorem spells_inside {k : Nat} (few : m ≤ 10 ^ 17) (inside : k < (Nat.toDigits 10 m).length) :
    Spells ((Nat.toDigits 10 m).take ((Nat.toDigits 10 m).length - k) ++
      '.' :: (Nat.toDigits 10 m).drop ((Nat.toDigits 10 m).length - k)) ⟨m, -(k : Int)⟩ := by
  have front : ∀ c ∈ (Nat.toDigits 10 m).take ((Nat.toDigits 10 m).length - k), c.isDigit :=
    fun c present => isDigit_of_mem_toDigits (List.mem_of_mem_take present)
  have back : ∀ c ∈ (Nat.toDigits 10 m).drop ((Nat.toDigits 10 m).length - k), c.isDigit :=
    fun c present => isDigit_of_mem_toDigits (List.mem_of_mem_drop present)
  have short : (Nat.toDigits 10 m).length ≤ 18 :=
    (Nat.length_toDigits_le_iff (by decide) (by decide)).2 (by omega)
  have places : (0 - ((Nat.toDigits 10 m).drop ((Nat.toDigits 10 m).length - k)).length : Int) =
      -k := by
    rw [List.length_drop]
    omega
  refine .of_scan ?_ (.inl (by simp)) (scan_positional front back) (s := m) ?_ ?_ (by omega)
    (by decide) (by omega)
  · obtain ⟨c, present, digit⟩ := head_toDigits m []
    obtain ⟨cs, listed⟩ := List.head?_eq_some_iff.1 present
    obtain ⟨n, some_left⟩ : ∃ n, (Nat.toDigits 10 m).length - k = n + 1 :=
      ⟨(Nat.toDigits 10 m).length - k - 1, by omega⟩
    rw [List.append_nil] at listed
    rw [some_left, listed]
    exact ⟨c, rfl, digit⟩
  · rw [List.take_append_drop, digitsValue_toDigits]
  · rw [places, Decimal.value]

/-- Zeros stand between the point and the digits. -/
theorem spells_outside {k : Nat} (few : m ≤ 10 ^ 17) (near : k < 400)
    (outside : (Nat.toDigits 10 m).length ≤ k) :
    Spells ('0' :: '.' :: (Layout.zeros (k - (Nat.toDigits 10 m).length) ++ Nat.toDigits 10 m))
      ⟨m, -(k : Int)⟩ := by
  have back : ∀ c ∈ Layout.zeros (k - (Nat.toDigits 10 m).length) ++ Nat.toDigits 10 m,
      c.isDigit := by
    intro c present
    rcases List.mem_append.1 present with zero | given
    · exact isDigit_of_mem_zeros zero
    · exact isDigit_of_mem_toDigits given
  have places : (0 - (Layout.zeros (k - (Nat.toDigits 10 m).length) ++
      Nat.toDigits 10 m).length : Int) = -k := by
    rw [List.length_append, Layout.zeros, List.length_replicate]
    omega
  have scanned := @scan_positional ['0'] _ (by simp) back
  refine .of_scan ⟨'0', rfl, rfl⟩ (.inl (by simp)) scanned (s := m) ?_ ?_ (by omega) (by decide)
    (by omega)
  · rw [digitsValue_append, digitsValue_append, digitsValue_toDigits, digitsValue_zeros]
    simp [digitsValue]
  · rw [places, Decimal.value]

/-- Digits around the point, with zeros where it stands outside of them. -/
theorem spells_positional (few : m ≤ 10 ^ 17) (near : e.natAbs < 400)
    (small : e + (Nat.toDigits 10 m).length ≤ 16) :
    Spells (Layout.positional (Nat.toDigits 10 m) e) ⟨m, e⟩ := by
  rw [Layout.positional]
  split
  · rename_i whole
    obtain ⟨k, rfl⟩ := Int.eq_ofNat_of_zero_le whole
    exact spells_whole (by omega)
  · obtain ⟨k, rfl⟩ : ∃ k : Nat, e = -(k : Int) := ⟨(-e).toNat, by omega⟩
    rw [neg_neg, Int.toNat_natCast]
    dsimp only
    split
    · rename_i inside
      exact spells_inside few inside
    · rename_i outside
      exact spells_outside few (by omega) (not_lt.1 outside)

end Spells

/-- The text of a decimal spells it, after a minus if it is negative. -/
theorem spells_render (negative : Bool) {d : Decimal} (nonzero : d.digits ≠ 0)
    (few : d.digits ≤ 10 ^ 17) (near : d.exponent.natAbs < 400) :
    ∃ body, (Layout.json.render negative d).toList = (if negative then '-' :: body else body) ∧
      Spells body d := by
  rw [Layout.render, if_neg nonzero, String.toList_ofList]
  refine ⟨_, rfl, ?_⟩
  split
  · rename_i positional
    simp only [Layout.json] at positional
    exact spells_positional few near (by omega)
  · exact spells_scientific few near

/-- The text of a decimal is read as the real that the decimal goes to after 44
roundings at most. -/
theorem leadingReal_render (negative : Bool) {d : Decimal} (nonzero : d.digits ≠ 0)
    (few : d.digits ≤ 10 ^ 17) (near : d.exponent.natAbs < 400) :
    ∃ q, Within 44 q d.value ∧
      (leadingReal (Layout.json.render negative d).toList).Rounds (side negative * q) := by
  obtain ⟨body, written, spells⟩ := spells_render negative nonzero few near
  rw [written, leadingReal_signed negative spells.digit, ← spells.value]
  exact scaled_rounds _ negative (spells.few.trans_lt (by decide)) spells.exponent spells.places

/-- The digits of an integer of 64 bits are read as the value nearest to it. -/
theorem leadingReal_toDigits {m : Nat} (positive : m ≠ 0) (small : m < 2 ^ 64) :
    leadingReal (Nat.toDigits 10 m) = .nearest false m 1 := by
  have scanned : leadingReal (Nat.toDigits 10 m) =
      scaled ⟨Nat.toDigits 10 m, [], 0, []⟩ false := by
    have digit := head_toDigits m []
    rw [List.append_nil] at digit
    rw [← scan_digits fun _ => isDigit_of_mem_toDigits]
    exact leadingReal_signed false digit
  rw [scanned]
  rcases Nat.lt_or_ge m 18446744073709551600 with fits | last
  · have counted : (Numeral.mk (Nat.toDigits 10 m) [] 0 []).significant = (m, 0) := by
      rw [significant_eq (by simpa [digitsValue_toDigits] using fits)]
      simp [digitsValue_toDigits]
    simp [scaled, counted, positive, boundedExponent, settle, addZeros]
  · -- Sixteen integers are left, in which the last digit does not count.
    have each : ∀ k < 16, scaled ⟨Nat.toDigits 10 (18446744073709551600 + k), [], 0, []⟩ false =
        .nearest false (18446744073709551600 + k) 1 := by decide +kernel
    obtain ⟨k, rfl⟩ := Nat.exists_eq_add_of_le last
    exact each k (by omega)

end Chronicle
