import Chronicle.Proofs.Number.Reading
import Chronicle.Proofs.Query.Conditions

/-!
# Conditions on numbers

A condition compares the number at a field, read as a real, with the operand, and the
comparison is that of two numbers (`Condition.holdsOf_number`): what the number is
read as (`Number.asField`) and what the operand is bound as (`Number.asOperand`). Reading
stays next to the number (`Number.readsAt`), and an operand is itself unless it is an
integer past 64 bits with sign (`Number.bindsAs`). So a comparison of two numbers comes
out as it should where a value lies between them, or where the first is read as itself
(`number_conditions`).
-/

namespace Chronicle

/-! ## Comparisons of numbers -/

/-- The comparison holds of two members of an order. -/
def Comparison.Holds {α : Type} [LinearOrder α] (comparison : Comparison) (a b : α) : Prop :=
  match comparison with
  | eq => a = b
  | neq => a ≠ b
  | gt => b < a
  | gte => b ≤ a
  | lt => a < b
  | lte => a ≤ b

theorem Comparison.accepts_cmp {α : Type} [LinearOrder α] (comparison : Comparison) (a b : α) :
    comparison.accepts (cmp a b) ↔ comparison.Holds a b := by
  rcases lt_trichotomy a b with less | rfl | more
  · rw [(cmp_eq_lt_iff a b).2 less]
    cases comparison <;> simp [accepts, Holds, less, less.le, less.ne, less.not_gt, less.not_ge]
  · rw [cmp_self_eq_eq]
    cases comparison <;> simp [accepts, Holds]
  · rw [(cmp_eq_gt_iff a b).2 more]
    cases comparison <;> simp [accepts, Holds, more, more.le, more.ne', more.not_gt, more.not_ge]

/-- Pairs that are in the same order are in the same relations. -/
theorem Comparison.holds_congr {α β : Type} [LinearOrder α] [LinearOrder β] {a b : α} {c d : β}
    (same : cmp a b = cmp c d) (comparison : Comparison) :
    comparison.Holds a b ↔ comparison.Holds c d := by
  rw [← accepts_cmp, ← accepts_cmp, same]

/-! ## What numbers are read and bound as -/

namespace Number

/-- The number itself. -/
def value : Number → ℚ
  | .int n _ => n
  | .float x => x.value

/-- The real that a condition reads where the number stands: an integer is rounded, a
float is read from its text. -/
def fieldReal : Number → Double
  | .int n _ => .ofInt n
  | .float x => leadingReal x.jsonText.toList

/-- The number as a condition reads it at a field. -/
def asField (x : Number) : Point := x.fieldReal.value

/-- The number as a condition has it as its operand. -/
def asOperand : Number → Point
  | .int n _ => if Cell.isInt64 n then Point.ofRat n else (Double.ofInt n).value
  | .float x => Point.ofRat x.value

theorem natAbs_lt {n : Int} (inRange : -9223372036854775808 ≤ n ∧ n ≤ 18446744073709551615) :
    n.natAbs < 2 ^ 64 := by omega

/-- Past 64 bits with sign there are only large integers. -/
theorem lt_of_not_isInt64 {n : Int}
    (inRange : -9223372036854775808 ≤ n ∧ n ≤ 18446744073709551615)
    (outside : ¬ Cell.isInt64 n) : 9223372036854775807 < n := by
  rw [Cell.isInt64, Bool.and_eq_true, decide_eq_true_eq, decide_eq_true_eq, not_and] at outside
  exact not_le.1 (outside inRange.1)

theorem not_isInt64_of_lt {n : Int} (past : 9223372036854775807 < n) : ¬ Cell.isInt64 n := by
  rw [Cell.isInt64, Bool.and_eq_true, decide_eq_true_eq, decide_eq_true_eq]
  exact fun inside => absurd inside.2 (not_le.2 past)

theorem fieldReal_ne_nan (x : Number) : x.fieldReal ≠ .nan := by
  cases x with
  | int n _ => exact Double.nearest_ne_nan _ _ _
  | float x => exact leadingReal_ne_nan _

/-- What is found where a number stands is read as the number's real, also where an
integer is too large to be found as one. -/
theorem ofJson?_number (x : Number) :
    ∃ cell, Cell.ofJson? (.number x) = some cell ∧ cell.asReal = x.fieldReal := by
  cases x with
  | float x => exact ⟨_, rfl, rfl⟩
  | int n inRange =>
    by_cases inside : Cell.isInt64 n
    · exact ⟨.int n, by rw [Cell.ofJson?, if_pos inside], rfl⟩
    · refine ⟨.real (leadingReal (toString n).toList), by rw [Cell.ofJson?, if_neg inside], ?_⟩
      have large := lt_of_not_isInt64 inRange inside
      obtain ⟨m, rfl⟩ := Int.eq_ofNat_of_zero_le (a := n) (by omega)
      have digits : (toString (m : Int)).toList = Nat.toDigits 10 m := Nat.toList_repr
      have sign : decide ((m : Int) < 0) = false := by simp
      rw [fieldReal, Double.ofInt, sign, Int.natAbs_natCast]
      show leadingReal (toString (m : Int)).toList = _
      rw [digits, leadingReal_toDigits (by omega) (by omega)]

theorem compare_param {r : Double} (number : r ≠ .nan) (n : Number) :
    (Reading.real r).compare (Scalar.number n).param = some (cmp r.value n.asOperand) := by
  cases n with
  | float x => exact Double.compare_eq_finite number x
  | int n inRange =>
    by_cases inside : Cell.isInt64 n
    · rw [Scalar.param, if_pos inside, asOperand, if_pos inside]
      exact Double.compareInt_eq number n
    · obtain ⟨y, rounded, -⟩ := Double.ofInt_isNearest (natAbs_lt inRange)
      rw [Scalar.param, if_neg inside, asOperand, if_neg inside]
      show r.compare (Double.ofInt n) = _
      rw [rounded]
      exact Double.compare_eq_finite number y

end Number

namespace Condition

variable {field : String} {p : Json} {x : Number}

theorem found_number (plain : IsPlain field) (canonical : p.Canonical)
    (present : p.member? field = some (.number x)) :
    ∃ cell, found field p = some cell ∧ cell.asReal = x.fieldReal := by
  have finds : found field p = Cell.ofJson? (.number x) := by
    rw [found, Payload.cell?_of_plain plain canonical (by simp [present]), present]
    rfl
  rw [finds]
  exact Number.ofJson?_number x

/-- A comparison of a number at a field with an operand is one of points. -/
theorem holdsOf_number (plain : IsPlain field) (canonical : p.Canonical)
    (present : p.member? field = some (.number x)) (comparison : Comparison) (n : Number) :
    (compare comparison (.number n)).holdsOf field p ↔
      comparison.Holds x.asField n.asOperand := by
  obtain ⟨cell, finds, real⟩ := found_number plain canonical present
  rw [holdsOf_compare_eq finds, Relation.compares]
  show ((Reading.real cell.asReal).compare _).any comparison.accepts ↔ _
  rw [real, Number.compare_param x.fieldReal_ne_nan]
  exact comparison.accepts_cmp _ _

end Condition

/-- Reading at a field stays next to the number: no value lies between the two. An
integer is read as the value nearest to it, which is the integer itself where it is a
value, and a float that is a decimal of 53 bits is read as itself. -/
structure Number.ReadsAt (x : Number) : Prop where
  adjoins : Adjoins x.value x.asField
  int : ∀ k inRange, x = .int k inRange →
    ∃ r : Binary, x.asField = .ofRat r.value ∧ r.IsNearest k
  whole : ∀ k inRange (y : Binary), x = .int k inRange → y.value = k → x.asField = .ofRat k
  float : ∀ (y : Binary) (c k : Int), x = .float y → y.value = c * 10 ^ k → |c| < 2 ^ 53 →
    x.asField = .ofRat y.value

/-- An operand is itself, except that an integer past 64 bits with sign is the value
nearest to it. -/
structure Number.BindsAs (n : Number) : Prop where
  itself : (∀ k inRange, n = .int k inRange → k ≤ 9223372036854775807) →
    n.asOperand = .ofRat n.value
  large : ∀ k inRange, n = .int k inRange → 9223372036854775807 < k →
    ∃ r : Binary, n.asOperand = .ofRat r.value ∧ r.IsNearest k

/-- A value lies strictly between the numbers. -/
def HasBetween (p q : ℚ) : Prop :=
  ∃ z : Binary, p < z.value ∧ z.value < q ∨ q < z.value ∧ z.value < p

namespace Number

theorem asField_int {k : Int} (inRange : -9223372036854775808 ≤ k ∧ k ≤ 18446744073709551615) :
    ∃ r : Binary, (int k inRange).asField = .ofRat r.value ∧ r.IsNearest k := by
  obtain ⟨r, rounded, nearest⟩ := Double.ofInt_isNearest (natAbs_lt inRange)
  exact ⟨r, congrArg Double.value rounded, nearest⟩

theorem readsAt (x : Number) : x.ReadsAt := by
  constructor
  case adjoins =>
    cases x with
    | int k _ => exact (Double.ofInt_rounds k).adjoins
    | float y => exact y.leadingReal_adjoins
  case int =>
    rintro k inRange rfl
    exact asField_int inRange
  case whole =>
    rintro k inRange y rfl same
    obtain ⟨r, read, nearest⟩ := asField_int inRange
    rw [← same] at nearest ⊢
    rw [read, nearest.value_eq]
  case float =>
    rintro y c k rfl same few
    obtain ⟨z, read, equal⟩ := Binary.leadingReal_of_decimal same few
    rw [asField, fieldReal, read, Double.value, equal]

theorem bindsAs (n : Number) : n.BindsAs := by
  constructor
  case itself =>
    intro small
    cases n with
    | float y => rfl
    | int k inRange =>
      have inside : Cell.isInt64 k := by
        rw [Cell.isInt64, Bool.and_eq_true, decide_eq_true_eq, decide_eq_true_eq]
        exact ⟨inRange.1, small k inRange rfl⟩
      exact if_pos inside
  case large =>
    rintro k inRange rfl past
    obtain ⟨r, rounded, nearest⟩ := Double.ofInt_isNearest (natAbs_lt inRange)
    rw [asOperand, if_neg (not_isInt64_of_lt past)]
    exact ⟨r, congrArg Double.value rounded, nearest⟩

/-- Where a value lies between two numbers, what the one is read as and the other are
in the order of the numbers. -/
theorem cmp_asField (x : Number) {q : ℚ} (between : HasBetween x.value q) :
    cmp x.asField (.ofRat q) = cmp x.value q := by
  obtain ⟨z, ⟨past, before⟩ | ⟨before, past⟩⟩ := between
  · have less := ((readsAt x).adjoins.above z past).trans_lt (Point.ofRat_strictMono before)
    rw [(cmp_eq_lt_iff _ _).2 less, (cmp_eq_lt_iff _ _).2 (past.trans before)]
  · have more := ((readsAt x).adjoins.below z past).trans_lt' (Point.ofRat_strictMono before)
    rw [(cmp_eq_gt_iff _ _).2 more, (cmp_eq_gt_iff _ _).2 (before.trans past)]

end Number

/-- Conditions on a number at a plain field compare what the number is read as with
what the operands are bound as. The comparison is that of the numbers where the operand
is bound as itself and the number is read as itself, or a value lies between them. An
integer past 64 bits with sign equals itself. -/
theorem number_conditions {field : String} {p : Json} {x : Number} (plain : IsPlain field)
    (canonical : p.Canonical) (present : p.member? field = some (.number x)) :
    (∀ comparison n, (Condition.compare comparison (.number n)).holdsOf field p ↔
      comparison.Holds x.asField n.asOperand) ∧
    (∀ ns : List Number, (Condition.within (ns.map .number)).holdsOf field p ↔
      ∃ n ∈ ns, x.asField = n.asOperand) ∧
    (∀ ns : List Number, (Condition.outside (ns.map .number)).holdsOf field p ↔
      ∀ n ∈ ns, x.asField ≠ n.asOperand) ∧
    x.ReadsAt ∧ (∀ n : Number, n.BindsAs) ∧
    (∀ comparison n, n.asOperand = .ofRat n.value →
      x.asField = .ofRat x.value ∨ HasBetween x.value n.value →
      ((Condition.compare comparison (.number n)).holdsOf field p ↔
        comparison.Holds x.value n.value)) ∧
    (∀ k inRange, x = .int k inRange → 9223372036854775807 < k →
      (Condition.compare .eq (.number x)).holdsOf field p) := by
  have compared := Condition.holdsOf_number plain canonical present
  have oneKind (ns : List Number) : Filter.ofOneKind (ns.map Scalar.number) := by
    cases ns with
    | nil => rfl
    | cons n ns => simp [Filter.ofOneKind, Scalar.kind]
  refine ⟨compared, fun ns => ?_, fun ns => ?_, x.readsAt, Number.bindsAs,
    fun comparison n bound reads => ?_, ?_⟩
  · rw [Condition.holdsOf_within (oneKind ns)]
    simp only [List.mem_map, exists_exists_and_eq_and]
    exact exists_congr fun n => and_congr_right fun _ => compared .eq n
  · by_cases none : ns = []
    · subst none
      simp [Condition.holdsOf_outside_nil]
    · rw [Condition.holdsOf_outside (oneKind ns) (by simpa using none), List.forall_mem_map]
      exact forall₂_congr fun n _ => compared .neq n
  · rw [compared, bound]
    refine Comparison.holds_congr ?_ comparison
    rcases reads with itself | between
    · rw [itself, Point.ofRat_strictMono.cmp_map_eq]
    · exact x.cmp_asField between
  · rintro k inRange rfl past
    exact (compared .eq _).2 (if_neg (Number.not_isInt64_of_lt past)).symm

/-- A payload with a number at a plain name. -/
def numberMember (x : Number) : Json := .object [("a", .number x)]

theorem numberMember_canonical (x : Number) : (numberMember x).Canonical := by
  simp [numberMember, Json.Canonical, Json.CanonicalMembers]

/-- The float `1.5`. -/
def oneAndHalf : Binary :=
  ⟨false, 6755399441055744, -52, by decide, by decide, by decide, by decide⟩

theorem value_oneAndHalf : oneAndHalf.value = (15 : Int) * 10 ^ (-1 : Int) := by
  norm_num [Binary.value, Binary.signed, oneAndHalf]

/-- One and a half is greater than one, and not among one and two. -/
theorem number_conditions_fraction :
    (Condition.compare .gt (.number (.int 1 (by decide)))).holdsOf "a"
        (numberMember (.float oneAndHalf)) ∧
      ¬ (Condition.within [.number (.int 1 (by decide)), .number (.int 2 (by decide))]).holdsOf "a"
        (numberMember (.float oneAndHalf)) := by
  obtain ⟨-, within, -, reads, -, exactly, -⟩ :=
    number_conditions (show IsPlain "a" by decide) (numberMember_canonical (.float oneAndHalf)) rfl
  have read := reads.float oneAndHalf 15 (-1) rfl value_oneAndHalf (by decide)
  refine ⟨(exactly .gt _ rfl (.inl read)).2 ?_, fun among => ?_⟩
  · show ((1 : Int) : ℚ) < oneAndHalf.value
    rw [value_oneAndHalf]
    norm_num
  · obtain ⟨n, present, same⟩ := (within [.int 1 (by decide), .int 2 (by decide)]).1 among
    rw [read, value_oneAndHalf] at same
    rcases List.mem_pair.1 present with rfl | rfl
    all_goals
      have values := Point.ofRat_strictMono.injective same
      norm_num at values

/-- `2 ^ 53 + 1`, which is between two values. -/
def oddInteger : Number := .int 9007199254740993 (by decide)

/-- The float `2.315937287738532e-7`. -/
def smallFloat : Binary :=
  ⟨false, 8749363699235581, -75, by decide, by decide, by decide, by decide⟩

/-- Numbers that do not equal themselves: the integer is read as the even one before
it, and the text of the float as the next float. -/
theorem numbers_miss_themselves :
    ¬ (Condition.compare .eq (.number oddInteger)).holdsOf "a" (numberMember oddInteger) ∧
      ¬ (Condition.compare .eq (.number (.float smallFloat))).holdsOf "a"
        (numberMember (.float smallFloat)) := by
  constructor
  · rw [Condition.holdsOf_number (by decide) (numberMember_canonical _) rfl]
    have rounded : Double.ofInt 9007199254740993 =
        .finite ⟨false, 4503599627370496, 1, by decide, by decide, by decide, by decide⟩ := by
      decide +kernel
    show Double.value (Double.ofInt 9007199254740993) ≠ Point.ofRat ((9007199254740993 : Int) : ℚ)
    rw [rounded]
    intro same
    have values := Point.ofRat_strictMono.injective same
    norm_num [Binary.value, Binary.signed] at values
  · rw [Condition.holdsOf_number (by decide) (numberMember_canonical _) rfl]
    have read : leadingReal smallFloat.jsonText.toList =
        .finite ⟨false, 8749363699235582, -75, by decide, by decide, by decide, by decide⟩ := by
      rw [Binary.jsonText, Layout.render, String.toList_ofList]
      decide +kernel
    show Double.value (leadingReal smallFloat.jsonText.toList) ≠ Point.ofRat smallFloat.value
    rw [read]
    intro same
    have values := Point.ofRat_strictMono.injective same
    norm_num [Binary.value, Binary.signed, smallFloat] at values

end Chronicle
