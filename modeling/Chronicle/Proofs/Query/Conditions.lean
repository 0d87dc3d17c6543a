import Chronicle.Proofs.Filter.Building
import Chronicle.Proofs.Query.Fields

/-!
# The laws of conditions

What a condition finds under its field is compared with an operand that is finite,
and the comparison has an outcome (`Cell.compare_isSome`): a content that is read as
a number is one, never a NaN. So every comparison is decided by one ordering
(`Condition.holdsOf_compare`), and the laws of the six comparisons are those of the
order of three outcomes. Nothing found is in no relation, except outside the empty
list (`Condition.holdsOf_of_none`). A list asks for one of its operands, or for none of them
(`Condition.holdsOf_within`, `Condition.holdsOf_outside`).

A filter asks for all of its conditions, in whatever order they were given
(`Filter.holdsAll_build`).
-/

namespace Chronicle

/-! ## Contents are comparable -/

theorem Double.nearest_ne_nan (negative : Bool) (num den : Nat) :
    Double.nearest negative num den ≠ .nan := by
  unfold nearest
  split
  · exact fun same => Double.noConfusion same
  · dsimp only
    split <;> exact fun same => Double.noConfusion same

theorem Number.toDouble_ne_nan (n : Number) : n.toDouble ≠ .nan := by
  cases n with
  | int n _ => exact Double.nearest_ne_nan _ _ _
  | float x => exact fun same => Double.noConfusion same

/-- The real at the beginning of a text is a number. -/
theorem leadingReal_ne_nan (text : List Char) : leadingReal text ≠ .nan := by
  unfold leadingReal Numeral.scaled Extended.toDouble
  dsimp only
  split
  · exact fun same => Double.noConfusion same
  · split
    · exact Double.nearest_ne_nan _ _ _
    · split
      · exact fun same => Double.noConfusion same
      · exact Double.nearest_ne_nan _ _ _

theorem Double.compare_isSome {x y : Double} (number : x ≠ .nan) (other : y ≠ .nan) :
    (x.compare y).isSome := by
  cases x <;> cases y <;> simp_all [Double.compare]

theorem Double.compareInt_isSome {x : Double} (number : x ≠ .nan) (n : Int) :
    (x.compareInt n).isSome := by
  cases x <;> simp_all [Double.compareInt]

namespace Cell

variable {cell : Cell}

/-- What is found in a value is read as a number, not as a NaN. -/
theorem asReal_ne_nan {v : Json} (found : ofJson? v = some cell) : cell.asReal ≠ .nan := by
  have integer (n : Int) : Double.ofInt n ≠ .nan := Double.nearest_ne_nan _ _ _
  unfold ofJson? at found
  split at found <;> simp only [Option.some.injEq, reduceCtorEq] at found <;> subst found
  · exact integer _
  · split
    · exact integer _
    · exact leadingReal_ne_nan _
  all_goals exact leadingReal_ne_nan _

/-- A content is comparable with every finite operand. -/
theorem compare_isSome {v : Json} (found : ofJson? v = some cell) {operand : Scalar}
    (finite : operand.nonFinite? = none) :
    ((cell.read operand.kind).compare operand.param).isSome := by
  have real := asReal_ne_nan found
  cases operand with
  | text s => rfl
  | bool b => rfl
  | number n =>
    cases n with
    | int n h =>
      unfold Scalar.param
      dsimp only
      split
      · exact Double.compareInt_isSome real n
      · exact Double.compare_isSome real (Number.toDouble_ne_nan _)
    | float x => exact Double.compare_isSome real fun same => Double.noConfusion same
  | infinite negative => cases finite
  | nan => cases finite

end Cell

namespace Condition

variable {field : String} {p : Json} {operand : Scalar} {operands : List Scalar}

/-- What a condition on the field finds in the payload. -/
def found (field : String) (p : Json) : Option Cell := (Payload.value p).cell? field

theorem found_eq_some {cell : Cell} (finds : found field p = some cell) :
    ∃ v, Cell.ofJson? v = some cell := by
  cases p with
  | object members =>
    rw [found, Payload.cell?_object, Option.bind_eq_some_iff] at finds
    obtain ⟨v, -, content⟩ := finds
    exact ⟨v, content⟩
  | _ => cases finds

/-- Nothing found is outside the empty list, and in no other relation. -/
theorem holdsOf_of_none (nothing : found field p = none) (c : Condition) :
    c.holdsOf field p ↔ c = .outside [] := by
  rw [found] at nothing
  cases c with
  | compare comparison operand => simp [holdsOf, FieldTest.holds, test, nothing, Relation.holds]
  | within operands => simp [holdsOf, FieldTest.holds, test, nothing, Relation.holds]
  | outside operands =>
    cases operands <;> simp [holdsOf, FieldTest.holds, test, nothing, Relation.holds]

theorem holdsOf_compare_eq {cell : Cell} (finds : found field p = some cell)
    (comparison : Comparison) (operand : Scalar) :
    (compare comparison operand).holdsOf field p =
      Relation.compares comparison (cell.read operand.kind) operand.param := by
  rw [found] at finds
  simp [holdsOf, FieldTest.holds, test, finds, Relation.holds, kind?, Condition.operands]

/-- One ordering decides all comparisons of what was found with an operand. -/
theorem holdsOf_compare {cell : Cell} (finds : found field p = some cell)
    (finite : operand.nonFinite? = none) :
    ∃ order, ∀ comparison : Comparison,
      (compare comparison operand).holdsOf field p = comparison.accepts order := by
  obtain ⟨v, content⟩ := found_eq_some finds
  obtain ⟨order, outcome⟩ := Option.isSome_iff_exists.1 (Cell.compare_isSome content finite)
  refine ⟨order, fun comparison => ?_⟩
  rw [holdsOf_compare_eq finds, Relation.compares, outcome]
  rfl

/-- All operands of a list of one kind are read for in the same way. -/
theorem kind_of_oneKind (oneKind : Filter.ofOneKind operands) (present : operand ∈ operands) :
    operand.kind = (operands.head?.map Scalar.kind).getD .text := by
  cases operands with
  | nil => cases present
  | cons first rest =>
    rcases List.mem_cons.1 present with rfl | later
    · rfl
    · exact of_decide_eq_true (List.all_eq_true.1 oneKind operand later)

/-- A field is in a list of one kind when it equals one of the operands. -/
theorem holdsOf_within (oneKind : Filter.ofOneKind operands) :
    (within operands).holdsOf field p ↔
      ∃ operand ∈ operands, (compare .eq operand).holdsOf field p := by
  cases finds : found field p with
  | none => simp [holdsOf_of_none finds]
  | some cell =>
    have whole : (within operands).holdsOf field p = operands.any fun operand =>
        Relation.compares .eq (cell.read ((operands.head?.map Scalar.kind).getD .text))
          operand.param := by
      rw [found] at finds
      simp [holdsOf, FieldTest.holds, test, finds, Relation.holds, kind?, Condition.operands,
        List.any_map, Function.comp_def]
    rw [whole, List.any_eq_true]
    refine exists_congr fun operand => and_congr_right fun present => ?_
    rw [← kind_of_oneKind oneKind present, holdsOf_compare_eq finds]

/-- A field is outside a list of one kind that is not empty when it differs from
each of the operands. -/
theorem holdsOf_outside (oneKind : Filter.ofOneKind operands) (some_operands : operands ≠ []) :
    (outside operands).holdsOf field p ↔
      ∀ operand ∈ operands, (compare .neq operand).holdsOf field p := by
  cases finds : found field p with
  | none =>
    obtain ⟨first, present⟩ := List.exists_mem_of_ne_nil operands some_operands
    simp only [holdsOf_of_none finds, outside.injEq, some_operands, reduceCtorEq, false_iff]
    exact fun all => all first present
  | some cell =>
    have whole : (outside operands).holdsOf field p = operands.all fun operand =>
        Relation.compares .neq (cell.read ((operands.head?.map Scalar.kind).getD .text))
          operand.param := by
      rw [found] at finds
      simp [holdsOf, FieldTest.holds, test, finds, Relation.holds, kind?, Condition.operands,
        List.all_map, Function.comp_def]
    rw [whole, List.all_eq_true]
    refine forall₂_congr fun operand present => ?_
    rw [← kind_of_oneKind oneKind present, holdsOf_compare_eq finds]

theorem holdsOf_outside_nil (field : String) (p : Json) : (outside []).holdsOf field p := by
  cases finds : found field p with
  | none => exact (holdsOf_of_none finds _).2 rfl
  | some cell =>
    rw [found] at finds
    simp [holdsOf, FieldTest.holds, test, finds, Relation.holds]

end Condition

/-! ## Values at a field -/

/-- The value has a member of the name, and it is not null. -/
def Json.HasValue (name : String) (p : Json) : Prop := ∃ v, p.member? name = some v ∧ v ≠ .null

theorem Cell.ofJson?_eq_none {v : Json} : Cell.ofJson? v = none ↔ v = .null := by
  unfold ofJson?
  split <;> simp

/-- Under a plain name something is found exactly when there is a value. -/
theorem Condition.found_iff_hasValue {field : String} {p : Json} (plain : IsPlain field)
    (canonical : p.Canonical) (alone : p.member? field = none → ¬ p.Extends field) :
    found field p ≠ none ↔ p.HasValue field := by
  rw [found, Payload.cell?_of_plain plain canonical alone, Json.HasValue]
  cases p.member? field with
  | none => simp
  | some v => simp [Cell.ofJson?_eq_none]

/-! ## The laws -/

/-- One of three holds, and no two of them. -/
def ExactlyOne (a b c : Bool) : Prop :=
  a ∧ ¬ b ∧ ¬ c ∨ ¬ a ∧ b ∧ ¬ c ∨ ¬ a ∧ ¬ b ∧ c

instance (a b c : Bool) : Decidable (ExactlyOne a b c) := inferInstanceAs (Decidable (_ ∨ _))

/-- The laws of the conditions on a field of a payload that has a value there, or has
none. Operands are finite, and lists of one kind. -/
structure Lawful (field : String) (p : Json) (hasValue : Prop) : Prop where
  without : ¬ hasValue → ∀ c : Condition, c.holdsOf field p ↔ c = .outside []
  eq_neq : hasValue → ∀ v : Scalar, v.nonFinite? = none →
    (Condition.compare .neq v).holdsOf field p = !(Condition.compare .eq v).holdsOf field p
  gt_lte : hasValue → ∀ v : Scalar, v.nonFinite? = none →
    (Condition.compare .lte v).holdsOf field p = !(Condition.compare .gt v).holdsOf field p
  lt_gte : hasValue → ∀ v : Scalar, v.nonFinite? = none →
    (Condition.compare .gte v).holdsOf field p = !(Condition.compare .lt v).holdsOf field p
  lt_eq_gt : hasValue → ∀ v : Scalar, v.nonFinite? = none →
    ExactlyOne ((Condition.compare .lt v).holdsOf field p)
      ((Condition.compare .eq v).holdsOf field p) ((Condition.compare .gt v).holdsOf field p)
  within : ∀ operands, Filter.ofOneKind operands → operands ≠ [] →
    ((Condition.within operands).holdsOf field p ↔
      ∃ v ∈ operands, (Condition.compare .eq v).holdsOf field p)
  outside : ∀ operands, Filter.ofOneKind operands → operands ≠ [] →
    ((Condition.outside operands).holdsOf field p ↔
      ∀ v ∈ operands, (Condition.compare .neq v).holdsOf field p)
  within_nil : ¬ (Condition.within []).holdsOf field p
  outside_nil : (Condition.outside []).holdsOf field p

/-- The laws hold, whatever the name, of what is found under it. -/
theorem lawful_found (field : String) (p : Json) :
    Lawful field p (Condition.found field p ≠ none) := by
  -- Where something is found, one ordering decides all comparisons with an operand.
  have decided (present : Condition.found field p ≠ none) (v : Scalar)
      (finite : v.nonFinite? = none) : ∃ order, ∀ comparison : Comparison,
        (Condition.compare comparison v).holdsOf field p = comparison.accepts order := by
    obtain ⟨cell, finds⟩ := Option.ne_none_iff_exists'.1 present
    exact Condition.holdsOf_compare finds finite
  constructor
  case without => exact fun absent c => Condition.holdsOf_of_none (not_not.1 absent) c
  case within => exact fun operands oneKind _ => Condition.holdsOf_within oneKind
  case outside => exact fun operands oneKind present => Condition.holdsOf_outside oneKind present
  case within_nil => rw [Condition.holdsOf_within rfl]; simp
  case outside_nil => exact Condition.holdsOf_outside_nil field p
  all_goals
    intro present v finite
    obtain ⟨order, outcome⟩ := decided present v finite
    simp only [outcome]
    cases order <;> decide

/-- In stored payloads the conditions on a field obey the laws of what is found
under its name, which for a plain name is the value of its member; a valid filter
asks for all of its conditions, so that neither the order nor the grouping of the
calls that build one matters, and the empty one holds of every payload. -/
theorem conditions_lawful {p : Json} (canonical : p.Canonical) :
    (∀ field, Lawful field p (Condition.found field p ≠ none)) ∧
    (∀ field, IsPlain field → (p.member? field = none → ¬ p.Extends field) →
      Lawful field p (p.HasValue field)) ∧
    (∀ f : Filter, f.Valid → ∃ tests, f.compile = .ok tests ∧
      (holdsAll tests (.value p) ↔ ∀ t ∈ f.tests, t.2.holdsOf t.1 p)) ∧
    (∀ calls calls' : List (String × Condition), (∀ call, call ∈ calls ↔ call ∈ calls') →
      holdsAll (Filter.build calls).fieldTests (.value p) =
        holdsAll (Filter.build calls').fieldTests (.value p)) ∧
    holdsAll Filter.empty.fieldTests (.value p) := by
  refine ⟨fun field => lawful_found field p, fun field plain alone => ?_, fun f valid => ?_,
    fun calls calls' same => ?_, rfl⟩
  · have laws := lawful_found field p
    rwa [propext (Condition.found_iff_hasValue plain canonical alone)] at laws
  · refine ⟨f.fieldTests, Filter.compile_of_valid valid, ?_⟩
    rw [Filter.holdsAll_fieldTests]
    exact ⟨fun all t present => all t.1 t.2 present,
      fun all field c present => all (field, c) present⟩
  · rw [Bool.eq_iff_iff, Filter.holdsAll_build, Filter.holdsAll_build]
    exact forall_congr' fun call => imp_congr (same call) Iff.rfl

/-- A payload with a text at a plain name. -/
def plainMember : Json := .object [("a", .string "y")]

theorem plainMember_canonical : plainMember.Canonical := by
  simp [plainMember, Json.Canonical, Json.CanonicalMembers]

/-- Equal or not, and one of the three orders: the laws at a member that is there. -/
theorem conditions_lawful_plain :
    plainMember.HasValue "a" ∧
      (Condition.compare .neq (.text "x")).holdsOf "a" plainMember =
        !(Condition.compare .eq (.text "x")).holdsOf "a" plainMember ∧
      ¬ (Condition.compare .neq (.text "x")).holdsOf "b" plainMember := by
  have value : plainMember.HasValue "a" := ⟨.string "y", rfl, by simp⟩
  have noValue : ¬ plainMember.HasValue "b" := by
    rintro ⟨v, present, -⟩
    cases present
  have alone (name : String) : ¬ plainMember.Extends name := by
    rintro ⟨rest, present⟩
    refine present (Json.member?_eq_none.2 fun m inMembers same => ?_)
    have nul : HasNul m.1 := by
      rw [same, hasNul_append, hasNul_append]
      exact .inl (.inr (by decide))
    obtain rfl : m = ("a", .string "y") := List.mem_singleton.1 inMembers
    exact absurd nul (by decide)
  have laws (name : String) (plain : IsPlain name) :=
    (conditions_lawful plainMember_canonical).2.1 name plain fun _ => alone name
  refine ⟨value, (laws "a" (by decide)).eq_neq value (.text "x") rfl, ?_⟩
  rw [(laws "b" (by decide)).without noValue]
  simp

/-- A payload with a text at a name with a backslash. -/
def escapedMember : Json := .object [("a\\b", .string "y")]

/-- The name is accepted and there is a value, but the value is neither equal nor
unequal to a text. -/
theorem conditions_miss_escaped :
    Filter.checkName "a\\b" = .ok () ∧ escapedMember.HasValue "a\\b" ∧
      ¬ (Condition.compare .eq (.text "x")).holdsOf "a\\b" escapedMember ∧
      ¬ (Condition.compare .neq (.text "x")).holdsOf "a\\b" escapedMember := by
  have nothing : Condition.found "a\\b" escapedMember = none :=
    Payload.cell?_of_escaped (by decide) (by decide) escapedMember
  refine ⟨rfl, ⟨.string "y", rfl, by simp⟩, ?_, ?_⟩
  all_goals
    rw [Condition.holdsOf_of_none nothing]
    simp

end Chronicle
