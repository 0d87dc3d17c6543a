import Chronicle.Proofs.Keyed
import Chronicle.Query.Test

/-!
# Building filters

A filter is built by adding conditions one after another (`Filter.build`). What is
built is tidy: each field is there once, with a condition at least
(`Filter.tidy_build`). On each field it has the conditions that were added, in their
order (`Filter.conditionsOn_build`), and it matches what passes all of them
(`Filter.holdsAll_build`).
-/

namespace Chronicle

theorem forM_eq_ok {ε α : Type} {f : α → Except ε PUnit} {items : List α} :
    items.forM f = .ok ⟨⟩ ↔ ∀ item ∈ items, f item = .ok ⟨⟩ := by
  induction items with
  | nil => simp [List.forM, pure, Except.pure]
  | cons item rest ih =>
    rw [List.forM_eq_forM] at ih
    rw [List.forM_eq_forM, List.forM_cons, List.forall_mem_cons, ← ih]
    cases f item <;> simp [bind, Except.bind]

namespace Filter

/-- The filter that some conditions make that are added in order. -/
def build (calls : List (String × Condition)) : Filter :=
  calls.foldl (fun f call => f.push call.1 call.2) empty

theorem build_append (calls : List (String × Condition)) (call : String × Condition) :
    build (calls ++ [call]) = (build calls).push call.1 call.2 := by
  simp [build]

/-- Each field is there once, and has conditions. -/
structure Tidy (f : Filter) : Prop where
  names : (f.fields.map FieldFilter.field).Nodup
  conditions : ∀ entry ∈ f.fields, entry.conditions ≠ []

/-- The conditions on a field, in order. -/
def conditionsOn (f : Filter) (field : String) : List Condition :=
  ((f.fields.find? (·.field = field)).map FieldFilter.conditions).getD []

variable {f : Filter} {field : String} {c : Condition}

/-! ## Adding a condition -/

theorem mem_names_pushField {fields : List FieldFilter} {name : String} :
    name ∈ (pushField field c fields).map FieldFilter.field ↔
      name = field ∨ name ∈ fields.map FieldFilter.field := by
  induction fields with
  | nil => simp [pushField]
  | cons entry rest ih =>
    rw [pushField]
    split
    · rename_i same
      simp [same]
    · rw [List.map_cons, List.mem_cons, ih, List.map_cons, List.mem_cons]
      exact or_left_comm

theorem tidy_push (tidy : f.Tidy) (field : String) (c : Condition) : (f.push field c).Tidy := by
  obtain ⟨names, conditions⟩ := tidy
  obtain ⟨fields⟩ := f
  show Tidy ⟨pushField field c fields⟩
  dsimp only at names conditions
  induction fields with
  | nil => exact ⟨by simp [pushField], by simp [pushField]⟩
  | cons entry rest ih =>
    rw [List.map_cons, List.nodup_cons] at names
    obtain ⟨first, others⟩ := List.forall_mem_cons.1 conditions
    rw [pushField]
    split
    · rename_i same
      refine ⟨List.nodup_cons.2 ⟨same ▸ names.1, names.2⟩, ?_⟩
      exact List.forall_mem_cons.2 ⟨by simp, others⟩
    · rename_i differs
      obtain ⟨restNames, restConditions⟩ := ih names.2 others
      refine ⟨List.nodup_cons.2 ⟨fun present => ?_, restNames⟩,
        List.forall_mem_cons.2 ⟨first, restConditions⟩⟩
      exact (mem_names_pushField.1 present).elim differs names.1

theorem conditionsOn_push (f : Filter) (field : String) (c : Condition) (other : String) :
    (f.push field c).conditionsOn other =
      if field = other then f.conditionsOn other ++ [c] else f.conditionsOn other := by
  obtain ⟨fields⟩ := f
  simp only [conditionsOn, push]
  induction fields with
  | nil => by_cases same : field = other <;> simp [pushField, same]
  | cons entry rest ih =>
    rw [pushField]
    split
    · rename_i same
      by_cases here : field = other
      · simp [here, same]
      · simp [here, same]
    · rename_i differs
      by_cases here : entry.field = other
      · have apart : ¬ field = other := fun same => differs (here.trans same.symm)
        simp [here, apart]
      · simpa [List.find?_cons, here] using ih

/-! ## What was built -/

theorem tidy_build (calls : List (String × Condition)) : (build calls).Tidy := by
  induction calls using List.reverseRecOn with
  | nil => exact ⟨.nil, fun _ present => nomatch present⟩
  | append_singleton calls call ih =>
    rw [build_append]
    exact tidy_push ih call.1 call.2

/-- A built filter has on each field what was added to it. -/
theorem conditionsOn_build (calls : List (String × Condition)) (field : String) :
    (build calls).conditionsOn field = (calls.filter (·.1 = field)).map Prod.snd := by
  induction calls using List.reverseRecOn with
  | nil => rfl
  | append_singleton calls call ih =>
    rw [build_append, conditionsOn_push, ih]
    by_cases same : call.1 = field <;> simp [same]

theorem tests_build (calls : List (String × Condition)) : (build calls).tests.Perm calls := by
  induction calls using List.reverseRecOn with
  | nil => exact .refl _
  | append_singleton calls call ih =>
    rw [build_append]
    have last : (call :: calls).Perm (calls ++ [call]) := (List.perm_append_singleton _ _).symm
    exact (tests_push _ _ _).trans ((ih.cons call).trans last)

theorem mem_tests : (field, c) ∈ f.tests ↔
    ∃ entry ∈ f.fields, entry.field = field ∧ c ∈ entry.conditions := by
  simp only [tests, List.mem_flatMap, List.mem_map, Prod.mk.injEq]
  constructor
  · rintro ⟨entry, present, _, has, same, rfl⟩
    exact ⟨entry, present, same, has⟩
  · rintro ⟨entry, present, same, has⟩
    exact ⟨entry, present, c, has, same, rfl⟩

theorem Tidy.conditionsOn_eq (tidy : f.Tidy) {entry : FieldFilter} (present : entry ∈ f.fields) :
    f.conditionsOn entry.field = entry.conditions := by
  rw [conditionsOn, find?_of_nodup tidy.names present]
  rfl

/-- What is on a field is in its entry. -/
theorem mem_of_conditionsOn (has : c ∈ f.conditionsOn field) :
    ∃ entry ∈ f.fields, entry.field = field ∧ f.conditionsOn field = entry.conditions := by
  unfold conditionsOn at has ⊢
  cases found : f.fields.find? (·.field = field) with
  | none => simp [found] at has
  | some entry =>
    exact ⟨entry, List.mem_of_find?_eq_some found, by simpa using List.find?_some found, rfl⟩

/-! ## Validity and matching -/

theorem checkName_eq_ok_iff : checkName field = .ok () ↔ field ≠ "" ∧ '"' ∉ field.toList := by
  unfold checkName
  split
  · simp [*]
  · split <;> simp [*]

theorem valid_iff : f.Valid ↔ ∀ entry ∈ f.fields,
    checkName entry.field = .ok ⟨⟩ ∧ ∀ c ∈ entry.conditions, checkCondition c = .ok ⟨⟩ := by
  have each (entry : FieldFilter) : checkField entry = .ok ⟨⟩ ↔
      checkName entry.field = .ok ⟨⟩ ∧ ∀ c ∈ entry.conditions, checkCondition c = .ok ⟨⟩ := by
    rw [checkField, ← forM_eq_ok]
    cases checkName entry.field <;> simp [bind, Except.bind]
  rw [Valid, check, forM_eq_ok]
  exact forall₂_congr fun entry _ => each entry

/-- A filter is valid when it was built from names and conditions that are. -/
theorem valid_build {calls : List (String × Condition)}
    (each : ∀ call ∈ calls, checkName call.1 = .ok () ∧ checkCondition call.2 = .ok ()) :
    (build calls).Valid := by
  refine valid_iff.2 fun entry present => ?_
  have given (c : Condition) (has : c ∈ entry.conditions) := each (entry.field, c)
    ((tests_build calls).mem_iff.1 (mem_tests.2 ⟨entry, present, rfl, has⟩))
  obtain ⟨c, has⟩ := List.exists_mem_of_ne_nil _ ((tidy_build calls).conditions entry present)
  exact ⟨(given c has).1, fun c has => (given c has).2⟩

theorem holdsAll_fieldTests {payload : Payload} : holdsAll f.fieldTests payload ↔
    ∀ field c, (field, c) ∈ f.tests → (c.test field).holds payload := by
  simp [holdsAll, fieldTests]

theorem compile_of_valid (valid : f.Valid) : f.compile = .ok f.fieldTests := by
  have passes : f.check = .ok () := valid
  simp [compile, validate, passes, Except.mapError, bind, Except.bind, pure, Except.pure]

/-- A filter that was built asks for each of the conditions it was given. -/
theorem holdsAll_build (calls : List (String × Condition)) {payload : Payload} :
    holdsAll (build calls).fieldTests payload ↔
      ∀ call ∈ calls, (call.2.test call.1).holds payload := by
  rw [holdsAll_fieldTests]
  have given (call : String × Condition) := (tests_build calls).mem_iff (a := call)
  constructor
  · exact fun all call present => all call.1 call.2 ((given call).2 present)
  · exact fun all field c present => all (field, c) ((given _).1 present)

/-- Conditions that are in a filter can be left out without losing a match. -/
theorem holdsAll_of_subset {g : Filter} (within : ∀ t ∈ g.tests, t ∈ f.tests) {payload : Payload}
    (holds : holdsAll f.fieldTests payload) : holdsAll g.fieldTests payload := by
  rw [holdsAll_fieldTests] at holds ⊢
  exact fun field c present => holds field c (within _ present)

end Filter

end Chronicle
