import Chronicle.Proofs.Filter.RoundTrip
import Chronicle.Proofs.Text.ByteOrder

/-!
# The grammar of filters

`Filter.Accepted` says which JSON values are filters, and `Filter.formFlaws` lists
what is wrong with the form of a value, in the order of its members and their
operators. Reading stops at the first of these flaws (`Filter.assemble_of_flaw`);
only where there is none are field names and the kinds in lists looked at
(`Filter.ofJson_members`).

`Filter.reading_exact` is the whole: which values are read, what is read and how it
is written again, and which flaw the others are turned down for.
-/

namespace Chronicle

/-- The kind of a scalar; none for null, arrays and objects. -/
def Json.scalarKind? : Json → Option ScalarKind
  | .string _ => some .text
  | .number _ => some .number
  | .bool _ => some .bool
  | _ => none

/-- An object without members. -/
def Json.isEmptyObject : Json → Bool
  | .object [] => true
  | _ => false

namespace Filter

/-! ## The grammar -/

def comparisonKeys : List String := ["eq", "neq", "gt", "gte", "lt", "lte"]

def listKeys : List String := ["in", "nin"]

/-- An operator and its operand. A list has scalars of one kind only. -/
inductive OperatorAccepted : String × Json → Prop
  | compares {key : String} {operand : Json} (known : key ∈ comparisonKeys)
      (scalar : operand.scalarKind? ≠ none) : OperatorAccepted (key, operand)
  | lists {key : String} {items : List Json} (known : key ∈ listKeys) (kind : ScalarKind)
      (ofKind : ∀ item ∈ items, item.scalarKind? = some kind) :
      OperatorAccepted (key, .array items)

/-- A field and its operators. The name does not matter where there are none. -/
inductive MemberAccepted : String × Json → Prop
  | operators {field : String} {operators : List (String × Json)}
      (each : ∀ o ∈ operators, OperatorAccepted o)
      (name : operators ≠ [] → field ≠ "" ∧ '"' ∉ field.toList) :
      MemberAccepted (field, .object operators)

/-- A JSON value that is a filter. -/
inductive Accepted : Json → Prop
  | fields {members : List (String × Json)} (each : ∀ m ∈ members, MemberAccepted m) :
      Accepted (.object members)

/-! ## Flaws of form -/

/-- What is wrong with the form of an operator and its operand. -/
def operatorFlaw? : String × Json → Option Flaw
  | (key, operand) =>
    if key ∈ comparisonKeys then
      if operand.scalarKind? = none then some (.notAScalar key operand) else none
    else if key ∈ listKeys then
      match operand with
      | .array items => (items.find? (·.scalarKind? = none)).map (.notAScalar key)
      | _ => some (.notAnArray key)
    else some (.unknownOperator key)

def memberFlaws : String × Json → List Flaw
  | (_, .object operators) => operators.filterMap operatorFlaw?
  | (field, _) => [.operatorsNotAnObject field]

/-- What is wrong with the form of a filter, in the order of its fields and their
operators. -/
def formFlaws : Json → List Flaw
  | .object members => members.flatMap memberFlaws
  | other => [.notAnObject other]

/-- A flaw that is none of form: a field name, or a list of mixed kinds. -/
inductive Flaw.OfContent : Flaw → Prop
  | emptyName : OfContent .emptyName
  | quoteInName (field : String) : OfContent (.quoteInName field)
  | mixedKinds (key : String) : OfContent (.mixedKinds key)

/-- The operators of a filter in JSON with their fields, in order. -/
def operatorsOf : Json → List (String × String × Json)
  | .object members => members.flatMap fun
    | (field, .object operators) => operators.map (field, ·)
    | _ => []
  | _ => []

/-- A filter in JSON without the fields that have no operator. -/
def withoutBare : Json → Json
  | .object members => .object (members.filter fun m => !m.2.isEmptyObject)
  | other => other

end Filter

/-! ## Reading an operator -/

theorem Scalar.ofJson_eq_ok (key : String) {operand : Json}
    (scalar : operand.scalarKind? ≠ none) :
    ∃ s, Scalar.ofJson key operand = .ok s ∧ s.toJson = operand ∧ s.nonFinite? = none := by
  cases operand with
  | string s => exact ⟨.text s, rfl, rfl, rfl⟩
  | number n => exact ⟨.number n, rfl, rfl, rfl⟩
  | bool b => exact ⟨.bool b, rfl, rfl, rfl⟩
  | null => exact absurd rfl scalar
  | array items => exact absurd rfl scalar
  | object members => exact absurd rfl scalar

theorem Scalar.ofJson_eq_error {key : String} {operand : Json}
    (structured : operand.scalarKind? = none) :
    Scalar.ofJson key operand = .error (.notAScalar key operand) := by
  cases operand with
  | null => rfl
  | array items => rfl
  | object members => rfl
  | string s => cases structured
  | number n => cases structured
  | bool b => cases structured

/-- A list is read item by item, up to the first that is no scalar. -/
theorem Scalar.listOfJson_spec (key : String) (items : List Json) :
    match items.find? (·.scalarKind? = none) with
    | some item => Scalar.listOfJson key (.array items) = .error (.notAScalar key item)
    | none => ∃ operands, Scalar.listOfJson key (.array items) = .ok operands ∧
        operands.map Scalar.toJson = items ∧ ∀ s ∈ operands, s.nonFinite? = none := by
  simp only [Scalar.listOfJson]
  induction items with
  | nil => exact ⟨[], rfl, rfl, by simp⟩
  | cons item rest ih =>
    rw [List.mapM_cons]
    by_cases structured : item.scalarKind? = none
    · rw [List.find?_cons_of_pos (by simpa using structured)]
      simp only [Scalar.ofJson_eq_error structured]
      rfl
    · obtain ⟨s, read, same, finite⟩ := Scalar.ofJson_eq_ok key structured
      rw [List.find?_cons_of_neg (by simpa using structured)]
      simp only [read]
      cases found : rest.find? (·.scalarKind? = none) with
      | some other =>
        simp only [found] at ih
        simp only [ih]
        rfl
      | none =>
        simp only [found] at ih
        obtain ⟨operands, readRest, sameRest, eachRest⟩ := ih
        simp only [readRest]
        subst same sameRest
        exact ⟨s :: operands, rfl, rfl, List.forall_mem_cons.2 ⟨finite, eachRest⟩⟩

theorem Comparison.ofKey?_eq_some_iff {key : String} {comparison : Comparison} :
    Comparison.ofKey? key = some comparison ↔ comparison.key = key := by
  constructor
  · intro known
    unfold Comparison.ofKey? at known
    split at known <;> cases known <;> rfl
  · rintro rfl
    exact Comparison.ofKey?_key comparison

theorem mem_comparisonKeys {key : String} :
    key ∈ Filter.comparisonKeys ↔ ∃ comparison : Comparison, comparison.key = key := by
  constructor
  · simp only [Filter.comparisonKeys, List.mem_cons, List.not_mem_nil, or_false]
    rintro (rfl | rfl | rfl | rfl | rfl | rfl)
    exacts [⟨.eq, rfl⟩, ⟨.neq, rfl⟩, ⟨.gt, rfl⟩, ⟨.gte, rfl⟩, ⟨.lt, rfl⟩, ⟨.lte, rfl⟩]
  · rintro ⟨comparison, rfl⟩
    cases comparison <;> decide

/-- An operator is read unless its form has a flaw. What is read is written again as it
was, and its operands are finite. -/
theorem Condition.ofJson_spec (o : String × Json) :
    match Filter.operatorFlaw? o with
    | some flaw => Condition.ofJson o.1 o.2 = .error flaw
    | none => ∃ c, Condition.ofJson o.1 o.2 = .ok c ∧ (c.key, c.operandJson) = o ∧ c.Finite := by
  obtain ⟨key, operand⟩ := o
  simp only [Filter.operatorFlaw?, Condition.ofJson]
  by_cases compares : key ∈ Filter.comparisonKeys
  · obtain ⟨comparison, rfl⟩ := mem_comparisonKeys.1 compares
    simp only [if_pos compares, Comparison.ofKey?_key]
    by_cases structured : operand.scalarKind? = none
    · simp only [if_pos structured, Scalar.ofJson_eq_error structured]
      rfl
    · obtain ⟨s, read, rfl, finite⟩ :=
        Scalar.ofJson_eq_ok comparison.key structured
      simp only [if_neg structured, read]
      refine ⟨.compare comparison s, rfl, rfl, ?_⟩
      intro other present
      rw [List.mem_singleton.1 present]
      exact finite
  · have unknown : Comparison.ofKey? key = none := by
      rw [Option.eq_none_iff_forall_ne_some]
      intro comparison known
      exact compares (mem_comparisonKeys.2 ⟨comparison, Comparison.ofKey?_eq_some_iff.1 known⟩)
    simp only [if_neg compares, unknown]
    by_cases lists : key ∈ Filter.listKeys
    · simp only [if_pos lists]
      cases operand with
      | array items =>
        have read := Scalar.listOfJson_spec key items
        cases found : items.find? (·.scalarKind? = none) with
        | some item =>
          simp only [found] at read
          simp only [found, read, Option.map_some]
          simp only [Filter.listKeys, List.mem_cons, List.not_mem_nil, or_false] at lists
          rcases lists with rfl | rfl <;> rfl
        | none =>
          simp only [found] at read
          obtain ⟨operands, read, rfl, each⟩ := read
          simp only [found, read, Option.map_none]
          simp only [Filter.listKeys, List.mem_cons, List.not_mem_nil, or_false] at lists
          rcases lists with rfl | rfl
          · exact ⟨.within operands, rfl, rfl, each⟩
          · exact ⟨.outside operands, rfl, rfl, each⟩
      | _ =>
        simp only [Filter.listKeys, List.mem_cons, List.not_mem_nil, or_false] at lists
        rcases lists with rfl | rfl <;> rfl
    · simp only [if_neg lists]
      simp only [Filter.listKeys, List.mem_cons, List.not_mem_nil, or_false, not_or] at lists
      rw [if_neg lists.1, if_neg lists.2]

/-! ## Reading in order -/

section Folding

variable {σ α ε : Type} {step : σ → α → Except ε σ} {items : List α}

/-- Steps that fail with their first flaw, and only where they have one, fail together
with the first flaw of all. -/
theorem foldlM_of_flaw (flaws : α → List ε)
    (fails : ∀ s a flaw, (flaws a).head? = some flaw → step s a = .error flaw)
    (passes : ∀ s a, flaws a = [] → ∃ t, step s a = .ok t) {flaw : ε}
    (first : (items.flatMap flaws).head? = some flaw) (s : σ) :
    items.foldlM step s = .error flaw := by
  induction items generalizing s with
  | nil => cases first
  | cons item rest ih =>
    rw [List.foldlM_cons]
    by_cases clean : flaws item = []
    · obtain ⟨t, passed⟩ := passes s item clean
      rw [List.flatMap_cons, clean, List.nil_append] at first
      rw [passed]
      exact ih first t
    · obtain ⟨head, tail, split⟩ := List.exists_cons_of_ne_nil clean
      rw [List.flatMap_cons, split] at first
      rw [fails s item flaw (by rw [split]; exact first)]
      rfl

end Folding

namespace Filter

variable {field : String} {operators : List (String × Json)} {flaw : Flaw} {v : Json}

theorem addOperators_of_flaw (first : (operators.filterMap operatorFlaw?).head? = some flaw)
    (f : Filter) : f.addOperators field operators = .error flaw := by
  rw [List.filterMap_eq_flatMap_toList] at first
  refine foldlM_of_flaw (fun o => (operatorFlaw? o).toList) ?_ ?_ first f
  · intro f o flaw found
    have read := Condition.ofJson_spec o
    cases has : operatorFlaw? o with
    | none => simp [has] at found
    | some other =>
      simp only [has, Option.toList_some, List.head?_cons, Option.some.injEq] at found read
      simp only [read, found]
      rfl
  · intro f o clean
    have read := Condition.ofJson_spec o
    cases has : operatorFlaw? o with
    | some other => simp [has] at clean
    | none =>
      simp only [has] at read
      obtain ⟨c, reads, -⟩ := read
      exact ⟨f.push field c, by simp only [reads]; rfl⟩

/-- Operators whose form has no flaw are those of some conditions. -/
theorem conditions_of_formed (formed : operators.filterMap operatorFlaw? = []) :
    ∃ conditions : List Condition,
      (conditions.map fun c => (c.key, c.operandJson)) = operators ∧
        ∀ c ∈ conditions, c.Finite := by
  induction operators with
  | nil => exact ⟨[], rfl, by simp⟩
  | cons o rest ih =>
    have read := Condition.ofJson_spec o
    cases has : operatorFlaw? o with
    | some other => simp [has] at formed
    | none =>
      simp only [has] at read
      rw [List.filterMap_cons_none has] at formed
      obtain ⟨c, -, same, finite⟩ := read
      obtain ⟨conditions, sameRest, finiteRest⟩ := ih formed
      exact ⟨c :: conditions, by rw [List.map_cons, same, sameRest],
        List.forall_mem_cons.2 ⟨finite, finiteRest⟩⟩

theorem addMember_of_flaw {m : String × Json} (first : (memberFlaws m).head? = some flaw)
    (f : Filter) : f.addMember m = .error flaw := by
  obtain ⟨field, value⟩ := m
  cases value with
  | object operators => exact addOperators_of_flaw first f
  | _ =>
    obtain rfl := Option.some.inj first
    rfl

/-- A member whose form has no flaw is that of an entry. -/
theorem entry_of_formed {m : String × Json} (formed : memberFlaws m = []) :
    ∃ entry : FieldFilter, member entry = m ∧ ∀ c ∈ entry.conditions, c.Finite := by
  obtain ⟨field, value⟩ := m
  cases value with
  | object operators =>
    obtain ⟨conditions, rfl, finite⟩ := conditions_of_formed formed
    exact ⟨⟨field, conditions⟩, rfl, finite⟩
  | _ => cases formed

/-- The first flaw of form is the one that reading stops at. -/
theorem assemble_of_flaw (first : (formFlaws v).head? = some flaw) : assemble v = .error flaw := by
  cases v with
  | object members =>
    refine foldlM_of_flaw _ (fun f m flaw found => addMember_of_flaw found f) ?_ first empty
    intro f m formed
    obtain ⟨entry, rfl, finite⟩ := entry_of_formed formed
    exact ⟨_, addOperators_eq finite⟩
  | _ =>
    obtain rfl := Option.some.inj first
    rfl

/-- A value whose form has no flaw has entries for members. -/
theorem entries_of_formed (formed : formFlaws v = []) :
    ∃ entries : List FieldFilter, v = .object (entries.map member) ∧
      ∀ entry ∈ entries, ∀ c ∈ entry.conditions, c.Finite := by
  cases v with
  | object members =>
    rw [formFlaws] at formed
    induction members with
    | nil => exact ⟨[], rfl, by simp⟩
    | cons m rest ih =>
      rw [List.flatMap_cons, List.append_eq_nil_iff] at formed
      obtain ⟨entry, rfl, finite⟩ := entry_of_formed formed.1
      obtain ⟨entries, same, finiteRest⟩ := ih formed.2
      obtain rfl := Json.object.inj same
      exact ⟨entry :: entries, rfl, List.forall_mem_cons.2 ⟨finite, finiteRest⟩⟩
  | _ => cases formed

/-! ## What is accepted -/

theorem ofOneKind_iff {operands : List Scalar} :
    ofOneKind operands = true ↔ ∃ kind, ∀ s ∈ operands, s.kind = kind := by
  cases operands with
  | nil => exact iff_of_true rfl ⟨.text, by simp⟩
  | cons first rest =>
    simp only [ofOneKind, List.all_eq_true, decide_eq_true_eq]
    constructor
    · intro same
      exact ⟨first.kind, List.forall_mem_cons.2 ⟨rfl, same⟩⟩
    · rintro ⟨kind, each⟩ s present
      rw [each s (List.mem_cons_of_mem _ present), each first List.mem_cons_self]

theorem scalarKind?_toJson {s : Scalar} (finite : s.nonFinite? = none) :
    s.toJson.scalarKind? = some s.kind := by
  cases s with
  | infinite negative => cases finite
  | nan => cases finite
  | _ => rfl

variable {c : Condition}

/-- The operator of a condition is accepted when its operands are of one kind. -/
theorem operatorAccepted_iff (finite : c.Finite) :
    OperatorAccepted (c.key, c.operandJson) ↔ ofOneKind c.operands := by
  have list (operands : List Scalar) (finite : ∀ s ∈ operands, s.nonFinite? = none) (key : String)
      (known : key ∈ listKeys) (other : key ∉ comparisonKeys) :
      OperatorAccepted (key, .array (operands.map Scalar.toJson)) ↔ ofOneKind operands := by
    rw [ofOneKind_iff]
    constructor
    · intro accepted
      cases accepted with
      | compares known => exact absurd known other
      | lists known kind ofKind =>
        refine ⟨kind, fun s present => ?_⟩
        have read := ofKind _ (List.mem_map_of_mem present)
        rw [scalarKind?_toJson (finite s present)] at read
        exact Option.some.inj read
    · rintro ⟨kind, each⟩
      refine .lists known kind fun item present => ?_
      obtain ⟨s, has, rfl⟩ := List.mem_map.1 present
      rw [scalarKind?_toJson (finite s has), each s has]
  cases c with
  | compare comparison operand =>
    have scalar : operand.toJson.scalarKind? ≠ none := by
      rw [scalarKind?_toJson (finite operand List.mem_cons_self)]
      exact Option.some_ne_none _
    have single : ofOneKind [operand] = true := rfl
    exact iff_of_true (.compares (mem_comparisonKeys.2 ⟨comparison, rfl⟩) scalar) single
  | within operands => exact list operands finite "in" (by decide) (by decide)
  | outside operands => exact list operands finite "nin" (by decide) (by decide)

theorem checkCondition_of_finite (finite : c.Finite) :
    checkCondition c = if ofOneKind c.operands then .ok () else .error (.mixedKinds c.key) := by
  have none : c.operands.findSome? Scalar.nonFinite? = none := List.findSome?_eq_none_iff.2 finite
  simp only [checkCondition, none]

theorem memberAccepted_iff {entry : FieldFilter} (finite : ∀ c ∈ entry.conditions, c.Finite) :
    MemberAccepted (member entry) ↔
      (∀ c ∈ entry.conditions, checkCondition c = .ok ()) ∧
        (entry.conditions ≠ [] → checkName entry.field = .ok ()) := by
  have each : (∀ c ∈ entry.conditions, checkCondition c = .ok ()) ↔
      ∀ o ∈ entry.conditions.map fun c => (c.key, c.operandJson), OperatorAccepted o := by
    rw [List.forall_mem_map]
    refine forall₂_congr fun c present => ?_
    rw [operatorAccepted_iff (finite c present), checkCondition_of_finite (finite c present)]
    by_cases single : ofOneKind c.operands <;> simp [single]
  rw [each, checkName_eq_ok_iff]
  constructor
  · rintro ⟨accepted, name⟩
    exact ⟨accepted, fun present => name (by simpa using present)⟩
  · rintro ⟨accepted, name⟩
    exact .operators accepted fun present => name (by simpa using present)

/-- What is accepted has no flaw of form. -/
theorem formFlaws_of_accepted (accepted : Accepted v) : formFlaws v = [] := by
  cases accepted with
  | fields each =>
    refine List.flatMap_eq_nil_iff.2 fun m present => ?_
    cases each m present with
    | operators each =>
      refine List.filterMap_eq_nil_iff.2 fun o present => ?_
      cases each o present with
      | compares known scalar => simp [operatorFlaw?, known, scalar]
      | @lists key items known kind ofKind =>
        have other : key ∉ comparisonKeys := by
          simp only [listKeys, List.mem_cons, List.not_mem_nil, or_false] at known
          rcases known with rfl | rfl <;> decide
        have scalars : items.find? (·.scalarKind? = none) = none := by
          refine List.find?_eq_none.2 fun item present => ?_
          simp [ofKind item present]
        simp [operatorFlaw?, known, other, scalars]

/-! ## What is read -/

/-- The first item that fails gives the failure. -/
theorem exists_of_forM_eq_error {ε α : Type} {f : α → Except ε PUnit} {items : List α} {e : ε}
    (failed : items.forM f = .error e) : ∃ item ∈ items, f item = .error e := by
  induction items with
  | nil => cases failed
  | cons item rest ih =>
    rw [List.forM_eq_forM] at ih
    rw [List.forM_eq_forM, List.forM_cons] at failed
    cases first : f item with
    | error other =>
      rw [first] at failed
      obtain rfl := Except.error.inj failed
      exact ⟨item, List.mem_cons_self, first⟩
    | ok _ =>
      rw [first] at failed
      obtain ⟨other, present, fails⟩ := ih failed
      exact ⟨other, List.mem_cons_of_mem _ present, fails⟩

/-- A filter of finite operands is only turned down for its content. -/
theorem ofContent_of_check {f : Filter}
    (finite : ∀ entry ∈ f.fields, ∀ c ∈ entry.conditions, c.Finite)
    (failed : f.check = .error flaw) : flaw.OfContent := by
  obtain ⟨entry, present, fails⟩ := exists_of_forM_eq_error failed
  unfold checkField at fails
  cases name : checkName entry.field with
  | error other =>
    rw [name] at fails
    obtain rfl := Except.error.inj fails
    unfold checkName at name
    split at name
    · obtain rfl := Except.error.inj name
      exact .emptyName
    split at name
    · obtain rfl := Except.error.inj name
      exact .quoteInName _
    · cases name
  | ok _ =>
    rw [name] at fails
    obtain ⟨c, has, fails⟩ := exists_of_forM_eq_error fails
    rw [checkCondition_of_finite (finite entry present c has)] at fails
    split at fails
    · cases fails
    · obtain rfl := Except.error.inj fails
      exact .mixedKinds _

/-- The entries that a filter is made of: those with conditions. -/
def withConditions (entries : List FieldFilter) : Filter :=
  ⟨entries.filter fun entry => entry.conditions ≠ []⟩

section Formed

variable {entries : List FieldFilter}

theorem mem_withConditions {entry : FieldFilter} :
    entry ∈ (withConditions entries).fields ↔ entry ∈ entries ∧ entry.conditions ≠ [] := by
  simp [withConditions]

/-- In a canonical value names and operators are in order. -/
theorem sorted_of_canonical (canonical : (Json.object (entries.map member)).Canonical) :
    entries.Pairwise (·.field < ·.field) ∧
      ∀ entry ∈ entries, entry.conditions.Pairwise (·.key < ·.key) := by
  rw [Json.Canonical, Json.canonicalMembers_iff, List.pairwise_map, List.forall_mem_map]
    at canonical
  refine ⟨canonical.1, fun entry present => ?_⟩
  have sorted := canonical.2 entry present
  rw [member, Json.Canonical, List.pairwise_map] at sorted
  exact sorted.1

/-- Where the form has no flaw, what is read is made of the entries, if it passes the
check. -/
theorem ofJson_members (names : (entries.map FieldFilter.field).Nodup)
    (finite : ∀ entry ∈ entries, ∀ c ∈ entry.conditions, c.Finite) :
    ofJson (.object (entries.map member)) =
      (withConditions entries).check.map fun _ => withConditions entries := by
  rw [ofJson, assemble_entries names finite]
  show ((withConditions entries).check >>= fun _ => pure (withConditions entries)) = _
  cases (withConditions entries).check <;> rfl

theorem accepted_iff_valid (finite : ∀ entry ∈ entries, ∀ c ∈ entry.conditions, c.Finite) :
    Accepted (.object (entries.map member)) ↔ (withConditions entries).Valid := by
  have each : Accepted (.object (entries.map member)) ↔
      ∀ entry ∈ entries, MemberAccepted (member entry) := by
    rw [← List.forall_mem_map (f := member) (P := MemberAccepted)]
    constructor
    · rintro ⟨each⟩
      exact each
    · exact .fields
  rw [each, valid_iff]
  simp only [mem_withConditions]
  constructor
  · rintro accepted entry ⟨present, some_conditions⟩
    obtain ⟨conditions, name⟩ := (memberAccepted_iff (finite entry present)).1
      (accepted entry present)
    exact ⟨name some_conditions, conditions⟩
  · intro valid entry present
    refine (memberAccepted_iff (finite entry present)).2
      ⟨fun c has => ?_, fun some_conditions => ?_⟩
    · exact (valid entry ⟨present, List.ne_nil_of_mem has⟩).2 c has
    · exact (valid entry ⟨present, some_conditions⟩).1

theorem withoutBare_members :
    withoutBare (.object (entries.map member)) =
      .object ((withConditions entries).fields.map member) := by
  have bare (entry : FieldFilter) :
      (!(member entry).2.isEmptyObject) = decide (entry.conditions ≠ []) := by
    obtain ⟨field, conditions⟩ := entry
    cases conditions <;> rfl
  rw [withoutBare, List.filter_map, withConditions]
  simp only [Function.comp_def, bare]

theorem operatorsOf_members :
    operatorsOf (.object (entries.map member)) =
      (withConditions entries).tests.map fun t => (t.1, t.2.key, t.2.operandJson) := by
  rw [operatorsOf, withConditions, tests]
  induction entries with
  | nil => rfl
  | cons entry rest ih =>
    rw [List.map_cons, List.flatMap_cons, ih]
    by_cases bare : entry.conditions = [] <;> simp [member, bare]

/-- What is made of entries in order is tidy, and written as it is. -/
theorem written_withConditions (sorted : entries.Pairwise (·.field < ·.field))
    (sortedConditions : ∀ entry ∈ entries, entry.conditions.Pairwise (·.key < ·.key)) :
    (withConditions entries).Tidy ∧
      (withConditions entries).written = withConditions entries := by
  have sortedFields : (withConditions entries).fields.Pairwise (·.field < ·.field) :=
    sorted.filter _
  have each : ((withConditions entries).fields.map fun entry =>
      (⟨entry.field, lastByKey Condition.key entry.conditions⟩ : FieldFilter)) =
        (withConditions entries).fields := by
    conv => rhs; rw [← List.map_id (withConditions entries).fields]
    refine List.map_congr_left fun entry present => ?_
    rw [lastByKey_of_sorted (sortedConditions entry (mem_withConditions.1 present).1)]
    rfl
  refine ⟨⟨nodup_of_sorted sortedFields, fun entry present => (mem_withConditions.1 present).2⟩, ?_⟩
  rw [written, each, lastByKey_of_sorted sortedFields]

/-- Conditions in the order of fields and operators. -/
theorem pairwise_tests (sorted : entries.Pairwise (·.field < ·.field))
    (sortedConditions : ∀ entry ∈ entries, entry.conditions.Pairwise (·.key < ·.key)) :
    ((withConditions entries).tests.map fun t => (utf8 t.1, utf8 t.2.key)).Pairwise
      (Prod.Lex (· < ·) (· < ·)) := by
  rw [List.pairwise_map, tests, List.pairwise_flatMap]
  refine ⟨fun entry present => ?_, ?_⟩
  · rw [List.pairwise_map]
    refine (sortedConditions entry (mem_withConditions.1 present).1).imp fun before => ?_
    exact Prod.Lex.right _ (utf8_lt_of_lt before)
  · refine (sorted.filter _).imp fun before => ?_
    rintro _ first _ second
    obtain ⟨c, -, rfl⟩ := List.mem_map.1 first
    obtain ⟨d, -, rfl⟩ := List.mem_map.1 second
    exact Prod.Lex.left _ _ (utf8_lt_of_lt before)

end Formed

theorem Flaw.fault_eq_unknownOperator {op : String} :
    flaw.fault = .unknownOperator op ↔ flaw = .unknownOperator op := by
  cases flaw <;> simp [Flaw.fault]

/-- A flaw of form is none of content. -/
theorem not_ofContent_of_form (present : flaw ∈ formFlaws v) : ¬ flaw.OfContent := by
  rintro content
  cases v with
  | object members =>
    obtain ⟨⟨field, value⟩, -, inMember⟩ := List.mem_flatMap.1 present
    cases value with
    | object operators =>
      obtain ⟨⟨key, operand⟩, -, found⟩ := List.mem_filterMap.1 inMember
      simp only [operatorFlaw?] at found
      split at found
      · split at found
        · obtain rfl := Option.some.inj found
          cases content
        · cases found
      split at found
      · split at found
        · obtain ⟨item, -, rfl⟩ := Option.map_eq_some_iff.1 found
          cases content
        · obtain rfl := Option.some.inj found
          cases content
      · obtain rfl := Option.some.inj found
        cases content
    | _ =>
      rw [List.mem_singleton.1 inMember] at content
      cases content
  | _ =>
    rw [List.mem_singleton.1 present] at content
    cases content

/-- How reading ends: with the first flaw of form, with a flaw of content where the form
has none, or with a filter. -/
inductive Verdict (v : Json) : Except Flaw Filter → Prop
  | form {flaw : Flaw} (refused : ¬ Accepted v) (first : (formFlaws v).head? = some flaw)
      (notContent : ¬ flaw.OfContent) : Verdict v (.error flaw)
  | content {flaw : Flaw} (refused : ¬ Accepted v) (formed : formFlaws v = [])
      (content : flaw.OfContent) : Verdict v (.error flaw)
  | read {f : Filter} (accepted : Accepted v)
      (operators : (f.tests.map fun t => (t.1, t.2.key, t.2.operandJson)) = operatorsOf v)
      (ordered : (f.tests.map fun t => (utf8 t.1, utf8 t.2.key)).Pairwise
        (Prod.Lex (· < ·) (· < ·)))
      (tidy : f.Tidy) (written : f.toJson = withoutBare v) (again : ofJson f.toJson = .ok f) :
      Verdict v (.ok f)

/-- Where the form has no flaw, the value has entries for members, and the check of their
filter decides. -/
theorem verdict_of_formed (canonical : v.Canonical) (formed : formFlaws v = []) :
    Verdict v (ofJson v) := by
  obtain ⟨entries, rfl, finite⟩ := entries_of_formed formed
  obtain ⟨sorted, sortedConditions⟩ := sorted_of_canonical canonical
  rw [ofJson_members (nodup_of_sorted sorted) finite]
  cases checked : (withConditions entries).check with
  | ok _ =>
    have valid : (withConditions entries).Valid := checked
    obtain ⟨tidy, written⟩ := written_withConditions sorted sortedConditions
    refine .read ((accepted_iff_valid finite).2 valid) operatorsOf_members.symm
      (pairwise_tests sorted sortedConditions) tidy ?_ ?_
    · rw [toJson_eq, written, withoutBare_members]
    · rw [ofJson_toJson tidy valid, written]
  | error stop =>
    have invalid : ¬ (withConditions entries).Valid := by
      rw [Valid, checked]
      intro passes
      cases passes
    refine .content (mt (accepted_iff_valid finite).1 invalid) formed ?_
    refine ofContent_of_check (fun entry present => ?_) checked
    exact finite entry (mem_withConditions.1 present).1

/-- What is read of a value, and why it is turned down where it is. -/
theorem verdict (canonical : v.Canonical) : Verdict v (ofJson v) := by
  cases first : (formFlaws v).head? with
  | none => exact verdict_of_formed canonical (List.head?_eq_none_iff.1 first)
  | some stop =>
    -- Reading stops at the first flaw of form.
    have read : ofJson v = .error stop := by
      rw [ofJson, assemble_of_flaw first]
      rfl
    rw [read]
    refine .form (fun accepted => ?_) first (not_ofContent_of_form (List.mem_of_head? first))
    rw [formFlaws_of_accepted accepted] at first
    cases first

/-- What reading does with any JSON value.

It succeeds exactly on the grammar. The filter that is read has a condition for each
operator of each field and no other, in the order of the bytes of fields and then of
operators. It is written as the value that was read, less the fields that had no
operator, and that is read as the same filter.

A value that is not read is turned down for the first flaw of its form, so for an
unknown operator exactly when that is the first; and for a field name or a list of
mixed kinds only when its form has no flaw. -/
theorem reading_exact (canonical : v.Canonical) :
    ((∃ f, ofJson v = .ok f) ↔ Accepted v) ∧
    (∀ f, ofJson v = .ok f →
      (f.tests.map fun t => (t.1, t.2.key, t.2.operandJson)) = operatorsOf v ∧
      (f.tests.map fun t => (utf8 t.1, utf8 t.2.key)).Pairwise (Prod.Lex (· < ·) (· < ·)) ∧
      f.Tidy ∧ f.toJson = withoutBare v ∧ ofJson f.toJson = .ok f) ∧
    (∀ flaw, ofJson v = .error flaw →
      (∀ op, flaw.fault = .unknownOperator op ↔
        (formFlaws v).head? = some (.unknownOperator op)) ∧
      (flaw.OfContent ↔ formFlaws v = []) ∧
      (¬ flaw.OfContent → (formFlaws v).head? = some flaw)) := by
  have ends := verdict canonical
  generalize ofJson v = outcome at ends ⊢
  cases ends with
  | form refused first notContent =>
    refine ⟨iff_of_false (by simp) refused, by simp, fun flaw fails => ?_⟩
    obtain rfl := Except.error.inj fails
    refine ⟨fun op => ?_, iff_of_false notContent fun none => ?_, fun _ => first⟩
    · rw [Flaw.fault_eq_unknownOperator, first, Option.some.injEq]
    · rw [none] at first
      cases first
  | content refused formed content =>
    refine ⟨iff_of_false (by simp) refused, by simp, fun flaw fails => ?_⟩
    obtain rfl := Except.error.inj fails
    refine ⟨fun op => ?_, iff_of_true content formed, fun form => absurd content form⟩
    rw [Flaw.fault_eq_unknownOperator, formed]
    refine iff_of_false ?_ (Option.some_ne_none _).symm
    rintro rfl
    cases content
  | read accepted operators ordered tidy written again =>
    refine ⟨iff_of_true ⟨_, rfl⟩ accepted, fun f reads => ?_, by simp⟩
    obtain rfl := Except.ok.inj reads
    exact ⟨operators, ordered, tidy, written, again⟩

/-- A filter with two fields of which one has two operators, and a field without any
whose name no filter may have. -/
def twoFields : Json :=
  .object [("", .object []), ("a", .object [("gt", .number one), ("lte", .number two)]),
    ("b", .object [("in", .array [.string "x", .string "y"])])]

/-- A misspelled operator, after a list of mixed kinds under a name that has a quote. -/
def misspelled : Json :=
  .object [("\"", .object [("in", .array [.string "x", .number one])]),
    ("a", .object [("between", .number one), ("gt", .null)])]

/-- The one is read and written without the first field. The other is turned down for
the operator, although name and list come before it. -/
theorem reading_exact_two :
    (∃ f, ofJson twoFields = .ok f ∧ f.toJson = withoutBare twoFields ∧
      ofJson f.toJson = .ok f) ∧
    ∃ flaw, ofJson misspelled = .error flaw ∧ flaw.fault = .unknownOperator "between" := by
  have canonical : twoFields.Canonical ∧ misspelled.Canonical := by
    simp only [twoFields, misspelled, Json.Canonical, Json.CanonicalMembers, Json.CanonicalItems]
    decide
  have first : (formFlaws misspelled).head? = some (.unknownOperator "between") := rfl
  have reads : ofJson twoFields = .ok (build [("a", .compare .gt (.number one)),
    ("a", .compare .lte (.number two)), ("b", .within [.text "x", .text "y"])]) := rfl
  have fails : ofJson misspelled = .error (.unknownOperator "between") := rfl
  obtain ⟨-, read, -⟩ := reading_exact canonical.1
  obtain ⟨-, -, turnedDown⟩ := reading_exact canonical.2
  obtain ⟨-, -, -, written, again⟩ := read _ reads
  exact ⟨⟨_, reads, written, again⟩, _, fails, ((turnedDown _ fails).1 "between").2 first⟩

end Filter

end Chronicle
