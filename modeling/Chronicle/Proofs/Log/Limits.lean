import Chronicle.Query.Nesting
import Chronicle.Query.Statement
import Mathlib.Data.List.Basic

/-!
# Which statements can be prepared

A statement can be prepared when its text has no NUL, it has few enough
parameters and its condition nests little enough. The text of a selection has a
NUL exactly when the name of a tested field has one (`Selection.hasNul_fragment`),
since all else that a caller chooses is a parameter; what remains are the two
limits (`Statement.selectFits`, `Statement.guardFits`). A guarded append is never
easier to prepare than the read with the same floor (`Statement.canSelect_of_canGuard`).
-/

namespace Chronicle

/-- A NUL is in the text. -/
def HasNul (text : String) : Prop := Char.ofNat 0 ∈ text.toList

instance (text : String) : Decidable (HasNul text) := inferInstanceAs (Decidable (_ ∈ _))

/-- A text that is spelled out has a NUL only where one is spelled. -/
theorem not_hasNul_ofList {cs : List Char} (clean : cs.contains (Char.ofNat 0) = false) :
    ¬ HasNul (String.ofList cs) := by
  rw [HasNul, String.toList_ofList]
  simpa using clean

section Texts

variable {a b separator : String} {parts : List String}

@[simp]
theorem hasNul_append : HasNul (a ++ b) ↔ HasNul a ∨ HasNul b := by
  simp [HasNul, String.toList_append]

/-- What stands between some texts does not matter when it has no NUL. -/
theorem hasNul_intercalate (clean : ¬ HasNul separator) :
    HasNul (separator.intercalate parts) ↔ ∃ part ∈ parts, HasNul part := by
  induction parts with
  | nil => simp [HasNul]
  | cons first rest ih =>
    cases rest with
    | nil => simp
    | cons second rest =>
      rw [String.intercalate_cons_cons, hasNul_append, hasNul_append, ih]
      simp [clean]

theorem hasNul_intercalate_replicate (clean : ¬ HasNul separator) (n : Nat) (item : ¬ HasNul a) :
    ¬ HasNul (separator.intercalate (List.replicate n a)) := by
  rw [hasNul_intercalate clean]
  rintro ⟨part, present, has⟩
  rw [List.eq_of_mem_replicate present] at has
  exact item has

end Texts

/-! ## The texts of selections -/

theorem mem_doubleQuotes {c : Char} (notQuote : c ≠ '\'') (cs : List Char) :
    c ∈ doubleQuotes cs ↔ c ∈ cs := by
  induction cs with
  | nil => rfl
  | cons d rest ih =>
    rw [doubleQuotes]
    split
    · rename_i isQuote
      simp [ih, isQuote, notQuote]
    · simp [ih]

theorem hasNul_pathLiteral (field : String) : HasNul (pathLiteral field) ↔ HasNul field := by
  have opening : ¬ HasNul "'$.\"" := not_hasNul_ofList rfl
  have closing : ¬ HasNul "\"'" := not_hasNul_ofList rfl
  have inside : HasNul (String.ofList (doubleQuotes field.toList)) ↔ HasNul field := by
    simp only [HasNul, String.toList_ofList]
    exact mem_doubleQuotes (by decide) _
  rw [pathLiteral, hasNul_append, hasNul_append, inside]
  simp [opening, closing]

theorem hasNul_castText (field : String) (kind : ScalarKind) :
    HasNul (castText field kind) ↔ HasNul field := by
  have cast : ¬ HasNul "CAST(" := not_hasNul_ofList rfl
  have extract : ¬ HasNul "json_extract(data, " := not_hasNul_ofList rfl
  have close : ¬ HasNul ")" := not_hasNul_ofList rfl
  have as : ¬ HasNul " AS " := not_hasNul_ofList rfl
  have type : ¬ HasNul kind.castType := by cases kind <;> exact not_hasNul_ofList rfl
  unfold castText extractText
  simp [hasNul_pathLiteral, cast, extract, close, as, type]

theorem hasNul_fieldText (field : String) (kind : ScalarKind) :
    HasNul (fieldText field kind) ↔ HasNul field := by
  cases kind with
  | text =>
    have opening : ¬ HasNul "CASE json_type(data, " := not_hasNul_ofList rfl
    have middle :
        ¬ HasNul ") WHEN 'true' THEN 'true' WHEN 'false' THEN 'false' ELSE " :=
      not_hasNul_ofList rfl
    have closing : ¬ HasNul " END" := not_hasNul_ofList rfl
    unfold fieldText
    simp [hasNul_pathLiteral, hasNul_castText, opening, middle, closing]
  | number => exact hasNul_castText field .number
  | bool => exact hasNul_castText field .bool

theorem not_hasNul_placeholders (n : Nat) : ¬ HasNul (placeholders n) :=
  hasNul_intercalate_replicate (not_hasNul_ofList rfl) n (not_hasNul_ofList rfl)

theorem not_hasNul_relation (relation : Relation) : ¬ HasNul relation.fragment.text := by
  have space : ¬ HasNul " ?" := not_hasNul_ofList rfl
  have within : ¬ HasNul "IN (" := not_hasNul_ofList rfl
  have outside : ¬ HasNul "NOT IN (" := not_hasNul_ofList rfl
  have close : ¬ HasNul ")" := not_hasNul_ofList rfl
  cases relation with
  | compare comparison operand =>
    have symbol : ¬ HasNul comparison.symbol := by cases comparison <;> exact not_hasNul_ofList rfl
    simp [Relation.fragment, symbol, space]
  | within operands => simp [Relation.fragment, within, close, not_hasNul_placeholders]
  | outside operands => simp [Relation.fragment, outside, close, not_hasNul_placeholders]

theorem FieldTest.hasNul_fragment (t : FieldTest) : HasNul t.fragment.text ↔ HasNul t.field := by
  have space : ¬ HasNul " " := not_hasNul_ofList rfl
  simp [FieldTest.fragment, hasNul_fieldText, space, not_hasNul_relation]

theorem Fragment.hasNul_join {connective : String} (clean : ¬ HasNul connective)
    (parts : List Fragment) :
    HasNul (join connective parts).text ↔ ∃ part ∈ parts, HasNul part.text := by
  have opening : ¬ HasNul "(" := not_hasNul_ofList rfl
  have closing : ¬ HasNul ")" := not_hasNul_ofList rfl
  rw [join, hasNul_intercalate clean]
  simp [opening, closing]

theorem hasNul_allOf (tests : List FieldTest) :
    HasNul (allOf tests).text ↔ ∃ test ∈ tests, HasNul test.field := by
  unfold allOf
  split
  · rename_i none
    have constant : ¬ HasNul (Fragment.constant true).text := not_hasNul_ofList rfl
    simp [none, constant]
  · rw [Fragment.hasNul_join (not_hasNul_ofList rfl)]
    simp [FieldTest.hasNul_fragment]

/-- The names of the fields that are tested. -/
def StreamTest.fields : StreamTest → List String
  | never => []
  | ofTypes _ tests => tests.map FieldTest.field

theorem StreamTest.hasNul_fragment (t : StreamTest) :
    HasNul t.fragment.text ↔ ∃ field ∈ t.fields, HasNul field := by
  cases t with
  | never =>
    have constant : ¬ HasNul (Fragment.constant false).text := not_hasNul_ofList rfl
    simp [StreamTest.fragment, fields, constant]
  | ofTypes types tests =>
    have opening : ¬ HasNul "type IN (" := not_hasNul_ofList rfl
    have closing : ¬ HasNul ")" := not_hasNul_ofList rfl
    have among : ¬ HasNul (typeAmong types).text := by
      simp [typeAmong, opening, closing, not_hasNul_placeholders]
    rw [StreamTest.fragment, Fragment.hasNul_join (not_hasNul_ofList rfl)]
    simp [among, hasNul_allOf, fields]

namespace Selection

/-- The name of a tested field has a NUL. -/
def SpellsNul (s : Selection) : Prop := ∃ test ∈ s, ∃ field ∈ test.fields, HasNul field

instance (s : Selection) : Decidable s.SpellsNul := inferInstanceAs (Decidable (∃ _ ∈ _, _))

theorem hasNul_fragment (s : Selection) : HasNul s.fragment.text ↔ s.SpellsNul := by
  unfold fragment SpellsNul
  split
  · rename_i none
    have constant : ¬ HasNul (Fragment.constant false).text := not_hasNul_ofList rfl
    simp [none, constant]
  · rw [Fragment.hasNul_join (not_hasNul_ofList rfl)]
    simp [StreamTest.hasNul_fragment]

theorem params_fragment (s : Selection) :
    s.fragment.params = s.flatMap fun test => test.fragment.params := by
  unfold fragment
  split
  · rename_i none
    rw [none]
    rfl
  · exact List.flatMap_map ..

end Selection

theorem Fragment.isPreparable_iff (f : Fragment) :
    f.isPreparable ↔ ¬ HasNul f.text ∧ f.params.length ≤ paramLimit := by
  simp [isPreparable, HasNul]

namespace Statement

/-! ## Reading -/

/-- The statement that reads a selection is within the limits. -/
def selectFits (s : Selection) (after : Option EventId) : Bool :=
  !streamsNest s after.isSome && s.fragment.params.length + after.toList.length ≤
    Fragment.paramLimit

/-- The statement that reads a selection can be prepared. -/
def canSelect (s : Selection) (after : Option EventId) : Bool :=
  !streamsNest s after.isSome && (selectStreams s after).isPreparable

theorem hasNul_selectStreams (s : Selection) (after : Option EventId) :
    HasNul (selectStreams s after).text ↔ s.SpellsNul := by
  have opening : ¬ HasNul "SELECT " := not_hasNul_ofList rfl
  have columns : ¬ HasNul eventColumns := not_hasNul_ofList rfl
  have source : ¬ HasNul " FROM events WHERE (" := not_hasNul_ofList rfl
  have closing : ¬ HasNul ")" := not_hasNul_ofList rfl
  have floor : ¬ HasNul " AND id > ?" := not_hasNul_ofList rfl
  have order : ¬ HasNul " ORDER BY id ASC" := not_hasNul_ofList rfl
  cases after <;>
    simp [selectStreams, Selection.hasNul_fragment, opening, columns, source, closing, order,
      floor]

theorem length_selectStreams (s : Selection) (after : Option EventId) :
    (selectStreams s after).params.length = s.fragment.params.length + after.toList.length := by
  cases after <;> simp [selectStreams]

/-- Reading without a floor takes fewer parameters than reading with one, and does
not nest more. -/
theorem selectFits_of_floor {s : Selection} {floor : EventId} (fits : selectFits s (some floor)) :
    selectFits s none := by
  unfold selectFits streamsNest at fits
  rw [Bool.and_eq_true, Bool.not_eq_true', decide_eq_false_iff_not, decide_eq_true_eq] at fits
  obtain ⟨shallow, few⟩ := fits
  have grows : s.nesting.most ≤ (s.nesting.and .column).most := by
    unfold Nesting.and Nesting.or
    split <;> dsimp only <;> omega
  have shallowNone : ¬ levelLimit < s.nesting.most := fun deep =>
    shallow (Nat.lt_of_lt_of_le deep grows)
  have fewNone : s.fragment.params.length ≤ Fragment.paramLimit := Nat.le_of_succ_le few
  unfold selectFits streamsNest
  rw [Bool.and_eq_true, Bool.not_eq_true', decide_eq_false_iff_not, decide_eq_true_eq]
  exact ⟨shallowNone, fewNone⟩

theorem canSelect_iff (s : Selection) (after : Option EventId) :
    canSelect s after ↔ ¬ s.SpellsNul ∧ selectFits s after := by
  unfold canSelect selectFits
  rw [Bool.and_eq_true, Fragment.isPreparable_iff, hasNul_selectStreams, length_selectStreams,
    Bool.and_eq_true, decide_eq_true_eq]
  exact and_left_comm

/-! ## Listing projections -/

/-- The statement that lists projections that pass some tests is within the limits. -/
def listFits (tests : List FieldTest) : Bool :=
  !testsNest tests && 1 + (allOf tests).params.length ≤ Fragment.paramLimit

/-- The statement that lists the projections of a type that pass some tests can be
prepared. -/
def canList (type : String) (tests : List FieldTest) : Bool :=
  !testsNest tests && (selectProjections type tests).isPreparable

theorem hasNul_selectProjections (type : String) (tests : List FieldTest) :
    HasNul (selectProjections type tests).text ↔ ∃ test ∈ tests, HasNul test.field := by
  have opening : ¬ HasNul "SELECT " := not_hasNul_ofList rfl
  have columns : ¬ HasNul projectionColumns := not_hasNul_ofList rfl
  have source : ¬ HasNul " FROM projections WHERE type = ? AND (" := not_hasNul_ofList rfl
  have order : ¬ HasNul ") ORDER BY id ASC" := not_hasNul_ofList rfl
  simp [selectProjections, hasNul_allOf, opening, columns, source, order]

theorem canList_iff (type : String) (tests : List FieldTest) :
    canList type tests ↔ ¬ (∃ test ∈ tests, HasNul test.field) ∧ listFits tests := by
  unfold canList listFits
  rw [Bool.and_eq_true, Fragment.isPreparable_iff, hasNul_selectProjections, Bool.and_eq_true,
    decide_eq_true_eq, selectProjections, List.length_cons, Nat.add_comm]
  exact and_left_comm

/-- All projections of a type can be listed. -/
theorem canList_nil (type : String) : canList type [] := (canList_iff type []).2 ⟨by simp, by rfl⟩

/-! ## The last event of a type -/

/-- The statement that selects the last event of a type that passes some tests can be
prepared. It has the limits of a list of projections. -/
def canSelectLatest (type : String) (tests : List FieldTest) : Bool :=
  !testsNest tests && (selectLatest type tests).isPreparable

theorem hasNul_selectLatest (type : String) (tests : List FieldTest) :
    HasNul (selectLatest type tests).text ↔ ∃ test ∈ tests, HasNul test.field := by
  have opening : ¬ HasNul "SELECT " := not_hasNul_ofList rfl
  have columns : ¬ HasNul eventColumns := not_hasNul_ofList rfl
  have source : ¬ HasNul " FROM events WHERE type = ? AND (" := not_hasNul_ofList rfl
  have order : ¬ HasNul ") ORDER BY id DESC LIMIT 1" := not_hasNul_ofList rfl
  simp [selectLatest, hasNul_allOf, opening, columns, source, order]

theorem canSelectLatest_iff (type : String) (tests : List FieldTest) :
    canSelectLatest type tests ↔
      ¬ (∃ test ∈ tests, HasNul test.field) ∧ listFits tests := by
  unfold canSelectLatest listFits
  rw [Bool.and_eq_true, Fragment.isPreparable_iff, hasNul_selectLatest, Bool.and_eq_true,
    decide_eq_true_eq, selectLatest, List.length_cons, Nat.add_comm]
  exact and_left_comm

/-! ## Indexes -/

theorem not_hasNul_indexName {table : String} (clean : ¬ HasNul table) (field : String) :
    ¬ HasNul (indexName table field) := by
  have middle : ¬ HasNul "_data_idx_" := not_hasNul_ofList rfl
  have digit : ∀ n < 16, Nat.digitChar n ≠ Char.ofNat 0 := by decide
  have digits : ¬ HasNul (String.ofList (field.toUTF8.toList.flatMap hexByte)) := by
    rw [HasNul, String.toList_ofList, List.mem_flatMap]
    rintro ⟨b, -, isDigit⟩
    rcases List.mem_pair.1 isDigit with high | low
    · exact digit (b.toNat / 16) (Nat.div_lt_of_lt_mul b.toNat_lt) high.symm
    · exact digit (b.toNat % 16) (Nat.mod_lt _ (by decide)) low.symm
  rw [indexName, hasNul_append, hasNul_append, not_or, not_or]
  exact ⟨⟨clean, middle⟩, digits⟩

/-- The statement that creates an index on a field can be prepared unless the name of
the field has a NUL. -/
theorem createIndex_of_accepted {table field : String} (clean : ¬ HasNul table)
    (accepted : Filter.checkName field = .ok ()) :
    ∃ statement, createIndex table field = .ok statement ∧
      (statement.isPreparable ↔ ¬ HasNul field) := by
  have passes : Filter.validateName field = .ok () := by
    rw [Filter.validateName, accepted]
    rfl
  refine ⟨_, by rw [createIndex, passes]; rfl, ?_⟩
  have opening : ¬ HasNul "CREATE INDEX IF NOT EXISTS " := not_hasNul_ofList rfl
  have on : ¬ HasNul " ON " := not_hasNul_ofList rfl
  have parenthesis : ¬ HasNul " (" := not_hasNul_ofList rfl
  have closing : ¬ HasNul ")" := not_hasNul_ofList rfl
  rw [Fragment.isPreparable_iff]
  simp [hasNul_fieldText, not_hasNul_indexName clean, clean, opening, on, parenthesis, closing]

/-! ## Appending under a guard -/

/-- The statement that appends `rows` events under a guard is within the limits. -/
def guardFits (rows : Nat) (s : Selection) : Bool :=
  !guardNests s && 2 * rows + (1 + s.fragment.params.length) ≤ Fragment.paramLimit

/-- The statement that appends events under a guard can be prepared. -/
def canGuard (drafts : List Draft) (floor : EventId) (s : Selection) : Bool :=
  !guardNests s && (guardedInsert drafts floor s).isPreparable

theorem hasNul_guardedInsertText (rows : Nat) (guard : Fragment) :
    HasNul (guardedInsertText rows guard) ↔ HasNul guard.text := by
  have opening :
      ¬ HasNul "INSERT INTO events (type, data) SELECT column1, column2 FROM (VALUES " :=
    not_hasNul_ofList rfl
  have middle : ¬ HasNul ") WHERE NOT EXISTS (SELECT 1 FROM events WHERE id > ? AND (" :=
    not_hasNul_ofList rfl
  have closing : ¬ HasNul ")) RETURNING " := not_hasNul_ofList rfl
  have columns : ¬ HasNul eventColumns := not_hasNul_ofList rfl
  have values : ¬ HasNul (rowPlaceholders rows) :=
    hasNul_intercalate_replicate (not_hasNul_ofList rfl) rows (not_hasNul_ofList rfl)
  unfold guardedInsertText
  simp [opening, middle, closing, columns, values]

theorem length_guardedInsert (drafts : List Draft) (floor : EventId) (s : Selection) :
    (guardedInsert drafts floor s).params.length =
      2 * drafts.length + (1 + s.fragment.params.length) := by
  have values :
      (drafts.flatMap fun d => [Param.text d.type, Param.text d.data.text]).length =
        2 * drafts.length := by
    induction drafts with
    | nil => rfl
    | cons draft drafts ih =>
      rw [List.flatMap_cons, List.length_append, ih, List.length_cons]
      simp only [List.length_cons, List.length_nil]
      omega
  simp only [guardedInsert, List.length_append, List.length_cons, values]
  omega

theorem canGuard_iff (drafts : List Draft) (floor : EventId) (s : Selection) :
    canGuard drafts floor s ↔ ¬ s.SpellsNul ∧ guardFits drafts.length s := by
  unfold canGuard guardFits
  rw [Bool.and_eq_true, Fragment.isPreparable_iff, length_guardedInsert, Bool.and_eq_true,
    decide_eq_true_eq]
  simp only [guardedInsert]
  rw [hasNul_guardedInsertText, Selection.hasNul_fragment]
  exact and_left_comm

end Statement

end Chronicle
