import Chronicle.Proofs.Query.Names

/-!
# Indexes on payload fields

An index on a field is created where its name is free, so fields whose indexes had
the same name would be left without one. The name spells the bytes of the field in
lower-case digits: names that differ in case alone are those of one table and one
field (`Index.hasName_ofField`), and none is that of an index of the schema
(`Index.not_hasName_ofField`). So in a reachable store an index on a field is there
exactly when it was asked for (`Store.ofField_mem_perform`).

What is indexed is the text that stands to the left of a condition on the field that
asks for texts, and of no other condition (`Condition.hasLeft_fragment`): an index
serves its field (`Index.Serves`), and fields have indexes of their own
(`field_indexes_exact`).
-/

namespace Chronicle

/-! ## The names of indexes -/

theorem toList_toLower (text : String) : text.toLower.toList = text.toList.map Char.toLower :=
  String.toList_map

/-- The names of the tables have different first characters. -/
theorem TableName.eq_of_append {a b : TableName} {as bs : List Char}
    (same : a.text.toList ++ as = b.text.toList ++ bs) : a = b := by
  cases a <;> cases b <;> first | rfl | simp [text] at same

theorem TableName.text_injective : Function.Injective text := fun _ _ same =>
  eq_of_append (congrArg (·.toList ++ []) same)

namespace Statement

theorem hexByte_injective : Function.Injective hexByte := fun a b same => by
  have digits : ∀ m < 16, ∀ n < 16, Nat.digitChar m = Nat.digitChar n → m = n := by decide
  have bound (c : UInt8) : c.toNat / 16 < 16 ∧ c.toNat % 16 < 16 :=
    ⟨Nat.div_lt_of_lt_mul c.toNat_lt, Nat.mod_lt _ (by decide)⟩
  obtain ⟨high, rest⟩ := List.cons.inj same
  have quotient := digits _ (bound a).1 _ (bound b).1 high
  have remainder := digits _ (bound a).2 _ (bound b).2 (List.cons.inj rest).1
  exact UInt8.toNat_inj.1 (by omega)

/-- Bytes can be read back from how they are spelled. -/
theorem flatMap_hexByte_injective :
    Function.Injective fun bytes : List UInt8 => bytes.flatMap hexByte := by
  intro as
  induction as with
  | nil =>
    intro bs same
    cases bs with
    | nil => rfl
    | cons b bs => cases same
  | cons a as ih =>
    intro bs same
    cases bs with
    | nil => cases same
    | cons b bs =>
      obtain ⟨first, rest⟩ := List.append_inj same rfl
      rw [hexByte_injective first, ih rest]

theorem toList_indexName (table field : String) :
    (indexName table field).toList =
      table.toList ++ "_data_idx_".toList ++ (utf8 field).flatMap hexByte := by
  simp only [indexName, PathByte.toList_toUTF8, String.toList_append, String.toList_ofList]

theorem utf8_injective : Function.Injective utf8 := fun _ _ same =>
  String.toByteArray_inj.1 (ByteArray.ext (Array.toList_inj.1 same))

/-- The characters of an index's name need no quotes, and none is a capital. -/
theorem mem_indexName {table : TableName} {field : String} {c : Char}
    (present : c ∈ (indexName table.text field).toList) :
    (c.isAlphanum ∨ c = '_') ∧ c.toLower = c := by
  have digit : ∀ n < 16, ((Nat.digitChar n).isAlphanum ∨ Nat.digitChar n = '_') ∧
      (Nat.digitChar n).toLower = Nat.digitChar n := by decide
  have front : (table.text.toList ++ "_data_idx_".toList).all fun c =>
      (c.isAlphanum || c == '_') && c.toLower == c := by cases table <;> rfl
  rw [toList_indexName, List.mem_append, List.mem_flatMap] at present
  rcases present with inFront | ⟨byte, -, spelled⟩
  · simpa using List.all_eq_true.1 front c inFront
  · rcases List.mem_pair.1 spelled with rfl | rfl
    · exact digit _ (Nat.div_lt_of_lt_mul byte.toNat_lt)
    · exact digit _ (Nat.mod_lt _ (by decide))

theorem toLower_indexName (table : TableName) (field : String) :
    (indexName table.text field).toLower = indexName table.text field := by
  rw [← String.toList_inj, toList_toLower]
  exact (List.map_congr_left fun c present => (mem_indexName present).2).trans (List.map_id' _)

theorem indexName_inj {table table' : TableName} {field field' : String} :
    indexName table.text field = indexName table'.text field' ↔
      table = table' ∧ field = field' := by
  refine ⟨fun same => ?_, fun ⟨tables, fields⟩ => by rw [tables, fields]⟩
  rw [← String.toList_inj, toList_indexName, toList_indexName, List.append_assoc,
    List.append_assoc] at same
  obtain rfl := TableName.eq_of_append same
  have spelled := List.append_cancel_left (List.append_cancel_left same)
  exact ⟨rfl, utf8_injective (flatMap_hexByte_injective spelled)⟩

end Statement

namespace Index

/-- The index on a payload field of a table. -/
def ofField (table : TableName) (field : String) : Index :=
  ⟨Statement.indexName table.text field, table⟩

variable {table table' : TableName} {field field' : String} {index : Index}

theorem hasName_ofField :
    (ofField table field).hasName (ofField table' field').name ↔
      table = table' ∧ field = field' := by
  rw [hasName, decide_eq_true_eq, ofField, ofField, Statement.toLower_indexName,
    Statement.toLower_indexName, Statement.indexName_inj]

/-- No index of the schema has the name of an index on a field. -/
theorem not_hasName_ofField (schema : index ∈ Schema.indexes) :
    ¬ index.hasName (ofField table field).name := by
  have apart : ∀ index ∈ Schema.indexes,
      ¬ table.text.toList ++ "_data_idx_".toList <+: index.name.toList.map Char.toLower := by
    cases table <;> decide
  rw [hasName, decide_eq_true_eq, ofField, Statement.toLower_indexName]
  intro same
  refine apart index schema ?_
  rw [← toList_toLower, same, Statement.toList_indexName]
  exact List.prefix_append _ _

theorem ofField_ne (schema : index ∈ Schema.indexes) : ofField table field ≠ index := fun same => by
  have named : index.hasName (ofField table field).name := by simp [hasName, same]
  exact not_hasName_ofField schema named

theorem ofField_inj :
    ofField table field = ofField table' field' ↔ table = table' ∧ field = field' :=
  ⟨fun same => Statement.indexName_inj.1 (congrArg Index.name same),
    fun ⟨tables, fields⟩ => by rw [tables, fields]⟩

/-- The index is one of the schema or one on a field. -/
def IsKnown (index : Index) : Prop :=
  index ∈ Schema.indexes ∨ ∃ table field, index = ofField table field

theorem hasName_iff {name : String} :
    index.hasName name ↔
      index.name.toList.map Char.toLower = name.toList.map Char.toLower := by
  rw [hasName, decide_eq_true_eq, ← toList_toLower, ← toList_toLower, String.toList_inj]

/-- Among known indexes the name of an index on a field is its own. -/
theorem IsKnown.hasName_ofField (known : index.IsKnown) :
    index.hasName (ofField table field).name ↔ index = ofField table field := by
  rcases known with schema | ⟨table', field', rfl⟩
  · exact iff_of_false (not_hasName_ofField schema) fun same => ofField_ne schema same.symm
  · exact Index.hasName_ofField.trans ofField_inj.symm

end Index

/-! ## The indexes of a store -/

theorem TableName.ofText?_eq_some {text : String} {table : TableName} :
    ofText? text = some table ↔ text = table.text := by
  unfold ofText?
  cases table <;> split <;> simp_all [TableName.text]

namespace Tables

variable {t : Tables} {index new : Index} {table : TableName} {field : String}

theorem mem_addIndex (present : index ∈ (t.addIndex new).indexes) :
    index ∈ t.indexes ∨ index = new := by
  unfold addIndex at present
  split at present
  · exact .inl present
  · exact (List.mem_append.1 present).imp_right List.mem_singleton.1

/-- Among known indexes one on a field is added unless it is there. -/
theorem indexes_addIndex_ofField (known : ∀ index ∈ t.indexes, index.IsKnown) :
    (t.addIndex (.ofField table field)).indexes =
      if Index.ofField table field ∈ t.indexes then t.indexes
      else t.indexes ++ [.ofField table field] := by
  have taken : t.indexes.any (·.hasName (Index.ofField table field).name) ↔
      Index.ofField table field ∈ t.indexes := by
    rw [List.any_eq_true]
    constructor
    · rintro ⟨index, present, named⟩
      exact (known index present).hasName_ofField.1 named ▸ present
    · exact fun present => ⟨_, present, (known _ present).hasName_ofField.2 rfl⟩
  unfold addIndex
  by_cases present : Index.ofField table field ∈ t.indexes
  · rw [if_pos (taken.2 present), if_pos present]
  · rw [if_neg (taken.not.2 present), if_neg present]

theorem mem_addIndex_ofField (known : ∀ index ∈ t.indexes, index.IsKnown) :
    index ∈ (t.addIndex (.ofField table field)).indexes ↔
      index ∈ t.indexes ∨ index = .ofField table field := by
  rw [indexes_addIndex_ofField known]
  split
  · rename_i present
    exact ⟨.inl, fun has => has.elim id fun same => same ▸ present⟩
  · rw [List.mem_append, List.mem_singleton]

end Tables

namespace Catalog

/-- Completing adds the indexes of the schema whose names are free. -/
theorem indexes_completed (c : Catalog) :
    c.completed.indexes =
      c.indexes ++ Schema.indexes.filter fun index => ¬ c.indexes.any (·.hasName index.name) := by
  have apart : Schema.indexes.Pairwise fun a b => ¬ a.hasName b.name := by
    simp only [Index.hasName_iff]
    decide
  unfold completed withIndexes
  dsimp only
  generalize Schema.indexes = new at apart ⊢
  generalize c.indexes = found
  induction new generalizing found with
  | nil => simp
  | cons index rest ih =>
    obtain ⟨first, apart⟩ := List.pairwise_cons.1 apart
    rw [List.foldl_cons, ih apart]
    by_cases taken : found.any (·.hasName index.name)
    · rw [if_pos taken, List.filter_cons_of_neg (by simp [taken])]
    · have others : (rest.filter fun i => ¬ (found ++ [index]).any (·.hasName i.name)) =
          rest.filter fun i => ¬ found.any (·.hasName i.name) :=
        -- What was just added takes the name of none that follows.
        List.filter_congr fun other present => by simp [first other present]
      rw [if_neg taken, List.filter_cons_of_pos (by simp [taken]), others, List.append_assoc,
        List.singleton_append]

end Catalog

namespace Store

variable {s : Store} {c : Call} {table : TableName} {field : String}

theorem indexes_of_written {now : Instant} {drafts : List Draft} {t after : Tables}
    {rows : List StoredEvent} (written : Tables.insertAll now drafts t = .ok (rows, after)) :
    after.indexes = t.indexes := by
  obtain ⟨-, rfl, -⟩ := Tables.insertAll_eq_ok written
  rfl

/-- No call but two touches the indexes. -/
theorem indexes_perform (schema : c ≠ .initialiseSchema)
    (creates : ∀ table field, c ≠ .createIndex table field) (s : Store) :
    (c.perform s).tables.indexes = s.tables.indexes := by
  have reads {α : Type} {act : Action Store α} (keeps : act.Keeps content) :
      (act.run s).2.tables.indexes = s.tables.indexes :=
    congrArg Tables.indexes (content_eq_iff.1 (keeps s)).1
  cases c with
  | appendBatch drafts =>
    simp only [Call.perform, run_appendBatch]
    repeat' split
    case h_1 written => exact indexes_of_written written
    all_goals rfl
  | appendIfNoNewer drafts floor specs =>
    simp only [Call.perform, run_appendIfNoNewer]
    cases Selection.compile specs with
    | error fault => rfl
    | ok selection =>
      dsimp only
      repeat' split
      case h_1 written => exact indexes_of_written written
      all_goals rfl
  | latest type filter => exact reads (keeps_latest type filter)
  | streams specs after => exact reads (keeps_streams specs after)
  | getProjection type id => exact reads (keeps_getProjection type id)
  | queryProjections type filter => exact reads (keeps_queryProjections type filter)
  | saveProjection type id data event =>
    simp only [Call.perform, run_saveProjection]
    repeat' split
    all_goals rfl
  | forceProjection type id data =>
    simp only [Call.perform, run_forceProjection]
    repeat' split
    all_goals rfl
  | updateProjection type id data event =>
    simp only [Call.perform, run_updateProjection]
    repeat' split
    all_goals rfl
  | schemaVersion => exact reads keeps_schemaVersion
  | initialiseSchema => exact absurd rfl schema
  | createIndex table field => exact absurd rfl (creates table field)

theorem indexes_initialiseSchema (s : Store) :
    (initialiseSchema.run s).2.tables.indexes = s.tables.indexes ∨
      (initialiseSchema.run s).2.tables.indexes = s.tables.catalog.completed.indexes := by
  rw [run_initialiseSchema]
  split
  · exact .inl rfl
  · exact .inr rfl

/-- A call for an index fails and leaves the tables, or adds the index on the field
where its name is free. -/
theorem run_createIndex_cases (table field : String) (s : Store) :
    ((∃ fault, ((createIndex table field).run s).1 = .error fault) ∧
      ((createIndex table field).run s).2.tables = s.tables) ∨
    (((createIndex table field).run s).1 = .ok () ∧
      ∃ name : TableName, table = name.text ∧
        ((createIndex table field).run s).2.tables =
          s.tables.addIndex (.ofField name field)) := by
  rw [run_createIndex]
  split
  · exact .inl ⟨⟨_, rfl⟩, rfl⟩
  split
  · exact .inl ⟨⟨_, rfl⟩, rfl⟩
  · exact .inl ⟨⟨_, rfl⟩, rfl⟩
  rename_i name statement named created
  obtain rfl := TableName.ofText?_eq_some.1 named
  split
  · exact .inr ⟨rfl, name, rfl, rfl⟩
  · exact .inl ⟨⟨_, rfl⟩, rfl⟩

/-- A call leaves known indexes where there are no others. -/
theorem isKnown_perform (known : ∀ index ∈ s.tables.indexes, index.IsKnown) (c : Call) :
    ∀ index ∈ (c.perform s).tables.indexes, index.IsKnown := by
  by_cases schema : c = .initialiseSchema
  · subst schema
    intro index present
    rcases indexes_initialiseSchema s with same | completed
    · exact known index (same ▸ present)
    · rw [Call.perform, completed, Catalog.indexes_completed, List.mem_append] at present
      rcases present with old | new
      · exact known index old
      · exact .inl (List.mem_of_mem_filter new)
  by_cases creates : ∃ table field, c = .createIndex table field
  · obtain ⟨table, field, rfl⟩ := creates
    intro index present
    rcases run_createIndex_cases table field s with ⟨-, same⟩ | ⟨-, name, -, added⟩
    · exact known index (same ▸ present)
    · rw [Call.perform, added] at present
      rcases Tables.mem_addIndex present with old | rfl
      · exact known index old
      · exact .inr ⟨name, field, rfl⟩
  · rw [not_exists] at creates
    rw [indexes_perform schema fun table field same => creates table ⟨field, same⟩]
    exact known

/-- A reachable store has known indexes only. -/
theorem Reachable.isKnown (reachable : s.Reachable) :
    ∀ index ∈ s.tables.indexes, index.IsKnown := by
  induction reachable with
  | new now =>
    have indexes : (Store.new now).tables.indexes = Catalog.empty.completed.indexes := rfl
    rw [indexes, Catalog.indexes_completed]
    intro index present
    rcases List.mem_append.1 present with old | new
    · cases old
    · exact .inl (List.mem_of_mem_filter new)
  | step _ step ih =>
    cases step with
    | call c => exact isKnown_perform ih c
    | meanwhile => exact ih
  | crash _ ih => exact ih

/-- A call leaves an index on a field when it was there, or when the call is the one
for that index and succeeds. -/
theorem ofField_mem_perform (known : ∀ index ∈ s.tables.indexes, index.IsKnown) (c : Call) :
    Index.ofField table field ∈ (c.perform s).tables.indexes ↔
      Index.ofField table field ∈ s.tables.indexes ∨
        (c = .createIndex table.text field ∧
          ((createIndex table.text field).run s).1 = .ok ()) := by
  by_cases schema : c = .initialiseSchema
  · subst schema
    have same : Index.ofField table field ∈ (initialiseSchema.run s).2.tables.indexes ↔
        Index.ofField table field ∈ s.tables.indexes := by
      rcases indexes_initialiseSchema s with same | completed
      · rw [same]
      · rw [completed, Catalog.indexes_completed, List.mem_append, or_iff_left]
        · rfl
        · exact fun new => Index.ofField_ne (List.mem_of_mem_filter new) rfl
    rw [Call.perform, same]
    simp
  by_cases creates : ∃ table field, c = .createIndex table field
  · obtain ⟨table', field', rfl⟩ := creates
    rw [Call.perform, Call.createIndex.injEq]
    rcases run_createIndex_cases table' field' s with
      ⟨⟨fault, failed⟩, same⟩ | ⟨done, name, rfl, added⟩
    · rw [same, or_iff_left]
      rintro ⟨⟨rfl, rfl⟩, succeeded⟩
      rw [failed] at succeeded
      cases succeeded
    · rw [added, Tables.mem_addIndex_ofField known, Index.ofField_inj]
      refine or_congr_right ⟨?_, ?_⟩
      · rintro ⟨rfl, rfl⟩
        exact ⟨⟨rfl, rfl⟩, done⟩
      · rintro ⟨⟨tables, fields⟩, -⟩
        exact ⟨(TableName.text_injective tables).symm, fields.symm⟩
  · rw [not_exists] at creates
    have other : ∀ table field, c ≠ .createIndex table field :=
      fun table field same => creates table ⟨field, same⟩
    rw [indexes_perform schema other]
    simp [other table.text field]

end Store

/-! ## What is indexed -/

theorem doubleQuotes_injective : Function.Injective doubleQuotes := by
  intro cs
  induction cs with
  | nil =>
    intro ds same
    cases ds with
    | nil => rfl
    | cons d ds =>
      rw [doubleQuotes, doubleQuotes] at same
      split at same <;> cases same
  | cons c cs ih =>
    intro ds same
    cases ds with
    | nil =>
      rw [doubleQuotes, doubleQuotes] at same
      split at same <;> cases same
    | cons d ds =>
      rw [doubleQuotes, doubleQuotes] at same
      by_cases quote : c = '\'' <;> by_cases quote' : d = '\''
      · rw [if_pos quote, if_pos quote'] at same
        rw [quote, quote', ih (List.cons.inj (List.cons.inj same).2).2]
      · rw [if_pos quote, if_neg quote'] at same
        exact absurd (List.cons.inj same).1.symm quote'
      · rw [if_neg quote, if_pos quote'] at same
        exact absurd (List.cons.inj same).1 quote
      · rw [if_neg quote, if_neg quote'] at same
        obtain ⟨first, rest⟩ := List.cons.inj same
        rw [first, ih rest]

/-- An accepted name ends where a double quote follows. -/
theorem takeWhile_doubleQuotes {name : String} (accepted : Filter.checkName name = .ok ())
    (rest : List Char) :
    (doubleQuotes name.toList ++ '"' :: rest).takeWhile (· ≠ '"') = doubleQuotes name.toList := by
  have plain : ∀ c ∈ doubleQuotes name.toList, decide (c ≠ '"') := fun c present =>
    decide_eq_true fun quote => (Filter.checkName_eq_ok_iff.1 accepted).2
      ((mem_doubleQuotes (by decide) _).1 (quote ▸ present))
  rw [List.takeWhile_append_of_pos plain, List.takeWhile_cons_of_neg (by simp), List.append_nil]

/-- A field read as text has its name before the first double quote but one. -/
theorem exists_fieldText_eq (field : String) : ∃ rest, fieldText field .text =
    "CASE json_type(data, " ++
      ("'$.\"" ++ (String.ofList (doubleQuotes field.toList) ++ ("\"'" ++ rest))) := by
  refine ⟨") WHEN 'true' THEN 'true' WHEN 'false' THEN 'false' ELSE " ++
    (castText field .text ++ " END"), ?_⟩
  unfold fieldText pathLiteral
  simp only [String.append_assoc]

/-- A cast and a case have different fourth characters. -/
theorem cast_ne_case (a b : String) : "CAST(" ++ a ≠ "CASE json_type(data, " ++ b := fun same => by
  replace same := congrArg String.toList same
  rw [String.toList_append, String.toList_append, String.toList_ofList,
    String.toList_ofList] at same
  obtain ⟨-, later⟩ := List.cons.inj (List.cons.inj (List.cons.inj same).2).2
  exact absurd (List.cons.inj later).1 (by decide)

/-- A field read as text begins the text of no other field, and of itself only as it
is read as text. -/
theorem begins_fieldText {field other : String} (accepted : Filter.checkName field = .ok ())
    (accepted' : Filter.checkName other = .ok ()) {kind : ScalarKind} {sign rest : String}
    (same : fieldText other kind ++ sign = fieldText field .text ++ rest) :
    other = field ∧ kind = .text := by
  obtain ⟨after, spelled⟩ := exists_fieldText_eq field
  rw [spelled, String.append_assoc] at same
  have casts (kind : ScalarKind) :
      castText other kind ++ sign ≠ "CASE json_type(data, " ++
        ("'$.\"" ++ (String.ofList (doubleQuotes field.toList) ++ ("\"'" ++ after)) ++ rest) := by
    unfold castText
    rw [String.append_assoc, String.append_assoc, String.append_assoc, String.append_assoc]
    exact cast_ne_case _ _
  cases kind with
  | text =>
    obtain ⟨after', spelled'⟩ := exists_fieldText_eq other
    rw [spelled'] at same
    replace same := congrArg String.toList same
    simp only [String.toList_append, List.append_assoc] at same
    replace same := List.append_cancel_left (List.append_cancel_left same)
    have closing (rest : List Char) : "\"'".toList ++ rest = '"' :: '\'' :: rest := rfl
    simp only [String.toList_ofList] at same
    rw [closing, closing] at same
    -- Both names end where the first double quote follows.
    have names := congrArg (List.takeWhile (· ≠ '"')) same
    rw [takeWhile_doubleQuotes accepted', takeWhile_doubleQuotes accepted] at names
    exact ⟨String.toList_inj.1 (doubleQuotes_injective names), rfl⟩
  | number => exact absurd same (casts .number)
  | bool => exact absurd same (casts .bool)

namespace Condition

/-- The operands are texts. A list without operands asks for texts too. -/
def AsksText (c : Condition) : Prop := ∀ operand ∈ c.operands, operand.kind = .text

/-- In the text a side stands to the left of the condition's sign. -/
def HasLeft (c : Condition) (side text : String) : Prop :=
  ∃ rest, text = side ++ " " ++ c.symbol ++ " " ++ rest

variable {c : Condition} {field other : String}

/-- A condition whose operands are of one kind reads its field as text when they are
texts. -/
theorem kind_test_eq_text (oneKind : Filter.ofOneKind c.operands) :
    (c.test field).kind = .text ↔ c.AsksText := by
  show (c.operands.head?.map Scalar.kind).getD .text = .text ↔ c.AsksText
  constructor
  · intro text operand present
    rw [kind_of_oneKind oneKind present, text]
  · intro all
    cases operands : c.operands with
    | nil => rfl
    | cons first rest => exact all first (operands ▸ List.mem_cons_self)

theorem exists_fragment_eq (c : Condition) (field : String) : ∃ rest,
    (c.test field).fragment.text =
      fieldText field (c.test field).kind ++ " " ++ c.symbol ++ " " ++ rest := by
  have spaced (a : String) : " " ++ (a ++ " ?") = " " ++ a ++ " " ++ "?" := by
    have split : " ?" = " " ++ "?" := rfl
    rw [split, String.append_assoc, String.append_assoc]
  have within : "IN (" = "IN" ++ " " ++ "(" := rfl
  have outside : "NOT IN (" = "NOT IN" ++ " " ++ "(" := rfl
  unfold test FieldTest.fragment
  cases c with
  | compare comparison operand =>
    refine ⟨"?", ?_⟩
    simp only [Relation.fragment, symbol, String.append_assoc, spaced]
  | within operands =>
    refine ⟨"(" ++ placeholders (operands.map Scalar.param).length ++ ")", ?_⟩
    simp only [Relation.fragment, symbol, String.append_assoc, within]
  | outside operands =>
    refine ⟨"(" ++ placeholders (operands.map Scalar.param).length ++ ")", ?_⟩
    simp only [Relation.fragment, symbol, String.append_assoc, outside]

/-- To the left of a condition on an accepted field stands another one read as text
when it is the same and the condition asks for texts. -/
theorem hasLeft_fragment (accepted : Filter.checkName field = .ok ())
    (accepted' : Filter.checkName other = .ok ()) (oneKind : Filter.ofOneKind c.operands) :
    c.HasLeft (fieldText field .text) (c.test other).fragment.text ↔
      other = field ∧ c.AsksText := by
  obtain ⟨rest, spelled⟩ := c.exists_fragment_eq other
  rw [HasLeft, spelled]
  constructor
  · rintro ⟨rest', same⟩
    simp only [String.append_assoc] at same
    obtain ⟨rfl, text⟩ := begins_fieldText accepted accepted' same
    exact ⟨rfl, (kind_test_eq_text oneKind).1 text⟩
  · rintro ⟨rfl, text⟩
    rw [(kind_test_eq_text oneKind).2 text]
    exact ⟨rest, rfl⟩

end Condition

namespace Filter

theorem ofOneKind_of_check {c : Condition} (passes : checkCondition c = .ok ()) :
    ofOneKind c.operands := by
  unfold checkCondition at passes
  split at passes
  · cases passes
  · by_contra mixed
    rw [if_neg mixed] at passes
    cases passes

/-- The texts of a filter's conditions as one condition. -/
def joined (parts : List String) : String :=
  if parts = [] then "1" else " AND ".intercalate (parts.map fun part => "(" ++ part ++ ")")

theorem allOf_text (tests : List FieldTest) :
    (allOf tests).text = joined (tests.map (·.fragment.text)) := by
  cases tests with
  | nil => rfl
  | cons test tests => simp [allOf, joined, Fragment.join, Function.comp_def]

/-- The conditions of a valid filter are compiled one by one, and a field read as
text stands to the left of those on that field that ask for texts. -/
theorem left_of_valid {f : Filter} (valid : f.Valid) {field : String}
    (accepted : checkName field = .ok ()) :
    ∃ parts, f.compile.map (fun tests => (allOf tests).text) = .ok (joined parts) ∧
      List.Forall₂ (fun t part => t.2.HasLeft (fieldText field .text) part ↔
        t.1 = field ∧ t.2.AsksText) f.tests parts := by
  refine ⟨f.fieldTests.map (·.fragment.text), ?_, ?_⟩
  · rw [compile_of_valid valid, ← allOf_text]
    rfl
  · rw [fieldTests, List.map_map, List.forall₂_map_right_iff, List.forall₂_same]
    rintro ⟨other, c⟩ present
    obtain ⟨entry, inFields, rfl, has⟩ := mem_tests.1 present
    obtain ⟨name, conditions⟩ := valid_iff.1 valid entry inFields
    exact Condition.hasLeft_fragment accepted name (ofOneKind_of_check (conditions c has))

end Filter

/-! ## Exact indexes -/

/-- The statement makes an index on an expression of a table, unless the name of the
index is taken. The name is a word, which ends where a blank follows. -/
structure Fragment.Creates (statement : Fragment) (index : Index) (expression : String) :
    Prop where
  text : statement.text = "CREATE INDEX IF NOT EXISTS " ++ index.name ++ " ON " ++
    index.table.text ++ " (" ++ expression ++ ")"
  params : statement.params = []
  word : ∀ c ∈ index.name.toList, c.isAlphanum ∨ c = '_'

/-- An index on an expression is what a call for a field asks for, is there when the
call was made, and serves the conditions on the field that ask for texts and no others. -/
structure Index.Serves (index : Index) (expression : String) (table : TableName)
    (field : String) : Prop where
  statement : ∃ statement, Statement.createIndex table.text field = .ok statement ∧
    statement.Creates index expression
  apart : ∀ other ∈ Schema.indexes, ¬ other.hasName index.name
  answer : ∀ s : Store, s.poisoned = false →
    ((Store.createIndex table.text field).run s).1 =
      if HasNul field then .error (.storage "statement cannot be prepared") else .ok ()
  stored : ∀ s : Store, s.Reachable → ∀ c : Store.Call,
    index ∈ (c.perform s).tables.indexes ↔ index ∈ s.tables.indexes ∨
      (c = .createIndex table.text field ∧
        ((Store.createIndex table.text field).run s).1 = .ok ())
  left : ∀ f : Filter, f.Valid → ∃ parts,
    f.compile.map (fun tests => (allOf tests).text) = .ok (Filter.joined parts) ∧
      List.Forall₂ (fun t part => t.2.HasLeft expression part ↔ t.1 = field ∧ t.2.AsksText)
        f.tests parts

/-- A statement makes one index on one expression. -/
theorem Fragment.Creates.unique {statement : Fragment} {index index' : Index}
    {expression expression' : String} (creates : statement.Creates index expression)
    (creates' : statement.Creates index' expression') :
    index = index' ∧ expression = expression' := by
  have ends {index : Index} {expression : String} (creates : statement.Creates index expression)
      (rest : List Char) :
      (index.name.toList ++ (" ON ".toList ++ rest)).takeWhile (· ≠ ' ') = index.name.toList := by
    have inWord : ∀ c ∈ index.name.toList, decide (c ≠ ' ') := fun c present =>
      decide_eq_true fun blank => by simpa [blank] using creates.word c present
    rw [List.takeWhile_append_of_pos inWord]
    simp
  have same := congrArg String.toList (creates.text.symm.trans creates'.text)
  simp only [String.toList_append, List.append_assoc] at same
  replace same := List.append_cancel_left same
  have names := congrArg (List.takeWhile (· ≠ ' ')) same
  rw [ends creates, ends creates'] at names
  rw [names] at same
  replace same := List.append_cancel_left (List.append_cancel_left same)
  obtain ⟨name, table⟩ := index
  obtain ⟨name', table'⟩ := index'
  obtain rfl : name = name' := String.toList_inj.1 names
  obtain rfl : table = table' := TableName.eq_of_append same
  have expressions := List.append_cancel_left (List.append_cancel_left same)
  exact ⟨rfl, String.toList_inj.1 (List.append_cancel_right expressions)⟩

/-- The index on an accepted field serves it. -/
theorem Index.serves_ofField {table : TableName} {field : String}
    (accepted : Filter.checkName field = .ok ()) :
    (ofField table field).Serves (fieldText field .text) table field where
  statement := by
    have passes : Filter.validateName field = .ok () := by
      rw [Filter.validateName, accepted]
      rfl
    refine ⟨_, by rw [Statement.createIndex, passes]; rfl, rfl, rfl, fun c present => ?_⟩
    exact (Statement.mem_indexName present).1
  apart other schema := not_hasName_ofField schema
  answer s sound := Store.run_createIndex_of_accepted accepted sound table
  stored s reachable c := Store.ofField_mem_perform reachable.isKnown c
  left f valid := Filter.left_of_valid valid accepted

/-- Accepted fields are served by indexes of their own, whose names differ in more than
case. -/
theorem field_indexes_exact (table table' : TableName) (field field' : String)
    (accepted : Filter.checkName field = .ok ()) (accepted' : Filter.checkName field' = .ok ()) :
    ∃ index index' : Index, ∃ expression expression',
      index.Serves expression table field ∧ index'.Serves expression' table' field' ∧
        (index.hasName index'.name ↔ table = table' ∧ field = field') :=
  ⟨_, _, _, _, Index.serves_ofField accepted, Index.serves_ofField accepted',
    Index.hasName_ofField⟩

/-- Two fields that differ in case alone, one with a quote, have an index each. -/
theorem field_indexes_exact_of_case :
    ∃ index index' : Index, ∃ expression expression',
      index.Serves expression .events "it's" ∧ index'.Serves expression' .events "IT'S" ∧
        ¬ index.hasName index'.name := by
  obtain ⟨index, index', expression, expression', serves, serves', names⟩ :=
    field_indexes_exact .events .events "it's" "IT'S" rfl rfl
  exact ⟨index, index', expression, expression', serves, serves', names.not.2 (by decide)⟩

end Chronicle
