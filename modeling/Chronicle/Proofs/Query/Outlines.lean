import Chronicle.Proofs.Query.Tokens

/-!
# What the conditions of queries spell

The text of each fragment consists of the tokens of an outline, in which its parameters
stand at the marks (`Fragment.Spells`). The outlines follow the tests: a test is a field
and a relation, and tests are joined in parentheses. Nothing that a caller chooses is
outside a literal or a mark, so a name changes nothing but the path it stands in
(`shapes_fieldOutline`), and the literals of a condition are those of its fields
(`Selection.literals_outline`).
-/

namespace Chronicle

open Lexer (Apart Closed Reads apart_ofList closed_ofList reads_ofList)

/-- The text of the fragment consists of the tokens of the outline, whose parentheses
match, and its parameters are those of the marks, in their order. -/
structure Fragment.Spells (f : Fragment) (outline : Outline) : Prop where
  reads : Reads f.text outline
  balanced : Token.Balanced outline
  params : f.params = outline.filterMap Token.slot?

/-! ## Parentheses -/

def parenthesized (inside : Outline) : Outline := .opening :: (inside ++ [.closing])

theorem apart_closing : Apart ")" := apart_ofList rfl rfl

theorem closed_closing : Closed ")" [.closing] := closed_ofList rfl

/-- What is between the parentheses, and nothing else, is kept of an outline in them. -/
theorem filterMap_parenthesized {β : Type} {kept : Token Param → Option β} (inside : Outline)
    (opening : kept .opening = none) (closing : kept .closing = none) :
    (parenthesized inside).filterMap kept = inside.filterMap kept := by
  rw [parenthesized, List.filterMap_cons_none opening, List.filterMap_append,
    List.filterMap_cons_none closing, List.filterMap_nil, List.append_nil]

@[simp]
theorem slots_parenthesized (inside : Outline) :
    (parenthesized inside).filterMap Token.slot? = inside.filterMap Token.slot? :=
  filterMap_parenthesized inside rfl rfl

@[simp]
theorem literals_parenthesized (inside : Outline) :
    (parenthesized inside).filterMap Token.literal? = inside.filterMap Token.literal? :=
  filterMap_parenthesized inside rfl rfl

theorem map_shape_parenthesized (inside : Outline) :
    (parenthesized inside).map Token.shape = parenthesized (inside.map Token.shape) := by
  rw [parenthesized, List.map_cons, List.map_append]
  rfl

/-- A fragment in parentheses, with words around them. -/
theorem Fragment.Spells.enclose {f g : Fragment} {inside before after : Outline}
    {front back : String} (spells : f.Spells inside) (opening : Closed front (before ++ [.opening]))
    (closing : Reads back (.closing :: after)) (apart : Apart back)
    (balanced : Token.Balanced before) (balancedAfter : Token.Balanced after)
    (text : g.text = front ++ f.text ++ back)
    (params : g.params = before.filterMap Token.slot? ++ f.params ++ after.filterMap Token.slot?) :
    g.Spells (before ++ parenthesized inside ++ after) := by
  constructor
  · rw [text]
    simpa [parenthesized] using (opening.append_reads spells.reads).append apart closing
  · exact (balanced.append spells.balanced.parenthesized).append balancedAfter
  · rw [params, List.filterMap_append, List.filterMap_append, slots_parenthesized, spells.params]

/-! ## Fields -/

def extractOutline (field : String) : Outline :=
  [.word "json_extract", .opening, .word "data", .comma, .literal (fieldPath field), .closing]

def castOutline (field : String) (kind : ScalarKind) : Outline :=
  [.word "CAST", .opening] ++ extractOutline field ++
    [.word "AS", .word kind.castType, .closing]

/-- A field that is read as a kind. -/
def fieldOutline (field : String) : ScalarKind → Outline
  | .text =>
    [.word "CASE", .word "json_type", .opening, .word "data", .comma,
        .literal (fieldPath field), .closing,
        .word "WHEN", .literal "true", .word "THEN", .literal "true",
        .word "WHEN", .literal "false", .word "THEN", .literal "false", .word "ELSE"] ++
      castOutline field .text ++ [.word "END"]
  | .number => castOutline field .number
  | .bool => castOutline field .bool

section Fields

variable {field : String}

theorem closed_extractText (clean : ¬ HasNul field) :
    Closed (extractText field) (extractOutline field) := by
  have opening : Closed "json_extract(data, "
      [.word "json_extract", .opening, .word "data", .comma] := closed_ofList rfl
  exact (opening.append_reads (Lexer.reads_pathLiteral clean)).append_closed apart_closing
    closed_closing

theorem closed_castText (clean : ¬ HasNul field) (kind : ScalarKind) :
    Closed (castText field kind) (castOutline field kind) := by
  have opening : Closed "CAST(" [.word "CAST", .opening] := closed_ofList rfl
  have as : Closed " AS " [.word "AS"] := closed_ofList rfl
  have type : Reads kind.castType [.word kind.castType] := by
    cases kind <;> exact reads_ofList rfl rfl rfl
  exact (((opening.append (closed_extractText clean)).append as).append_reads
    type).append_closed apart_closing closed_closing

theorem reads_fieldText (clean : ¬ HasNul field) (kind : ScalarKind) :
    Reads (fieldText field kind) (fieldOutline field kind) := by
  cases kind with
  | text =>
    have opening : Closed "CASE json_type(data, "
        [.word "CASE", .word "json_type", .opening, .word "data", .comma] := closed_ofList rfl
    have apart : Apart ") WHEN 'true' THEN 'true' WHEN 'false' THEN 'false' ELSE " :=
      apart_ofList rfl rfl
    have middle : Closed ") WHEN 'true' THEN 'true' WHEN 'false' THEN 'false' ELSE "
        [.closing, .word "WHEN", .literal "true", .word "THEN", .literal "true",
          .word "WHEN", .literal "false", .word "THEN", .literal "false", .word "ELSE"] :=
      closed_ofList rfl
    have ending : Reads " END" [.word "END"] := reads_ofList rfl rfl rfl
    exact (((opening.append_reads (Lexer.reads_pathLiteral clean)).append_closed apart
      middle).append (closed_castText clean .text)).append_reads ending
  | number => exact (closed_castText clean .number).reads
  | bool => exact (closed_castText clean .bool).reads

/-- Only paths and, where the field is read as a text, the spellings of truth values
are literals. -/
def fieldLiterals (field : String) : ScalarKind → List String
  | .text => [fieldPath field, "true", "true", "false", "false", fieldPath field]
  | .number | .bool => [fieldPath field]

@[simp]
theorem literals_fieldOutline (kind : ScalarKind) :
    (fieldOutline field kind).filterMap Token.literal? = fieldLiterals field kind := by
  cases kind <;> rfl

@[simp]
theorem slots_fieldOutline (kind : ScalarKind) :
    (fieldOutline field kind).filterMap Token.slot? = [] := by
  cases kind <;> rfl

theorem balanced_fieldOutline (kind : ScalarKind) : Token.Balanced (fieldOutline field kind) := by
  cases kind <;> exact fun _ _ => rfl

/-- The name of a field does not matter for the tokens around its paths. -/
theorem shapes_fieldOutline (field other : String) (kind : ScalarKind) :
    (fieldOutline field kind).map Token.shape = (fieldOutline other kind).map Token.shape := by
  cases kind <;> rfl

end Fields

/-! ## Parameters -/

/-- Marks with commas between them. -/
def marks (params : List Param) : Outline := [.comma].intercalate (params.map fun p => [.mark p])

theorem reads_placeholders (params : List Param) :
    Reads (placeholders params.length) (marks params) := by
  have comma : Closed ", " [.comma] := closed_ofList rfl
  refine Lexer.reads_intercalate (apart_ofList rfl rfl) comma ?_
  induction params with
  | nil => exact .nil
  | cons param rest ih => exact .cons (reads_ofList rfl rfl rfl) ih

/-- What is kept of some outlines with a separator between them, when nothing is kept of
the separator. -/
theorem filterMap_intercalate {β : Type} {kept : Token Param → Option β} {separator : Outline}
    (dropped : separator.filterMap kept = []) (parts : List Outline) :
    (separator.intercalate parts).filterMap kept = parts.flatMap (·.filterMap kept) := by
  induction parts with
  | nil => rfl
  | cons first others ih =>
    cases others with
    | nil => simp
    | cons second rest =>
      rw [List.intercalate_cons_cons, List.filterMap_append, List.filterMap_append, ih, dropped,
        List.append_nil]
      exact List.flatMap_cons.symm

theorem map_shape_intercalate (separator : Outline) (parts : List Outline) :
    (separator.intercalate parts).map Token.shape =
      (separator.map Token.shape).intercalate (parts.map fun part => part.map Token.shape) := by
  induction parts with
  | nil => rfl
  | cons first others ih =>
    cases others with
    | nil => simp
    | cons second rest =>
      rw [List.intercalate_cons_cons, List.map_append, List.map_append, ih, List.map_cons,
        List.map_cons, List.map_cons, List.intercalate_cons_cons]

@[simp]
theorem slots_marks (params : List Param) : (marks params).filterMap Token.slot? = params := by
  rw [marks, filterMap_intercalate rfl, List.flatMap_map]
  exact List.flatMap_singleton' params

@[simp]
theorem literals_marks (params : List Param) :
    (marks params).filterMap Token.literal? = [] := by
  rw [marks, filterMap_intercalate rfl, List.flatMap_map]
  exact List.flatMap_eq_nil_iff.2 fun _ _ => rfl

theorem balanced_marks (params : List Param) : Token.Balanced (marks params) := by
  refine Token.balanced_intercalate (fun _ _ => rfl) fun part present => ?_
  obtain ⟨param, -, rfl⟩ := List.mem_map.1 present
  exact fun _ _ => rfl

/-- Parameters in parentheses after some words. -/
theorem spells_listed {front : String} {words : Outline}
    (opening : Closed front (words ++ [.opening])) (balanced : Token.Balanced words)
    (bare : words.filterMap Token.slot? = []) (params : List Param) :
    Fragment.Spells ⟨front ++ placeholders params.length ++ ")", params⟩
      (words ++ parenthesized (marks params)) := by
  have listed : Fragment.Spells ⟨placeholders params.length, params⟩ (marks params) :=
    ⟨reads_placeholders params, balanced_marks params, (slots_marks params).symm⟩
  have enclosed : Fragment.Spells ⟨front ++ placeholders params.length ++ ")", params⟩
      (words ++ parenthesized (marks params) ++ []) :=
    listed.enclose opening closed_closing.reads apart_closing balanced (fun _ _ => rfl) rfl
      (by simp [bare])
  rwa [List.append_nil] at enclosed

/-! ## Tests -/

/-- A relation to the right of its field. -/
def Relation.outline : Relation → Outline
  | compare comparison operand => [.operator comparison.symbol, .mark operand]
  | within operands => [.word "IN"] ++ parenthesized (marks operands)
  | outside operands => [.word "NOT", .word "IN"] ++ parenthesized (marks operands)

theorem Relation.spells (relation : Relation) : relation.fragment.Spells relation.outline := by
  cases relation with
  | compare comparison operand =>
    have symbol : Reads comparison.symbol [.operator comparison.symbol] := by
      cases comparison <;> exact reads_ofList rfl rfl rfl
    have mark : Reads " ?" [.mark operand] := reads_ofList rfl rfl rfl
    exact ⟨symbol.append (apart_ofList rfl rfl) mark, fun _ _ => rfl, rfl⟩
  | within operands => exact spells_listed (closed_ofList rfl) (fun _ _ => rfl) rfl operands
  | outside operands => exact spells_listed (closed_ofList rfl) (fun _ _ => rfl) rfl operands

@[simp]
theorem Relation.literals_outline (relation : Relation) :
    relation.outline.filterMap Token.literal? = [] := by
  cases relation with
  | compare => rfl
  | within operands => exact (literals_parenthesized _).trans (literals_marks operands)
  | outside operands => exact (literals_parenthesized _).trans (literals_marks operands)

namespace FieldTest

def outline (t : FieldTest) : Outline := fieldOutline t.field t.kind ++ t.relation.outline

theorem spells {t : FieldTest} (clean : ¬ HasNul t.field) : t.fragment.Spells t.outline := by
  have relation := t.relation.spells
  have blank : Closed " " [] := closed_ofList rfl
  constructor
  · have field := (reads_fieldText clean t.kind).append_closed (apart_ofList rfl rfl) blank
    simpa [fragment, outline] using field.append_reads relation.reads
  · exact (balanced_fieldOutline t.kind).append relation.balanced
  · simp [fragment, outline, relation.params]

@[simp]
theorem literals_outline (t : FieldTest) :
    t.outline.filterMap Token.literal? = fieldLiterals t.field t.kind := by
  simp [outline]

end FieldTest

/-- Outlines in parentheses with a connective between them. -/
def joined (connective : Outline) (parts : List Outline) : Outline :=
  connective.intercalate (parts.map parenthesized)

theorem literals_joined {connective : Outline} (bare : connective.filterMap Token.literal? = [])
    (parts : List Outline) : (joined connective parts).filterMap Token.literal? =
      parts.flatMap (·.filterMap Token.literal?) := by
  rw [joined, filterMap_intercalate bare, List.flatMap_map]
  simp

theorem map_shape_joined (connective : Outline) (parts : List Outline) :
    (joined connective parts).map Token.shape =
      joined (connective.map Token.shape) (parts.map fun part => part.map Token.shape) := by
  rw [joined, map_shape_intercalate, joined, List.map_map, List.map_map]
  simp [Function.comp_def, map_shape_parenthesized]

theorem Fragment.spells_join {connective : String} {words : Outline} (apart : Apart connective)
    (closed : Closed connective words) (balanced : Token.Balanced words)
    (bare : words.filterMap Token.slot? = []) {ι : Type} {items : List ι} {part : ι → Fragment}
    {outline : ι → Outline} (each : ∀ item ∈ items, (part item).Spells (outline item)) :
    (join connective (items.map part)).Spells (joined words (items.map outline)) := by
  have opening : Closed "(" [.opening] := closed_ofList rfl
  constructor
  · refine Lexer.reads_intercalate apart closed ?_
    simp only [List.forall₂_map_left_iff, List.forall₂_map_right_iff, List.forall₂_same]
    intro item present
    exact ((opening.append_reads (each item present).reads).append_closed apart_closing
      closed_closing).reads
  · refine Token.balanced_intercalate balanced fun inside present => ?_
    rw [List.map_map, List.mem_map] at present
    obtain ⟨item, among, rfl⟩ := present
    exact (each item among).balanced.parenthesized
  · rw [joined, filterMap_intercalate bare, List.map_map, List.flatMap_map, join,
      List.flatMap_map]
    refine List.flatMap_congr fun item present => ?_
    exact (each item present).params.trans (slots_parenthesized _).symm

def allOfOutline (tests : List FieldTest) : Outline :=
  if tests = [] then [.word "1"] else joined [.word "AND"] (tests.map FieldTest.outline)

theorem spells_allOf {tests : List FieldTest} (clean : ∀ t ∈ tests, ¬ HasNul t.field) :
    (allOf tests).Spells (allOfOutline tests) := by
  unfold allOf allOfOutline
  split
  · exact ⟨reads_ofList rfl rfl rfl, fun _ _ => rfl, rfl⟩
  · exact Fragment.spells_join (apart_ofList rfl rfl) (closed_ofList rfl) (fun _ _ => rfl) rfl
      fun t present => FieldTest.spells (clean t present)

@[simp]
theorem literals_allOfOutline (tests : List FieldTest) :
    (allOfOutline tests).filterMap Token.literal? =
      tests.flatMap fun t => fieldLiterals t.field t.kind := by
  unfold allOfOutline
  split
  · rename_i none
    rw [none]
    rfl
  · rw [literals_joined rfl, List.flatMap_map]
    simp

/-- An event's type is one of some. -/
def typesOutline (types : List String) : Outline :=
  [.word "type", .word "IN"] ++ parenthesized (marks (types.map .text))

theorem spells_typeAmong (types : List String) : (typeAmong types).Spells (typesOutline types) := by
  have opening : Closed "type IN (" ([.word "type", .word "IN"] ++ [.opening]) :=
    closed_ofList rfl
  have listed := spells_listed opening (fun _ _ => rfl) rfl (types.map Param.text)
  rwa [List.length_map] at listed

@[simp]
theorem literals_typesOutline (types : List String) :
    (typesOutline types).filterMap Token.literal? = [] :=
  (literals_parenthesized _).trans (literals_marks _)

namespace StreamTest

def outline : StreamTest → Outline
  | never => [.word "0"]
  | ofTypes types tests => joined [.word "AND"] [typesOutline types, allOfOutline tests]

theorem spells {t : StreamTest} (clean : ∀ field ∈ t.fields, ¬ HasNul field) :
    t.fragment.Spells t.outline := by
  cases t with
  | never => exact ⟨reads_ofList rfl rfl rfl, fun _ _ => rfl, rfl⟩
  | ofTypes types tests =>
    have cleanTests : ∀ test ∈ tests, ¬ HasNul test.field :=
      fun test present => clean _ (List.mem_map_of_mem present)
    have both : ∀ part ∈ [(typeAmong types, typesOutline types), (allOf tests, allOfOutline tests)],
        part.1.Spells part.2 := by
      simp only [List.forall_mem_cons, List.not_mem_nil, false_implies, implies_true, and_true]
      exact ⟨spells_typeAmong types, spells_allOf cleanTests⟩
    exact Fragment.spells_join (apart_ofList rfl rfl) (closed_ofList rfl) (fun _ _ => rfl) rfl both

/-- The literals of the fields that are tested. -/
def literals : StreamTest → List String
  | never => []
  | ofTypes _ tests => tests.flatMap fun t => fieldLiterals t.field t.kind

@[simp]
theorem literals_outline (t : StreamTest) : t.outline.filterMap Token.literal? = t.literals := by
  cases t with
  | never => rfl
  | ofTypes types tests =>
    rw [outline, literals_joined rfl]
    simp [literals]

end StreamTest

namespace Selection

def outline (s : Selection) : Outline :=
  if s = [] then [.word "0"] else joined [.word "OR"] (s.map StreamTest.outline)

theorem spells {s : Selection} (clean : ¬ s.SpellsNul) : s.fragment.Spells s.outline := by
  unfold fragment outline
  split
  · exact ⟨reads_ofList rfl rfl rfl, fun _ _ => rfl, rfl⟩
  · refine Fragment.spells_join (apart_ofList rfl rfl) (closed_ofList rfl) (fun _ _ => rfl) rfl
      fun t present => StreamTest.spells fun field named has => ?_
    exact clean ⟨t, present, field, named, has⟩

@[simp]
theorem literals_outline (s : Selection) :
    s.outline.filterMap Token.literal? = s.flatMap StreamTest.literals := by
  unfold outline
  split
  · rename_i none
    rw [none]
    rfl
  · rw [literals_joined rfl, List.flatMap_map]
    simp

end Selection

end Chronicle
