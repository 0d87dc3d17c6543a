import Chronicle.Proofs.Log.Streams
import Chronicle.Proofs.Projections.Board
import Chronicle.Proofs.Query.Statements

/-!
# What the marks of queries are bound to

The text of a query and its parameters are put together apart from each other, and only
their order says which mark a parameter is for. For all that a caller can give
(`Query.compiled_exact`) they agree: the text consists of tokens with as many marks as
there are parameters, and bound in order each parameter is at the mark that it is meant
for. A name of a field is in literals alone, whatever characters it has, so that other
names leave all other tokens as they are (`Query.shapes_rename`).
-/

namespace Chronicle

/-- A condition or a statement, with what a caller gives to make it. -/
inductive Query where
  | filter (filter : Filter)
  | stream (spec : Stream)
  | streams (specs : List Stream)
  | selectStreams (specs : List Stream) (after : Option EventId)
  | selectLatest (type : String) (filter : Option Filter)
  | selectProjections (type : String) (filter : Option Filter)
  | guardedInsert (drafts : List Draft) (floor : EventId) (specs : List Stream)

/-! ## What a caller gives -/

/-- The operands of the conditions, in their order. -/
def Filter.params (f : Filter) : List Param :=
  f.tests.flatMap fun (_, c) => c.operands.map Scalar.param

/-- The literals of the conditions, each of which reads its field as the kind of its
operands. -/
def Filter.literals (f : Filter) : List String :=
  f.tests.flatMap fun (field, c) => fieldLiterals field (c.kind?.getD .text)

/-- The types, then the operands. A stream without types has no conditions. -/
def Stream.params (s : Stream) : List Param :=
  if s.types = [] then [] else s.types.map .text ++ s.filter.toList.flatMap Filter.params

def Stream.literals (s : Stream) : List String :=
  if s.types = [] then [] else s.filter.toList.flatMap Filter.literals

namespace Query

def filters : Query → List Filter
  | filter f => [f]
  | stream spec => spec.filter.toList
  | streams specs | selectStreams specs _ | guardedInsert _ _ specs =>
    specs.flatMap (·.filter.toList)
  | selectLatest _ f | selectProjections _ f => f.toList

/-- The filters are valid. -/
def Valid (q : Query) : Prop := ∀ f ∈ q.filters, f.Valid

/-- The name of a field with a condition has no NUL. -/
def Clean (q : Query) : Prop := ∀ f ∈ q.filters, ∀ t ∈ f.tests, ¬ HasNul t.1

instance (q : Query) : Decidable q.Clean := inferInstanceAs (Decidable (∀ _ ∈ _, _))

/-- What is made of the query. -/
def fragment : Query → Except Fault Fragment
  | filter f => f.compile.map allOf
  | stream spec => spec.compile.map StreamTest.fragment
  | streams specs => (Selection.compile specs).map Selection.fragment
  | selectStreams specs after => (Selection.compile specs).map (Statement.selectStreams · after)
  | selectLatest type f => (compileOptional f).map (Statement.selectLatest type)
  | selectProjections type f => (compileOptional f).map (Statement.selectProjections type)
  | guardedInsert drafts floor specs =>
    (Selection.compile specs).map (Statement.guardedInsert drafts floor)

/-- The parameters in the order in which they are bound. -/
def params : Query → List Param
  | filter f => f.params
  | stream spec => spec.params
  | streams specs => specs.flatMap Stream.params
  | selectStreams specs after => specs.flatMap Stream.params ++ after.toList.map .int
  | selectLatest type f | selectProjections type f => .text type :: f.toList.flatMap Filter.params
  | guardedInsert drafts floor specs =>
    drafts.flatMap (fun d => [.text d.type, .text d.data.text]) ++
      .int floor :: specs.flatMap Stream.params

/-- The literals: paths and the spellings of truth values. -/
def literals : Query → List String
  | filter f => f.literals
  | stream spec => spec.literals
  | streams specs | selectStreams specs _ | guardedInsert _ _ specs =>
    specs.flatMap Stream.literals
  | selectLatest _ f | selectProjections _ f => f.toList.flatMap Filter.literals

/-- The tokens, with the parameters where they belong. -/
def outline : Query → Outline
  | filter f => allOfOutline f.fieldTests
  | stream spec => spec.test.outline
  | streams specs => (Selection.ofStreams specs).outline
  | selectStreams specs after => Statement.selectStreamsOutline (.ofStreams specs) after
  | selectLatest type f => Statement.selectLatestOutline type (testsOf f)
  | selectProjections type f => Statement.selectProjectionsOutline type (testsOf f)
  | guardedInsert drafts floor specs =>
    Statement.guardedInsertOutline drafts floor (.ofStreams specs)

end Query

/-! ## Parameters and literals -/

@[simp]
theorem Condition.params_test (field : String) (c : Condition) :
    (c.test field).fragment.params = c.operands.map Scalar.param := by
  cases c <;> rfl

theorem params_allOf (tests : List FieldTest) :
    (allOf tests).params = tests.flatMap fun t => t.fragment.params := by
  unfold allOf
  split
  · rename_i none
    rw [none]
    rfl
  · exact List.flatMap_map ..

theorem Filter.params_fieldTests (f : Filter) :
    (f.fieldTests.flatMap fun t => t.fragment.params) = f.params := by
  simp [fieldTests, params, List.flatMap_map]

theorem Filter.literals_fieldTests (f : Filter) :
    (f.fieldTests.flatMap fun t => fieldLiterals t.field t.kind) = f.literals := by
  simp [fieldTests, literals, List.flatMap_map, Condition.test]

theorem params_testsOf (f : Option Filter) :
    ((testsOf f).flatMap fun t => t.fragment.params) = f.toList.flatMap Filter.params := by
  cases f with
  | none => rfl
  | some f => simp [testsOf, Filter.params_fieldTests]

theorem literals_testsOf (f : Option Filter) :
    ((testsOf f).flatMap fun t => fieldLiterals t.field t.kind) =
      f.toList.flatMap Filter.literals := by
  cases f with
  | none => rfl
  | some f => simp [testsOf, Filter.literals_fieldTests]

namespace Stream

theorem params_test (s : Stream) : s.test.fragment.params = s.params := by
  unfold test params
  split
  · rfl
  · have tests := (params_allOf s.tests).trans (params_testsOf s.filter)
    simp [StreamTest.fragment, Fragment.join, typeAmong, tests]

theorem literals_test (s : Stream) : s.test.literals = s.literals := by
  unfold test literals
  split
  · rfl
  · exact literals_testsOf s.filter

end Stream

theorem Selection.params_ofStreams (specs : List Stream) :
    (ofStreams specs).fragment.params = specs.flatMap Stream.params := by
  rw [params_fragment, ofStreams, List.flatMap_map]
  simp [Stream.params_test]

theorem Selection.literals_ofStreams (specs : List Stream) :
    (ofStreams specs).flatMap StreamTest.literals = specs.flatMap Stream.literals := by
  rw [ofStreams, List.flatMap_map]
  simp [Stream.literals_test]

/-! ## Names -/

def FieldTest.rename (names : String → String) (t : FieldTest) : FieldTest :=
  { t with field := names t.field }

def StreamTest.rename (names : String → String) : StreamTest → StreamTest
  | never => .never
  | ofTypes types tests => .ofTypes types (tests.map (FieldTest.rename names))

/-- The filter with other names for its fields. -/
def Filter.rename (names : String → String) (f : Filter) : Filter :=
  ⟨f.fields.map fun entry => { entry with field := names entry.field }⟩

def Stream.rename (names : String → String) (s : Stream) : Stream :=
  { s with filter := s.filter.map (Filter.rename names) }

/-- The query with other names for the fields. -/
def Query.rename (names : String → String) : Query → Query
  | filter f => .filter (f.rename names)
  | stream spec => .stream (spec.rename names)
  | streams specs => .streams (specs.map (Stream.rename names))
  | selectStreams specs after => .selectStreams (specs.map (Stream.rename names)) after
  | selectLatest type f => .selectLatest type (f.map (Filter.rename names))
  | selectProjections type f => .selectProjections type (f.map (Filter.rename names))
  | guardedInsert drafts floor specs =>
    .guardedInsert drafts floor (specs.map (Stream.rename names))

section Names

variable (names : String → String)

theorem Filter.fieldTests_rename (f : Filter) :
    (f.rename names).fieldTests = f.fieldTests.map (FieldTest.rename names) := by
  simp [fieldTests, tests, rename, List.flatMap_map, List.map_flatMap, Function.comp_def,
    Condition.test, FieldTest.rename]

theorem testsOf_rename (f : Option Filter) :
    testsOf (f.map (Filter.rename names)) = (testsOf f).map (FieldTest.rename names) := by
  cases f with
  | none => rfl
  | some f => exact f.fieldTests_rename names

theorem Stream.test_rename (s : Stream) : (s.rename names).test = s.test.rename names := by
  by_cases typeless : s.types = []
  · simp [test, rename, typeless, StreamTest.rename]
  · have tests : (s.rename names).tests = s.tests.map (FieldTest.rename names) :=
      testsOf_rename names s.filter
    simp [test, rename, typeless, StreamTest.rename, ← tests]

theorem Selection.ofStreams_rename (specs : List Stream) :
    ofStreams (specs.map (Stream.rename names)) =
      (ofStreams specs).map (StreamTest.rename names) := by
  simp [ofStreams, Stream.test_rename]

theorem FieldTest.shapes_rename (t : FieldTest) :
    (t.rename names).outline.map Token.shape = t.outline.map Token.shape := by
  rw [outline, outline, List.map_append, List.map_append]
  exact congrArg (· ++ _) (shapes_fieldOutline ..)

theorem shapes_allOfOutline_rename (tests : List FieldTest) :
    (allOfOutline (tests.map (FieldTest.rename names))).map Token.shape =
      (allOfOutline tests).map Token.shape := by
  unfold allOfOutline
  simp only [List.map_eq_nil_iff]
  split
  · rfl
  · rw [map_shape_joined, map_shape_joined]
    simp [Function.comp_def, FieldTest.shapes_rename]

theorem StreamTest.shapes_rename (t : StreamTest) :
    (t.rename names).outline.map Token.shape = t.outline.map Token.shape := by
  cases t with
  | never => rfl
  | ofTypes types tests =>
    rw [rename, outline, outline, map_shape_joined, map_shape_joined]
    simp [shapes_allOfOutline_rename]

theorem Selection.shapes_rename (s : Selection) :
    (outline (s.map (StreamTest.rename names))).map Token.shape = s.outline.map Token.shape := by
  unfold outline
  simp only [List.map_eq_nil_iff]
  split
  · rfl
  · rw [map_shape_joined, map_shape_joined]
    simp [Function.comp_def, StreamTest.shapes_rename]

/-- Other names for the fields leave all tokens but the contents of literals. -/
theorem Query.shapes_rename (q : Query) :
    (q.rename names).outline.map Token.shape = q.outline.map Token.shape := by
  cases q with
  | filter f =>
    rw [rename, outline, outline, Filter.fieldTests_rename, shapes_allOfOutline_rename]
  | stream spec => rw [rename, outline, outline, Stream.test_rename, StreamTest.shapes_rename]
  | streams specs =>
    rw [rename, outline, outline, Selection.ofStreams_rename, Selection.shapes_rename]
  | selectStreams specs after =>
    simp only [rename, outline, Selection.ofStreams_rename, Statement.selectStreamsOutline,
      List.map_append, map_shape_parenthesized, Selection.shapes_rename]
  | selectLatest type f =>
    simp only [rename, outline, testsOf_rename, Statement.selectLatestOutline,
      Statement.selectTypeOutline, List.map_append, map_shape_parenthesized,
      shapes_allOfOutline_rename]
  | selectProjections type f =>
    simp only [rename, outline, testsOf_rename, Statement.selectProjectionsOutline,
      Statement.selectTypeOutline, List.map_append, map_shape_parenthesized,
      shapes_allOfOutline_rename]
  | guardedInsert drafts floor specs =>
    simp only [rename, outline, Selection.ofStreams_rename, Statement.guardedInsertOutline,
      List.map_append, map_shape_parenthesized, Selection.shapes_rename]

end Names

/-! ## Queries -/

namespace Query

variable {q : Query}

/-- What a query with valid filters is compiled to. -/
def compiled : Query → Fragment
  | filter f => allOf f.fieldTests
  | stream spec => spec.test.fragment
  | streams specs => (Selection.ofStreams specs).fragment
  | selectStreams specs after => Statement.selectStreams (.ofStreams specs) after
  | selectLatest type f => Statement.selectLatest type (testsOf f)
  | selectProjections type f => Statement.selectProjections type (testsOf f)
  | guardedInsert drafts floor specs => Statement.guardedInsert drafts floor (.ofStreams specs)

theorem fragment_of_valid (valid : q.Valid) : q.fragment = .ok q.compiled := by
  have stream {specs : List Stream}
      (each : ∀ f ∈ specs.flatMap (·.filter.toList), f.Valid) :
      Selection.compile specs = .ok (.ofStreams specs) :=
    Selection.compile_of_valid fun spec present f given =>
      each f (List.mem_flatMap.2 ⟨spec, present, Option.mem_toList.2 given⟩)
  cases q with
  | filter f => rw [fragment, f.compile_of_valid (valid f List.mem_cons_self)]; rfl
  | stream spec =>
    rw [fragment, spec.compile_of_valid fun f given => valid f (Option.mem_toList.2 given)]; rfl
  | streams specs | selectStreams specs after | guardedInsert drafts floor specs =>
    rw [fragment, stream valid]
    rfl
  | selectLatest type f | selectProjections type f =>
    rw [fragment, compileOptional_of_valid fun g given => valid g (Option.mem_toList.2 given)]
    rfl

theorem compiled_spells (clean : q.Clean) : q.compiled.Spells q.outline := by
  have tests {f : Option Filter} (each : ∀ g ∈ f.toList, ∀ t ∈ g.tests, ¬ HasNul t.1) :
      ∀ t ∈ testsOf f, ¬ HasNul t.field := by
    cases f with
    | none => simp [testsOf]
    | some f =>
      intro t present nul
      obtain ⟨pair, among, has⟩ := Filter.hasNul_fieldTests.1 ⟨t, present, nul⟩
      exact each f List.mem_cons_self pair among has
  have selection {specs : List Stream}
      (each : ∀ f ∈ specs.flatMap (·.filter.toList), ∀ t ∈ f.tests, ¬ HasNul t.1) :
      ¬ (Selection.ofStreams specs).SpellsNul := by
    rw [Selection.spellsNul_ofStreams]
    rintro ⟨spec, present, -, f, given, t, among, nul⟩
    exact each f (List.mem_flatMap.2 ⟨spec, present, Option.mem_toList.2 given⟩) t among nul
  cases q with
  | filter f => exact spells_allOf (tests (f := some f) clean)
  | stream spec =>
    have alone : ¬ (Selection.ofStreams [spec]).SpellsNul :=
      selection (by simpa [Clean, filters] using clean)
    exact StreamTest.spells fun field named nul =>
      alone ⟨spec.test, List.mem_cons_self, field, named, nul⟩
  | streams specs => exact Selection.spells (selection clean)
  | selectStreams specs after => exact Statement.spells_selectStreams (selection clean) after
  | selectLatest type f => exact Statement.spells_selectLatest type (tests clean)
  | selectProjections type f => exact Statement.spells_selectProjections type (tests clean)
  | guardedInsert drafts floor specs =>
    exact Statement.spells_guardedInsert drafts floor (selection clean)

theorem params_compiled (q : Query) : q.compiled.params = q.params := by
  cases q with
  | filter f => exact (params_allOf _).trans f.params_fieldTests
  | stream spec => exact spec.params_test
  | streams specs => exact Selection.params_ofStreams specs
  | selectStreams specs after =>
    cases after <;> simp [compiled, params, Statement.selectStreams, Selection.params_ofStreams]
  | selectLatest type f | selectProjections type f =>
    exact congrArg (.text type :: ·) ((params_allOf _).trans (params_testsOf f))
  | guardedInsert drafts floor specs =>
    simp [compiled, params, Statement.guardedInsert, Selection.params_ofStreams]

theorem literals_outline (q : Query) : q.outline.filterMap Token.literal? = q.literals := by
  cases q with
  | filter f => exact (literals_allOfOutline _).trans f.literals_fieldTests
  | stream spec => exact (StreamTest.literals_outline _).trans spec.literals_test
  | streams specs => exact (Selection.literals_outline _).trans (Selection.literals_ofStreams specs)
  | selectStreams specs after =>
    exact (Statement.literals_selectStreamsOutline _ after).trans
      (Selection.literals_ofStreams specs)
  | selectLatest type f | selectProjections type f =>
    exact (Statement.literals_selectTypeOutline rfl rfl _ type _).trans (literals_testsOf f)
  | guardedInsert drafts floor specs =>
    exact (Statement.literals_guardedInsertOutline drafts floor _).trans
      (Selection.literals_ofStreams specs)

/-- The text of the fragment consists of the tokens, and they and the parameters are as
the query has them. -/
structure Spelled (q : Query) (f : Fragment) (tokens : List (Token Unit)) : Prop where
  lexed : Lexer.lex f.text = some tokens
  balanced : Token.closes tokens 0
  /-- The literals are the paths of the fields and the spellings of truth values. -/
  literals : tokens.filterMap Token.literal? = q.literals
  /-- There are as many marks as parameters. -/
  marked : tokens.countP Token.isMark = f.params.length
  /-- The tokens are those of the outline, whose marks have the parameters in order. -/
  outlined : q.outline.map Token.erase = tokens
  bound : q.outline.filterMap Token.slot? = f.params
  params : f.params = q.params

theorem spelled_compiled (clean : q.Clean) :
    q.Spelled q.compiled (q.outline.map Token.erase) := by
  have spells := compiled_spells clean
  constructor
  case lexed => exact Lexer.lex_of_reads spells.reads
  case balanced => exact (Token.closes_erase ..).trans spells.balanced.closes
  case literals => exact (Token.literals_erase _).trans q.literals_outline
  case marked => rw [spells.params, Token.countP_isMark_erase]
  case outlined => rfl
  case bound => exact spells.params.symm
  case params => exact q.params_compiled

/-- A query with valid filters, and without a NUL in the name of a field, is compiled to a
text of tokens whose parentheses match, with its names inside the literals that are their
paths and with one mark for each parameter, in the order of the query. A guarded insert has
two for each row, one for its floor and those of its streams. Other names change nothing but
the contents of literals. -/
theorem compiled_exact (valid : q.Valid) (clean : q.Clean) :
    ∃ f tokens, q.fragment = .ok f ∧ q.Spelled f tokens ∧
      (∀ drafts floor specs, q = .guardedInsert drafts floor specs →
        tokens.countP Token.isMark =
          2 * drafts.length + 1 + (specs.flatMap Stream.params).length) ∧
      ∀ names, (q.rename names).Valid → (q.rename names).Clean →
        ∃ g others, (q.rename names).fragment = .ok g ∧ (q.rename names).Spelled g others ∧
          others.map Token.shape = tokens.map Token.shape ∧ g.params = f.params := by
  have spelled := spelled_compiled clean
  refine ⟨q.compiled, _, fragment_of_valid valid, spelled, ?_, fun names validToo cleanToo => ?_⟩
  · rintro drafts floor specs rfl
    rw [spelled.marked, params_compiled, params, List.length_append, List.length_cons,
      List.length_flatMap]
    simp
    omega
  · have renamed := spelled_compiled cleanToo
    have shapes := q.shapes_rename names
    refine ⟨_, _, fragment_of_valid validToo, renamed, ?_, ?_⟩
    · rw [Token.map_shape_erase, Token.map_shape_erase, shapes]
    · rw [← renamed.bound, ← spelled.bound, ← Token.slots_shape, shapes, Token.slots_shape]

/-- A read with a name that has a quote, a mark, a parenthesis and two dashes, and with a
stream without types. -/
def awkward : Query :=
  .selectStreams [⟨["A", "B"], some ⟨[⟨"it's ?) --", [.compare .eq (.text "L1")]⟩]⟩⟩,
    ⟨[], some Filter.empty⟩] (some 4)

theorem awkward_valid : awkward.Valid :=
  List.forall_mem_cons.2 ⟨rfl, List.forall_mem_singleton.2 rfl⟩

theorem awkward_clean : awkward.Clean := by decide

theorem compiled_exact_awkward :
    awkward.Valid ∧ awkward.Clean ∧ ∃ f tokens, awkward.fragment = .ok f ∧
      Lexer.lex f.text = some tokens ∧ Token.closes tokens 0 ∧
      tokens.filterMap Token.literal? = ["$.\"it's ?) --\"", "true", "true", "false", "false",
        "$.\"it's ?) --\""] ∧
      f.params = [.text "A", .text "B", .text "L1", .int 4] ∧ tokens.countP Token.isMark = 4 := by
  obtain ⟨f, tokens, made, spelled, -⟩ := compiled_exact awkward_valid awkward_clean
  refine ⟨awkward_valid, awkward_clean, f, tokens, made, spelled.lexed, spelled.balanced,
    spelled.literals, spelled.params, ?_⟩
  rw [spelled.marked, spelled.params]
  rfl

end Query

end Chronicle
