import Chronicle.Proofs.Log.Guard
import Chronicle.Proofs.Projections.Board
import Chronicle.Proofs.Query.Conditions

/-!
# Which names decide what they should

A name that is accepted for a field is pasted into a query, where a backslash and a
NUL mean something. With neither, a condition on the name is decided by the member
of that name (`DecidedByMember`) and the calls that use it are answered
(`Store.Takes`). With a backslash the member of that name plays no part, and with a
NUL every call that uses the name fails (`Store.Refuses`).
-/

namespace Chronicle

/-! ## Deciding by a member -/

/-- Conditions on the name are decided by the member of that name: a text is equal to
itself and to no other, and payloads with the same member, or both without it, get
the same answers. -/
structure DecidedByMember (name : String) : Prop where
  text : ∀ (p : Json) (v w : String), p.Canonical → p.member? name = some (.string v) →
    ((Condition.compare .eq (.text w)).holdsOf name p ↔ w = v)
  same : ∀ p q : Json, p.Canonical → q.Canonical → p.member? name = q.member? name →
    (p.member? name = none → ¬ p.Extends name ∧ ¬ q.Extends name) →
    ∀ c : Condition, c.holdsOf name p = c.holdsOf name q

theorem points_injective : Function.Injective points := fun _ _ same =>
  String.toList_inj.1 (List.map_injective_iff.2 (fun _ _ same => Char.toNat_inj.1 same) same)

/-- Conditions that find the same hold alike. -/
theorem Condition.holdsOf_congr {field field' : String} {p q : Json}
    (same : found field p = found field' q) (c : Condition) :
    c.holdsOf field p = c.holdsOf field' q := by
  show Relation.holds _ ((found field p).map _) = Relation.holds _ ((found field' q).map _)
  rw [same]
  rfl

theorem decidedByMember {name : String} (plain : IsPlain name) : DecidedByMember name where
  text p v w canonical present := by
    have finds : Condition.found name p = some (.text (points v)) := by
      rw [Condition.found, Payload.cell?_of_plain plain canonical (by simp [present]), present]
      rfl
    rw [Condition.holdsOf_compare_eq finds]
    show (Ord.compare (points v) (points w) == .eq) ↔ w = v
    rw [beq_iff_eq, Std.compare_eq_iff_eq, points_injective.eq_iff, eq_comm]
  same p q canonical canonical' agree alone c := by
    refine Condition.holdsOf_congr ?_ c
    rw [Condition.found, Condition.found,
      Payload.cell?_of_plain plain canonical fun absent => (alone absent).1,
      Payload.cell?_of_plain plain canonical' fun absent => (alone (agree.trans absent)).2, agree]

/-! ## Calls that use a name -/

/-- No field of the filter has a NUL in its name, the given one perhaps apart. -/
def Filter.NulOnlyIn (name : String) (f : Filter) : Prop := ∀ t ∈ f.tests, HasNul t.1 → t.1 = name

/-- The filter has a condition on the field. -/
def Filter.Uses (name : String) (f : Filter) : Prop := ∃ t ∈ f.tests, t.1 = name

namespace Stream

/-- The filter of the stream, if it has one, has no NUL in a name, the given one
perhaps apart. -/
def NulOnlyIn (name : String) (s : Stream) : Prop := ∀ f, s.filter = some f → f.NulOnlyIn name

/-- The stream has types and a condition on the field. -/
def Uses (name : String) (s : Stream) : Prop := s.types ≠ [] ∧ ∃ f, s.filter = some f ∧ f.Uses name

variable {name : String} {s : Stream}

theorem NulOnlyIn.not_spellsNul (only : s.NulOnlyIn name) (clean : ¬ HasNul name) :
    ¬ s.SpellsNul := by
  rintro ⟨-, f, given, t, present, nul⟩
  exact clean (only f given t present nul ▸ nul)

theorem Uses.spellsNul (uses : s.Uses name) (nul : HasNul name) : s.SpellsNul := by
  obtain ⟨typed, f, given, t, present, rfl⟩ := uses
  exact ⟨typed, f, given, t, present, nul⟩

end Stream

namespace Filter

variable {name : String} {f : Filter}

theorem NulOnlyIn.not_hasNul (only : f.NulOnlyIn name) (clean : ¬ HasNul name) :
    ¬ ∃ test ∈ f.fieldTests, HasNul test.field := by
  rw [hasNul_fieldTests]
  rintro ⟨t, present, nul⟩
  exact clean (only t present nul ▸ nul)

theorem Uses.hasNul (uses : f.Uses name) (nul : HasNul name) :
    ∃ test ∈ f.fieldTests, HasNul test.field := by
  obtain ⟨t, present, rfl⟩ := uses
  exact hasNul_fieldTests.2 ⟨t, present, nul⟩

end Filter

namespace Store

variable {s : Store} {name : String}

/-- Calls that use the name, and no other with a NUL, are answered where their
statements are within the limits. A guarded append is refused only where events are
newer, and a list of projections needs rows that can be read. -/
structure Takes (s : Store) (name : String) : Prop where
  streams : ∀ specs after, (∀ spec ∈ specs, spec.Valid ∧ spec.NulOnlyIn name) →
    Statement.selectFits (.ofStreams specs) after →
    ∃ events, ((streams specs after).run s).1 = .ok events
  guarded : ∀ drafts floor specs, (∀ spec ∈ specs, spec.Valid ∧ spec.NulOnlyIn name) →
    Statement.guardFits drafts.length (.ofStreams specs) →
    ((appendIfNoNewer drafts floor specs).run s).1 = .error (.newerEvents floor) ∨
      ((appendIfNoNewer drafts floor specs).run s).1 = ((appendBatch drafts).run s).1
  latest : ∀ type (f : Filter), f.Valid → f.NulOnlyIn name → Statement.listFits f.fieldTests →
    ∃ event, ((latest type (some f)).run s).1 = .ok event
  query : ∀ type (f : Filter), f.Valid → f.NulOnlyIn name → Statement.listFits f.fieldTests →
    (∀ row ∈ s.tables.projectionsOf type f.fieldTests, row.Readable) →
    ∃ rows, ((queryProjections type (some f)).run s).1 = .ok rows
  index : ∀ table : TableName, ((createIndex table.text name).run s).1 = .ok ()

/-- Every call that uses the name fails in the database. -/
structure Refuses (s : Store) (name : String) : Prop where
  streams : ∀ specs after, (∀ spec ∈ specs, spec.Valid) → (∃ spec ∈ specs, spec.Uses name) →
    ((streams specs after).run s).1 = .error (.storage "statement cannot be prepared")
  guarded : ∀ drafts floor specs, drafts ≠ [] → (∀ spec ∈ specs, spec.Valid) →
    (∃ spec ∈ specs, spec.Uses name) →
    ((appendIfNoNewer drafts floor specs).run s).1 =
      .error (.storage "statement cannot be prepared")
  latest : ∀ type (f : Filter), f.Valid → f.Uses name →
    ((latest type (some f)).run s).1 = .error (.storage "statement cannot be prepared")
  query : ∀ type (f : Filter), f.Valid → f.Uses name →
    ((queryProjections type (some f)).run s).1 = .error (.storage "statement cannot be prepared")
  index : ∀ table : TableName,
    ((createIndex table.text name).run s).1 = .error (.storage "statement cannot be prepared")

theorem run_latest_of_holds {log : List StoredEvent} (holds : s.tables.Holds log)
    (sound : s.poisoned = false) {type : String} {filter : Option Filter} {tests : List FieldTest}
    (compiled : compileOptional filter = .ok tests)
    (can : Statement.canSelectLatest type tests) :
    ∃ event, ((latest type filter).run s).1 = .ok event := by
  simp only [Statement.canSelectLatest, Bool.and_eq_true, Bool.not_eq_true'] at can
  rw [run_latest, compiled]
  cases found : s.tables.latest? type tests with
  | none => exact ⟨none, by simp [sound, can.1, can.2, found]⟩
  | some row =>
    have inTable : row ∈ s.tables.events := List.mem_reverse.1 (List.mem_of_find?_eq_some found)
    rw [holds.rows] at inTable
    obtain ⟨event, inLog, rfl⟩ := List.mem_map.1 inTable
    have reads := StoredEvent.read_row (holds.legible event inLog)
    exact ⟨some event.reread, by simp [sound, can.1, can.2, found, reads]⟩

theorem run_latest_of_refused {type : String} {filter : Option Filter} {tests : List FieldTest}
    (compiled : compileOptional filter = .ok tests)
    (refused : ¬ Statement.canSelectLatest type tests) (sound : s.poisoned = false) :
    ((latest type filter).run s).1 = .error (.storage "statement cannot be prepared") := by
  have unprepared : Statement.testsNest tests ∨
      ¬ (Statement.selectLatest type tests).isPreparable := by
    by_contra prepared
    rw [not_or, not_not, Bool.not_eq_true] at prepared
    exact refused (by simp [Statement.canSelectLatest, prepared])
  rw [run_latest, compiled]
  simp only [sound, if_pos unprepared]
  rfl

/-- An index on an accepted field is created unless the name has a NUL. -/
theorem run_createIndex_of_accepted (accepted : Filter.checkName name = .ok ())
    (sound : s.poisoned = false) (table : TableName) :
    ((createIndex table.text name).run s).1 =
      if HasNul name then .error (.storage "statement cannot be prepared") else .ok () := by
  have clean : ¬ HasNul table.text := by cases table <;> exact not_hasNul_ofList rfl
  have named : TableName.ofText? table.text = some table := by cases table <;> rfl
  obtain ⟨statement, created, prepared⟩ := Statement.createIndex_of_accepted clean accepted
  rw [run_createIndex, if_neg (by simp [sound]), named, created]
  by_cases nul : HasNul name <;> simp [prepared, nul]

theorem takes (accepted : Filter.checkName name = .ok ()) (clean : ¬ HasNul name)
    (reachable : s.Reachable) (sound : s.poisoned = false) : s.Takes name := by
  have unspelled {specs : List Stream}
      (valid : ∀ spec ∈ specs, spec.Valid ∧ spec.NulOnlyIn name) :
      ¬ (Selection.ofStreams specs).SpellsNul := by
    rw [Selection.spellsNul_ofStreams]
    rintro ⟨spec, present, spells⟩
    exact (valid spec present).2.not_spellsNul clean spells
  constructor
  case streams =>
    intro specs after valid fits
    have can : Statement.canSelect (.ofStreams specs) after :=
      (Statement.canSelect_iff _ _).2 ⟨unspelled valid, fits⟩
    obtain ⟨metrics, ran⟩ := run_streams_of_holds reachable.holds sound
      (Selection.compile_of_valid fun spec present => (valid spec present).1) fun _ => can
    exact ⟨_, congrArg Prod.fst ran⟩
  case guarded =>
    intro drafts floor specs valid fits
    have compiled := Selection.compile_of_valid fun spec present => (valid spec present).1
    have can := (Statement.canGuard_iff drafts floor _).2 ⟨unspelled valid, fits⟩
    by_cases some_drafts : drafts = []
    · refine .inr ?_
      rw [run_appendIfNoNewer, run_appendBatch, compiled]
      simp [some_drafts]
    by_cases quiet : newer specs floor s.tables.log = []
    · exact .inr (appendIfNoNewer_eq_appendBatch reachable.holds compiled (fun _ => can)
        (.inr quiet)).1
    · exact .inl (congrArg Prod.fst
        (run_appendIfNoNewer_of_newer reachable.holds compiled some_drafts sound can quiet))
  case latest =>
    intro type f valid only fits
    exact run_latest_of_holds reachable.holds sound (Filter.compile_of_valid valid)
      ((Statement.canSelectLatest_iff _ _).2 ⟨only.not_hasNul clean, fits⟩)
  case query =>
    intro type f valid only fits readable
    have compiled : compileOptional (some f) = .ok f.fieldTests := Filter.compile_of_valid valid
    obtain ⟨metrics, ran⟩ := run_queryProjections_of_readable sound compiled
      ((Statement.canList_iff type _).2 ⟨only.not_hasNul clean, fits⟩) readable
    exact ⟨_, congrArg Prod.fst ran⟩
  case index =>
    intro table
    rw [run_createIndex_of_accepted accepted sound, if_neg clean]

theorem refuses (accepted : Filter.checkName name = .ok ()) (nul : HasNul name)
    (sound : s.poisoned = false) : s.Refuses name := by
  have spelled {specs : List Stream} (uses : ∃ spec ∈ specs, spec.Uses name) :
      ∃ spec ∈ specs, spec.SpellsNul := by
    obtain ⟨spec, present, used⟩ := uses
    exact ⟨spec, present, used.spellsNul nul⟩
  constructor
  case streams =>
    intro specs after valid uses
    rw [run_streams_of_spelled (Selection.compile_of_valid valid) (spelled uses), sound]
    rfl
  case guarded =>
    intro drafts floor specs some_drafts valid uses
    rw [run_appendIfNoNewer_of_spelled (Selection.compile_of_valid valid) some_drafts
      (spelled uses), sound]
    rfl
  case latest =>
    intro type f valid uses
    refine run_latest_of_refused (Filter.compile_of_valid valid) (fun can => ?_) sound
    exact ((Statement.canSelectLatest_iff _ _).1 can).1 (uses.hasNul nul)
  case query =>
    intro type f valid uses
    have compiled : compileOptional (some f) = .ok f.fieldTests := Filter.compile_of_valid valid
    have refused : ¬ Statement.canList type f.fieldTests := fun can =>
      ((Statement.canList_iff _ _).1 can).1 (uses.hasNul nul)
    rw [run_queryProjections_of_refused compiled refused, sound]
    rfl
  case index =>
    intro table
    rw [run_createIndex_of_accepted accepted sound, if_pos nul]

end Store

/-- What an accepted name does. A plain one decides by its member. One with a
backslash, and without a NUL, decides as if its member were not there. Without a NUL
a reachable store takes the name, and with one every store refuses it. -/
theorem accepted_names (name : String) (accepted : Filter.checkName name = .ok ()) :
    (IsPlain name → DecidedByMember name) ∧
    ('\\' ∈ name.toList → ¬ HasNul name → ∀ (c : Condition) (p : Json),
      c.holdsOf name p = c.holdsOf name (p.without name)) ∧
    (¬ HasNul name → ∀ s : Store, s.Reachable → s.poisoned = false → s.Takes name) ∧
    (HasNul name → ∀ s : Store, s.poisoned = false → s.Refuses name) := by
  refine ⟨decidedByMember, fun escaped clean c p => ?_, fun clean s reachable sound => ?_,
    fun nul s sound => ?_⟩
  · exact Condition.holdsOf_congr (Payload.cell?_of_escaped escaped clean p) c
  · exact Store.takes accepted clean reachable sound
  · exact Store.refuses accepted nul sound

/-- A plain name decides by its member, on a store with one event it is taken; a name
with a backslash decides as if its member were not there; and one with a NUL is
refused. -/
theorem accepted_names_each :
    (Condition.compare .eq (.text "y")).holdsOf "a" plainMember ∧ Store.afterOne.Takes "a" ∧
      (∀ c : Condition, c.holdsOf "a\\b" escapedMember = c.holdsOf "a\\b" (.object [])) ∧
      (Store.new default).Refuses "a\x00b" := by
  have plain := accepted_names "a" rfl
  have decided := (plain.1 (by decide)).text plainMember "y" "y" plainMember_canonical rfl
  refine ⟨decided.2 rfl, ?_, fun c => ?_, ?_⟩
  · exact plain.2.2.1 (by decide) _ Store.afterOne_reachable rfl
  · exact (accepted_names "a\\b" rfl).2.1 (by decide) (by decide) c escapedMember
  · exact (accepted_names "a\x00b" rfl).2.2.2 (by decide) _ rfl

/-- A payload whose only member goes on after a name with a NUL. -/
def longerMember : Json := .object [("a\x00b", .string "y")]

/-- Accepted names that do not decide by their members: with a backslash a text is not
found equal to itself; with a NUL a stream cannot be read; and a name finds the member
of a longer one that goes on after it with a NUL. -/
theorem accepted_names_stray :
    (Filter.checkName "a\\b" = .ok () ∧
      escapedMember.member? "a\\b" = some (.string "y") ∧
      ¬ (Condition.compare .eq (.text "y")).holdsOf "a\\b" escapedMember) ∧
    (Filter.checkName "a\x00b" = .ok () ∧ (Store.new default).Refuses "a\x00b") ∧
    (Filter.checkName "a" = .ok () ∧ longerMember.member? "a" = none ∧
      (Condition.compare .eq (.text "y")).holdsOf "a" longerMember) := by
  have nothing : Condition.found "a\\b" escapedMember = none :=
    Payload.cell?_of_escaped (by decide) (by decide) escapedMember
  have longer : Condition.found "a" longerMember = some (.text (points "y")) := by
    rw [Condition.found, longerMember, Payload.cell?_object, pathPoints_of_plain (by decide)]
    rfl
  refine ⟨⟨rfl, rfl, ?_⟩, ⟨rfl, Store.refuses rfl (by decide) rfl⟩, rfl, rfl, ?_⟩
  · rw [Condition.holdsOf_of_none nothing]
    simp
  · rw [Condition.holdsOf_compare_eq longer]
    decide

end Chronicle
