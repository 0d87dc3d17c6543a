import Chronicle.Proofs.Log.Outside

/-!
# Reads of several streams

A read of several streams gives what the reads of each of them give, in the order of
the ids and each event once (`Store.streams_union_exact`). How the streams are written
does not matter: in which order, how often, with which of the types in which stream
(`Stream.Rearranged`).

This is about statements that the database prepares. A rearrangement may take a statement
past its limits, and then the read fails (`Store.repeated_stream_fails`).
-/

namespace Chronicle

/-! ## Reading rows -/

/-- The events of those rows that can be read. -/
def EventRow.legible (rows : List EventRow) : List StoredEvent :=
  rows.filterMap (·.read.toOption)

namespace EventRow

variable {rows : List EventRow}

theorem mem_legible {event : StoredEvent} :
    event ∈ legible rows ↔ ∃ row ∈ rows, row.read = .ok event := by
  unfold legible
  rw [List.mem_filterMap]
  refine exists_congr fun row => and_congr_right fun _ => ?_
  cases row.read <;> simp [Except.toOption]

/-- Rows are read when each of them can be, in their order. -/
theorem mapM_read_eq_ok {events : List StoredEvent} :
    rows.mapM read = .ok events ↔ (∀ row ∈ rows, row.Readable) ∧ events = legible rows := by
  induction rows generalizing events with
  | nil => simp [legible, pure, Except.pure, eq_comm]
  | cons row rows ih =>
    rw [List.mapM_cons, List.forall_mem_cons]
    cases first : row.read with
    | error fault => simp [Readable, first, bind, Except.bind]
    | ok event =>
      have split : legible (row :: rows) = event :: legible rows := by
        simp [legible, first, Except.toOption]
      cases others : rows.mapM read with
      | error fault =>
        have unreadable : ¬ ∀ row ∈ rows, row.Readable := fun all => by
          rw [ih.2 ⟨all, rfl⟩] at others
          cases others
        simp [unreadable, bind, Except.bind]
      | ok rest =>
        obtain ⟨all, rfl⟩ := ih.1 others
        have readable : row.Readable := ⟨event, first⟩
        rw [split]
        simp only [readable, true_and]
        constructor
        · intro same
          exact ⟨all, (Except.ok.inj same).symm⟩
        · rintro ⟨-, rfl⟩
          rfl

theorem pairwise_legible (ordered : rows.Pairwise (·.id < ·.id)) :
    (legible rows).Pairwise (·.id < ·.id) := by
  refine ordered.filterMap _ fun row later before event given event' given' => ?_
  have id {row : EventRow} {event : StoredEvent} (given : event ∈ row.read.toOption) :
      event.id = row.id := by
    cases reads : row.read with
    | error fault => simp [reads, Except.toOption] at given
    | ok e =>
      obtain rfl : e = event := by simpa [reads, Except.toOption] using given
      exact id_of_read reads
  rw [id given, id given']
  exact before

/-- A floor can be applied to the events that were read. -/
theorem legible_filter (floor : EventId) :
    legible (rows.filter (floor < ·.id)) = (legible rows).filter (floor < ·.id) := by
  induction rows with
  | nil => rfl
  | cons row rows ih =>
    cases reads : row.read with
    | error fault =>
      have skip (rows : List EventRow) : legible (row :: rows) = legible rows := by
        simp [legible, reads, Except.toOption]
      rw [skip, ← ih, List.filter_cons]
      split
      · exact skip _
      · rfl
    | ok event =>
      have keep (rows : List EventRow) : legible (row :: rows) = event :: legible rows := by
        simp [legible, reads, Except.toOption]
      rw [keep, List.filter_cons, List.filter_cons, id_of_read reads, ← ih]
      split
      · exact keep _
      · rfl

end EventRow

/-- In an ascending list, what comes after a floor comes last. -/
theorem filter_after_suffix {events : List StoredEvent} (sorted : events.Pairwise (·.id < ·.id))
    (floor : EventId) : events.filter (floor < ·.id) <:+ events := by
  induction events with
  | nil => exact List.suffix_refl _
  | cons event rest ih =>
    obtain ⟨first, sortedRest⟩ := List.pairwise_cons.1 sorted
    by_cases after : floor < event.id
    · have all : (event :: rest).filter (floor < ·.id) = event :: rest := by
        refine List.filter_eq_self.2 fun later present => decide_eq_true ?_
        rcases List.mem_cons.1 present with rfl | inRest
        · exact after
        · exact Int.lt_trans after (first later inRest)
      exact ⟨[], all⟩
    · rw [List.filter_cons_of_neg (by simp [after])]
      exact (ih sortedRest).trans (List.suffix_cons ..)

/-! ## The rows of some streams -/

/-- A row with a type and a payload of any spelling belongs to the stream. -/
theorem Stream.holds_test_iff (s : Stream) (type : String) (payload : Payload) :
    s.test.holds type payload ↔ type ∈ s.types ∧ holdsAll s.tests payload := by
  unfold test
  split
  · rename_i typeless
    simp [StreamTest.holds, typeless]
  · simp [StreamTest.holds]

theorem Selection.holds_ofStreams_iff {specs : List Stream} {type : String} {payload : Payload} :
    (ofStreams specs).holds type payload ↔ ∃ spec ∈ specs, spec.test.holds type payload := by
  simp [holds, ofStreams]

theorem Selection.holds_ofStreams_append (first second : List Stream) (type : String)
    (payload : Payload) :
    (ofStreams (first ++ second)).holds type payload =
      ((ofStreams first).holds type payload || (ofStreams second).holds type payload) := by
  simp [holds, ofStreams]

/-- Tables are asked for streams through what the selection holds of alone. -/
theorem Tables.selected_congr {a b : Selection}
    (same : ∀ type payload, a.holds type payload = b.holds type payload) (t : Tables)
    (after : Option EventId) : t.selected a after = t.selected b after := by
  unfold selected
  simp only [same]

theorem Tables.selected_floor (t : Tables) (s : Selection) (floor : EventId) :
    t.selected s (some floor) = (t.selected s none).filter (floor < ·.id) := by
  unfold selected isAfter
  rw [List.filter_filter]
  refine List.filter_congr fun row _ => ?_
  simp [Bool.and_comm]

theorem Tables.mem_selected {t : Tables} {s : Selection} {after : Option EventId} {row : EventRow} :
    row ∈ t.selected s after ↔
      row ∈ t.events ∧ s.holds row.type row.data ∧ after.all (· < row.id) := by
  simp [selected, isAfter]

theorem Tables.Ordered.selected {t : Tables} (ordered : t.Ordered) (s : Selection)
    (after : Option EventId) : (t.selected s after).Pairwise (·.id < ·.id) :=
  List.Pairwise.filter _ ordered

/-! ## Limits -/

namespace Nesting

theorem le_most_or (a b : Nesting) : a.most ≤ (a.or b).most ∧ b.most ≤ (a.or b).most := by
  constructor
  · exact Nat.le_trans (Nat.le_max_left ..) (Nat.le_max_right ..)
  · exact Nat.le_trans (Nat.le_max_right ..) (Nat.le_max_right ..)

theorem le_most_foldl_or (a : Nesting) (rest : List Nesting) :
    a.most ≤ (rest.foldl or a).most ∧ ∀ b ∈ rest, b.most ≤ (rest.foldl or a).most := by
  induction rest generalizing a with
  | nil => exact ⟨Nat.le_refl _, by simp⟩
  | cons b rest ih =>
    obtain ⟨start, others⟩ := ih (a.or b)
    obtain ⟨left, right⟩ := le_most_or a b
    exact ⟨Nat.le_trans left start, List.forall_mem_cons.2 ⟨Nat.le_trans right start, others⟩⟩

end Nesting

namespace Selection

theorem most_le_of_mem {s : Selection} {test : StreamTest} (present : test ∈ s) :
    test.nesting.most ≤ s.nesting.most := by
  have among : test.nesting ∈ s.map StreamTest.nesting := List.mem_map_of_mem present
  unfold nesting
  cases tests : s.map StreamTest.nesting with
  | nil =>
    rw [tests] at among
    cases among
  | cons first rest =>
    rw [tests] at among
    obtain ⟨start, others⟩ := Nesting.le_most_foldl_or first rest
    rcases List.mem_cons.1 among with same | inRest
    · rw [same]
      exact start
    · exact others _ inRest

end Selection

/-- A stream that can be read together with others can be read alone. -/
theorem Statement.selectFits_of_mem {specs : List Stream} {after : Option EventId}
    (fits : selectFits (.ofStreams specs) after) {spec : Stream} (present : spec ∈ specs) :
    selectFits (.ofStreams [spec]) none := by
  have among : spec.test ∈ Selection.ofStreams specs := List.mem_map_of_mem present
  have fitsNone : selectFits (.ofStreams specs) none := by
    cases after with
    | none => exact fits
    | some floor => exact selectFits_of_floor fits
  unfold selectFits streamsNest at fitsNone ⊢
  rw [Bool.and_eq_true, Bool.not_eq_true', decide_eq_false_iff_not, decide_eq_true_eq] at fitsNone ⊢
  obtain ⟨shallow, few⟩ := fitsNone
  refine ⟨fun deep => shallow (Nat.lt_of_lt_of_le deep (Selection.most_le_of_mem among)),
    Nat.le_trans ?_ few⟩
  obtain ⟨front, back, split⟩ := List.append_of_mem among
  have mine : (Selection.ofStreams [spec]).fragment.params = spec.test.fragment.params := by
    simp [Selection.params_fragment, Selection.ofStreams]
  rw [mine, Selection.params_fragment, split, List.flatMap_append, List.flatMap_cons,
    List.length_append, List.length_append]
  exact Nat.add_le_add_right (Nat.le_trans (Nat.le_add_right ..) (Nat.le_add_left ..)) _

/-! ## Ways to write some streams -/

namespace Stream

/-- The same streams in another order or number, one with its types in another order or
number, or one written as two that share its types. -/
inductive Rearranged : List Stream → List Stream → Prop
  | streams {first second : List Stream} (same : ∀ spec, spec ∈ first ↔ spec ∈ second) :
    Rearranged first second
  | types (front back : List Stream) (filter : Option Filter) {types others : List String}
    (same : ∀ type, type ∈ types ↔ type ∈ others) :
    Rearranged (front ++ ⟨types, filter⟩ :: back) (front ++ ⟨others, filter⟩ :: back)
  | split (front back : List Stream) (filter : Option Filter) (types others : List String) :
    Rearranged (front ++ ⟨types ++ others, filter⟩ :: back)
      (front ++ ⟨types, filter⟩ :: ⟨others, filter⟩ :: back)

/-- The streams ask for the same types under the same filters. -/
structure Agree (first second : List Stream) : Prop where
  asks : ∀ type filter, (∃ spec ∈ first, type ∈ spec.types ∧ spec.filter = filter) ↔
    ∃ spec ∈ second, type ∈ spec.types ∧ spec.filter = filter
  filters : ∀ filter, (∃ spec ∈ first, spec.filter = filter) ↔ ∃ spec ∈ second, spec.filter = filter

variable {first second : List Stream}

theorem Rearranged.agree (rearranged : Rearranged first second) : Agree first second := by
  cases rearranged with
  | streams same =>
    exact ⟨fun type filter => by simp only [same], fun filter => by simp only [same]⟩
  | types front back filter same =>
    exact ⟨fun type other => by simp [or_and_right, exists_or, same],
      fun other => by simp [or_and_right, exists_or]⟩
  | split front back filter types others =>
    refine ⟨fun type other => ?_, fun other => ?_⟩
    · simp only [List.mem_append, List.mem_cons, or_and_right, exists_or, exists_eq_left, or_assoc]
    · simp [or_and_right, exists_or]

/-- However often streams are rearranged, and in either direction. -/
theorem agree_of_eqvGen (rearranged : Relation.EqvGen Rearranged first second) :
    Agree first second := by
  induction rearranged with
  | rel _ _ once => exact once.agree
  | refl => exact ⟨fun _ _ => .rfl, fun _ => .rfl⟩
  | symm _ _ _ ih => exact ⟨fun type f => (ih.asks type f).symm, fun f => (ih.filters f).symm⟩
  | trans _ _ _ _ _ ih ih' =>
    exact ⟨fun type f => (ih.asks type f).trans (ih'.asks type f),
      fun f => (ih.filters f).trans (ih'.filters f)⟩

namespace Agree

theorem valid (agree : Agree first second) (valid : ∀ spec ∈ first, spec.Valid) :
    ∀ spec ∈ second, spec.Valid := by
  intro spec present filter given
  obtain ⟨other, inFirst, same⟩ := (agree.filters (some filter)).2 ⟨spec, present, given⟩
  exact valid other inFirst filter same

theorem eq_nil_iff (agree : Agree first second) : first = [] ↔ second = [] := by
  simp only [List.eq_nil_iff_forall_not_mem]
  constructor
  · intro none spec present
    obtain ⟨other, inFirst, -⟩ := (agree.filters spec.filter).2 ⟨spec, present, rfl⟩
    exact none other inFirst
  · intro none spec present
    obtain ⟨other, inSecond, -⟩ := (agree.filters spec.filter).1 ⟨spec, present, rfl⟩
    exact none other inSecond

theorem symm (agree : Agree first second) : Agree second first :=
  ⟨fun type f => (agree.asks type f).symm, fun f => (agree.filters f).symm⟩

theorem holds_imp (agree : Agree first second) {type : String} {payload : Payload}
    (holds : (Selection.ofStreams first).holds type payload) :
    (Selection.ofStreams second).holds type payload := by
  obtain ⟨spec, present, belongs⟩ := Selection.holds_ofStreams_iff.1 holds
  obtain ⟨asked, passes⟩ := (spec.holds_test_iff type payload).1 belongs
  obtain ⟨other, inSecond, askedThere, same⟩ :=
    (agree.asks type spec.filter).1 ⟨spec, present, asked, rfl⟩
  have passesThere : holdsAll other.tests payload := by
    rw [tests, same]
    exact passes
  exact Selection.holds_ofStreams_iff.2
    ⟨other, inSecond, (other.holds_test_iff type payload).2 ⟨askedThere, passesThere⟩⟩

theorem holds_eq (agree : Agree first second) (type : String) (payload : Payload) :
    (Selection.ofStreams first).holds type payload =
      (Selection.ofStreams second).holds type payload :=
  Bool.eq_iff_iff.2 ⟨agree.holds_imp, agree.symm.holds_imp⟩

theorem spellsNul_imp (agree : Agree first second) (spells : ∃ spec ∈ first, spec.SpellsNul) :
    ∃ spec ∈ second, spec.SpellsNul := by
  obtain ⟨spec, present, typed, filter, given, entry, has, nul⟩ := spells
  obtain ⟨type, asked⟩ := List.exists_mem_of_ne_nil _ typed
  obtain ⟨other, inSecond, askedThere, same⟩ :=
    (agree.asks type spec.filter).1 ⟨spec, present, asked, rfl⟩
  exact ⟨other, inSecond, List.ne_nil_of_mem askedThere, filter, same.trans given, entry, has, nul⟩

end Agree

end Stream

namespace Store

variable {s : Store} {specs : List Stream} {after : Option EventId}

/-- What a read of some streams answers. -/
def answer (s : Store) (specs : List Stream) (after : Option EventId) :
    Except Fault (List StoredEvent) :=
  ((streams specs after).run s).1

/-- What a read of one stream answers. -/
def answerOne (s : Store) (spec : Stream) (after : Option EventId) :
    Except Fault (List StoredEvent) :=
  ((EventLog.stream spec after).run s).1

theorem answerOne_eq (s : Store) (spec : Stream) (after : Option EventId) :
    s.answerOne spec after = s.answer [spec] after := rfl

/-- When a read is answered and with what. Without streams it always is. -/
theorem answer_eq_ok_iff (valid : ∀ spec ∈ specs, spec.Valid) {events : List StoredEvent} :
    s.answer specs after = .ok events ↔
      (specs ≠ [] → s.poisoned = false ∧ Statement.canSelect (.ofStreams specs) after) ∧
      (∀ row ∈ s.tables.selected (.ofStreams specs) after, row.Readable) ∧
      events = EventRow.legible (s.tables.selected (.ofStreams specs) after) := by
  have compiled := Selection.compile_of_valid valid
  by_cases none : specs = []
  · subst none
    have nothing : s.tables.selected (.ofStreams []) after = [] :=
      List.filter_eq_nil_iff.2 fun row _ => by simp [Selection.holds, Selection.ofStreams]
    have answered : s.answer [] after = .ok [] := by
      rw [answer, run_streams, compiled]
      rfl
    rw [answered, nothing]
    constructor
    · intro same
      exact ⟨fun some_specs => absurd rfl some_specs, by simp, (Except.ok.inj same).symm⟩
    · rintro ⟨-, -, rfl⟩
      rfl
  by_cases asked : s.poisoned = false ∧ Statement.canSelect (.ofStreams specs) after
  · obtain ⟨sound, can⟩ := asked
    simp only [Statement.canSelect, Bool.and_eq_true, Bool.not_eq_true'] at can
    have answered : s.answer specs after =
        (s.tables.selected (.ofStreams specs) after).mapM EventRow.read := by
      rw [answer, run_streams, compiled]
      simp only [if_neg none, sound, can]
      cases (s.tables.selected (.ofStreams specs) after).mapM EventRow.read <;> rfl
    rw [answered, EventRow.mapM_read_eq_ok]
    simp [sound, can, Statement.canSelect]
  · -- Behind a broken lock, or past the limits, no read of streams is answered.
    have refused : ∃ fault, s.answer specs after = .error fault := by
      by_cases can : Statement.canSelect (.ofStreams specs) after
      · have poisoned : s.poisoned = true := by simpa [can] using asked
        refine ⟨.lock "connection mutex poisoned", ?_⟩
        rw [answer, run_streams, compiled]
        simp only [if_neg none, poisoned, if_true]
      · exact ⟨_, congrArg Prod.fst (run_streams_of_refused compiled none can)⟩
    obtain ⟨fault, refused⟩ := refused
    rw [refused]
    refine iff_of_false (by simp) ?_
    rintro ⟨sound, -⟩
    exact asked (sound none)

theorem mem_answer (valid : ∀ spec ∈ specs, spec.Valid) {events : List StoredEvent}
    (answered : s.answer specs after = .ok events) {event : StoredEvent} :
    event ∈ events ↔ after.all (· < event.id) ∧ ∃ row ∈ s.tables.events, row.read = .ok event ∧
      ∃ spec ∈ specs, spec.test.holds row.type row.data := by
  obtain ⟨-, -, rfl⟩ := (answer_eq_ok_iff valid).1 answered
  rw [EventRow.mem_legible]
  simp only [Tables.mem_selected, Selection.holds_ofStreams_iff]
  constructor
  · rintro ⟨row, ⟨present, belongs, above⟩, reads⟩
    rw [← EventRow.id_of_read reads] at above
    exact ⟨above, row, present, reads, belongs⟩
  · rintro ⟨above, row, present, reads, belongs⟩
    rw [EventRow.id_of_read reads] at above
    exact ⟨row, ⟨present, belongs, above⟩, reads⟩

theorem pairwise_answer (ordered : s.tables.Ordered) (valid : ∀ spec ∈ specs, spec.Valid)
    {events : List StoredEvent} (answered : s.answer specs after = .ok events) :
    events.Pairwise (·.id < ·.id) := by
  obtain ⟨-, -, rfl⟩ := (answer_eq_ok_iff valid).1 answered
  exact EventRow.pairwise_legible (ordered.selected _ _)

/-- A read that was answered came to a sound store and spelled no NUL. -/
theorem sound_of_answer (valid : ∀ spec ∈ specs, spec.Valid) {events : List StoredEvent}
    (answered : s.answer specs after = .ok events) :
    (specs ≠ [] → s.poisoned = false) ∧ ¬ ∃ spec ∈ specs, spec.SpellsNul := by
  obtain ⟨asked, -, -⟩ := (answer_eq_ok_iff valid).1 answered
  refine ⟨fun some_specs => (asked some_specs).1, ?_⟩
  rw [← Selection.spellsNul_ofStreams]
  exact Selection.not_spellsNul_of_canSelect fun some_specs => (asked some_specs).2

/-! ## Several streams and each of them -/

/-- A read of several streams is answered when each of them can be read. -/
theorem exists_answer (valid : ∀ spec ∈ specs, spec.Valid)
    (fits : Statement.selectFits (.ofStreams specs) after)
    (singly : ∀ spec ∈ specs, ∃ events, s.answerOne spec none = .ok events) :
    ∃ events, s.answer specs after = .ok events := by
  have one {spec : Stream} (present : spec ∈ specs) : ∀ other ∈ [spec], other.Valid :=
    List.forall_mem_singleton.2 (valid spec present)
  refine ⟨_, (answer_eq_ok_iff valid).2 ⟨fun some_specs => ⟨?_, ?_⟩, fun row among => ?_, rfl⟩⟩
  · obtain ⟨spec, present⟩ := List.exists_mem_of_ne_nil _ some_specs
    obtain ⟨events, answered⟩ := singly spec present
    exact (sound_of_answer (one present) answered).1 (List.cons_ne_nil _ _)
  · refine (Statement.canSelect_iff _ _).2 ⟨?_, fits⟩
    rw [Selection.spellsNul_ofStreams]
    rintro ⟨spec, present, spells⟩
    obtain ⟨events, answered⟩ := singly spec present
    exact (sound_of_answer (one present) answered).2 ⟨spec, List.mem_singleton_self _, spells⟩
  · -- The row belongs to one of the streams, and the read of that one gave it.
    obtain ⟨inTable, belongs, -⟩ := Tables.mem_selected.1 among
    obtain ⟨spec, present, holds⟩ := Selection.holds_ofStreams_iff.1 belongs
    obtain ⟨events, answered⟩ := singly spec present
    obtain ⟨-, readable, -⟩ := (answer_eq_ok_iff (one present)).1 answered
    refine readable row (Tables.mem_selected.2 ⟨inTable, ?_, rfl⟩)
    exact Selection.holds_ofStreams_iff.2 ⟨spec, List.mem_singleton_self _, holds⟩

/-- The events after the floor that a read of one of the streams gives. -/
theorem mem_answer_iff_singly (valid : ∀ spec ∈ specs, spec.Valid)
    (singly : ∀ spec ∈ specs, ∃ events, s.answerOne spec none = .ok events)
    {events : List StoredEvent} (answered : s.answer specs after = .ok events)
    (event : StoredEvent) :
    event ∈ events ↔ after.all (· < event.id) ∧
      ∃ spec ∈ specs, ∃ given, s.answerOne spec none = .ok given ∧ event ∈ given := by
  have one {spec : Stream} (present : spec ∈ specs) {given : List StoredEvent}
      (answeredOne : s.answerOne spec none = .ok given) :
      event ∈ given ↔ ∃ row ∈ s.tables.events, row.read = .ok event ∧
        spec.test.holds row.type row.data := by
    have each : ∀ other ∈ [spec], other.Valid := List.forall_mem_singleton.2 (valid spec present)
    simpa using mem_answer each answeredOne
  rw [mem_answer valid answered]
  refine and_congr_right fun _ => ?_
  constructor
  · rintro ⟨row, inTable, reads, spec, present, belongs⟩
    obtain ⟨given, answeredOne⟩ := singly spec present
    exact ⟨spec, present, given, answeredOne,
      (one present answeredOne).2 ⟨row, inTable, reads, belongs⟩⟩
  · rintro ⟨spec, present, given, answeredOne, inGiven⟩
    obtain ⟨row, inTable, reads, belongs⟩ := (one present answeredOne).1 inGiven
    exact ⟨row, inTable, reads, spec, present, belongs⟩

/-- On a log every stream can be read that spells no NUL and is within the limits. -/
theorem exists_answerOne (reachable : s.Reachable) (sound : s.poisoned = false)
    (valid : ∀ spec ∈ specs, spec.Valid) (clean : ¬ ∃ spec ∈ specs, spec.SpellsNul)
    (fits : Statement.selectFits (.ofStreams specs) after) {spec : Stream}
    (present : spec ∈ specs) : ∃ events, s.answerOne spec none = .ok events := by
  have mine : ¬ (Selection.ofStreams [spec]).SpellsNul := by
    rw [Selection.spellsNul_ofStreams]
    rintro ⟨other, isSpec, spells⟩
    rw [List.mem_singleton.1 isSpec] at spells
    exact clean ⟨spec, present, spells⟩
  have can := (Statement.canSelect_iff _ none).2 ⟨mine, Statement.selectFits_of_mem fits present⟩
  have compiled := Selection.compile_of_valid (List.forall_mem_singleton.2 (valid spec present))
  obtain ⟨metrics, ran⟩ := run_streams_of_holds reachable.holds sound compiled fun _ => can
  exact ⟨_, congrArg Prod.fst ran⟩

/-! ## Other ways to ask -/

/-- Streams that ask for the same are read alike. -/
theorem run_streams_of_agree {others : List Stream} (agree : Stream.Agree specs others)
    (valid : ∀ spec ∈ specs, spec.Valid) (fits : Statement.selectFits (.ofStreams specs) after)
    (fitsOthers : Statement.selectFits (.ofStreams others) after) :
    (streams others after).run s = (streams specs after).run s := by
  have rows := Tables.selected_congr agree.holds_eq s.tables after
  have clean :
      ¬ (Selection.ofStreams specs).SpellsNul ↔ ¬ (Selection.ofStreams others).SpellsNul := by
    rw [Selection.spellsNul_ofStreams, Selection.spellsNul_ofStreams]
    exact not_congr ⟨agree.spellsNul_imp, agree.symm.spellsNul_imp⟩
  have can : Statement.canSelect (.ofStreams specs) after ↔
      Statement.canSelect (.ofStreams others) after := by
    rw [Statement.canSelect_iff, Statement.canSelect_iff]
    exact and_congr clean (iff_of_true fits fitsOthers)
  have compiled := Selection.compile_of_valid valid
  have compiledOthers := Selection.compile_of_valid (agree.valid valid)
  by_cases none : specs = []
  · rw [none, agree.eq_nil_iff.1 none]
  have someOthers : others ≠ [] := mt agree.eq_nil_iff.2 none
  by_cases prepared : Statement.canSelect (.ofStreams specs) after
  · have preparedOthers := can.1 prepared
    simp only [Statement.canSelect, Bool.and_eq_true, Bool.not_eq_true'] at prepared preparedOthers
    rw [run_streams, run_streams, compiled, compiledOthers]
    simp only [none, someOthers, prepared, preparedOthers, rows]
  · rw [run_streams_of_refused compiled none prepared,
      run_streams_of_refused compiledOthers someOthers (mt can.2 prepared)]

/-- A floor leaves of what is read from the start what comes after it. -/
theorem answer_floor (valid : ∀ spec ∈ specs, spec.Valid) {floor : EventId}
    (fits : Statement.selectFits (.ofStreams specs) (some floor)) {all : List StoredEvent}
    (answered : s.answer specs none = .ok all) :
    s.answer specs (some floor) = .ok (all.filter (floor < ·.id)) := by
  have clean := (sound_of_answer valid answered).2
  obtain ⟨asked, readable, rfl⟩ := (answer_eq_ok_iff valid).1 answered
  refine (answer_eq_ok_iff valid).2 ⟨fun some_specs => ⟨(asked some_specs).1, ?_⟩,
    fun row among => ?_, ?_⟩
  · exact (Statement.canSelect_iff _ _).2 ⟨mt (Selection.spellsNul_ofStreams specs).1 clean, fits⟩
  · rw [Tables.selected_floor] at among
    exact readable row (List.mem_filter.1 among).1
  · rw [Tables.selected_floor, EventRow.legible_filter]

/-- Streams of two lists are read together as they are apart. -/
theorem answer_append {first second : List Stream} (validFirst : ∀ spec ∈ first, spec.Valid)
    (validSecond : ∀ spec ∈ second, spec.Valid)
    (fits : Statement.selectFits (.ofStreams (first ++ second)) after)
    {left right : List StoredEvent} (answeredLeft : s.answer first after = .ok left)
    (answeredRight : s.answer second after = .ok right) :
    ∃ events, s.answer (first ++ second) after = .ok events ∧
      ∀ event, event ∈ events ↔ event ∈ left ∨ event ∈ right := by
  have valid : ∀ spec ∈ first ++ second, spec.Valid :=
    List.forall_mem_append.2 ⟨validFirst, validSecond⟩
  obtain ⟨soundFirst, cleanFirst⟩ := sound_of_answer validFirst answeredLeft
  obtain ⟨soundSecond, cleanSecond⟩ := sound_of_answer validSecond answeredRight
  obtain ⟨-, readableFirst, -⟩ := (answer_eq_ok_iff validFirst).1 answeredLeft
  obtain ⟨-, readableSecond, -⟩ := (answer_eq_ok_iff validSecond).1 answeredRight
  obtain ⟨events, answered⟩ : ∃ events, s.answer (first ++ second) after = .ok events := by
    refine ⟨_, (answer_eq_ok_iff valid).2 ⟨fun some_specs => ⟨?_, ?_⟩, fun row among => ?_, rfl⟩⟩
    · rcases not_and_or.1 (mt List.append_eq_nil_iff.2 some_specs) with someFirst | someSecond
      · exact soundFirst someFirst
      · exact soundSecond someSecond
    · refine (Statement.canSelect_iff _ _).2 ⟨?_, fits⟩
      rw [Selection.spellsNul_ofStreams]
      rintro ⟨spec, present, spells⟩
      rcases List.mem_append.1 present with inFirst | inSecond
      · exact cleanFirst ⟨spec, inFirst, spells⟩
      · exact cleanSecond ⟨spec, inSecond, spells⟩
    · obtain ⟨inTable, belongs, above⟩ := Tables.mem_selected.1 among
      rw [Selection.holds_ofStreams_append, Bool.or_eq_true] at belongs
      rcases belongs with ofFirst | ofSecond
      · exact readableFirst row (Tables.mem_selected.2 ⟨inTable, ofFirst, above⟩)
      · exact readableSecond row (Tables.mem_selected.2 ⟨inTable, ofSecond, above⟩)
  refine ⟨events, answered, fun event => ?_⟩
  rw [mem_answer valid answered, mem_answer validFirst answeredLeft,
    mem_answer validSecond answeredRight]
  simp only [List.mem_append, or_and_right, exists_or, and_or_left]

/-! ## The union -/

/-- A read of valid streams whose statement is within the limits, on any store that can
arise. When each stream can be read alone, and on a sound reachable store each that spells
no NUL can be, the read gives in ascending order, each once, the events after the floor
that the reads of single streams give from the start. Streams rearranged in any way
within the limits are read alike. With a floor the read gives the end of the one without.
Two lists of streams that are read together give what they give apart. -/
theorem streams_union_exact (arises : s.Arises) (valid : ∀ spec ∈ specs, spec.Valid)
    (fits : Statement.selectFits (.ofStreams specs) after) :
    (s.Reachable → s.poisoned = false → (¬ ∃ spec ∈ specs, spec.SpellsNul) →
      ∀ spec ∈ specs, ∃ events, s.answerOne spec none = .ok events) ∧
    ((∀ spec ∈ specs, ∃ events, s.answerOne spec none = .ok events) →
      ∃ events, s.answer specs after = .ok events ∧ events.Pairwise (·.id < ·.id) ∧
        ∀ event, event ∈ events ↔ after.all (· < event.id) ∧
          ∃ spec ∈ specs, ∃ given, s.answerOne spec none = .ok given ∧ event ∈ given) ∧
    (∀ others, Relation.EqvGen Stream.Rearranged specs others →
      Statement.selectFits (.ofStreams others) after →
      (streams others after).run s = (streams specs after).run s) ∧
    (∀ floor all, after = some floor → s.answer specs none = .ok all →
      s.answer specs after = .ok (all.filter (floor < ·.id)) ∧
        all.filter (floor < ·.id) <:+ all) ∧
    (∀ first second left right, specs = first ++ second → s.answer first after = .ok left →
      s.answer second after = .ok right →
      ∃ events, s.answer specs after = .ok events ∧ events.Pairwise (·.id < ·.id) ∧
        ∀ event, event ∈ events ↔ event ∈ left ∨ event ∈ right) := by
  have ordered := arises.ordered
  refine ⟨fun reachable sound clean spec present => ?_, fun singly => ?_,
    fun others rearranged fitsOthers => ?_, ?_, ?_⟩
  · exact exists_answerOne reachable sound valid clean fits present
  · obtain ⟨events, answered⟩ := exists_answer valid fits singly
    exact ⟨events, answered, pairwise_answer ordered valid answered,
      mem_answer_iff_singly valid singly answered⟩
  · exact run_streams_of_agree (Stream.agree_of_eqvGen rearranged) valid fits fitsOthers
  · rintro floor all rfl answered
    exact ⟨answer_floor valid fits answered,
      filter_after_suffix (pairwise_answer ordered valid answered) floor⟩
  · rintro first second left right rfl answeredLeft answeredRight
    obtain ⟨validFirst, validSecond⟩ := List.forall_mem_append.1 valid
    obtain ⟨events, answered, union⟩ :=
      answer_append validFirst validSecond fits answeredLeft answeredRight
    exact ⟨events, answered, pairwise_answer ordered valid answered, union⟩

/-- A stream that is asked for twice gives its event once. -/
theorem streams_union_exact_twice :
    (streams [plainStream, plainStream] (some 0)).run afterOne =
        (streams [plainStream] (some 0)).run afterOne ∧
      afterOne.answer [plainStream] (some 0) = .ok [⟨1, "T", .null, default, default⟩] := by
  have fits : Statement.selectFits (.ofStreams [plainStream]) (some 0) := rfl
  have union := streams_union_exact afterOne_reachable.arises plainStream_valid fits
  have twice : Stream.Rearranged [plainStream] [plainStream, plainStream] := .streams (by simp)
  have fromStart :
      afterOne.answer [plainStream] none = .ok [⟨1, "T", .null, default, default⟩] := by
    obtain ⟨metrics, ran⟩ := run_streams_of_holds afterOne_reachable.holds rfl
      (Selection.compile_of_valid plainStream_valid) fun _ => canSelect_plainStream none
    exact congrArg Prod.fst ran
  exact ⟨union.2.2.1 _ (.rel _ _ twice) rfl, (union.2.2.2.1 0 _ rfl fromStart).1⟩

/-- A wide stream can be read alone and not with itself. -/
theorem repeated_stream_fails :
    (∀ spec ∈ [wideStream, wideStream], spec.Valid) ∧
      afterOne.answerOne wideStream none = .ok [⟨1, "T", .null, default, default⟩] ∧
      afterOne.answer [wideStream, wideStream] none =
        .error (.storage "statement cannot be prepared") := by
  have valid : wideStream.Valid := wideStream_valid wideStream (List.mem_singleton_self _)
  have both : ∀ spec ∈ [wideStream, wideStream], spec.Valid :=
    List.forall_mem_cons.2 ⟨valid, wideStream_valid⟩
  have sound : afterOne.poisoned = false := rfl
  have tooMany : ¬ Statement.canSelect (.ofStreams [wideStream, wideStream]) none := by
    have once := params_wideStream
    rw [Statement.canSelect_iff, Statement.selectFits]
    rw [Selection.params_fragment] at once ⊢
    simp only [Selection.ofStreams, List.map_cons, List.map_nil, List.flatMap_cons,
      List.flatMap_nil, List.append_nil, List.length_append, Bool.and_eq_true,
      decide_eq_true_eq] at once ⊢
    rw [once]
    exact fun fits => absurd fits.2.2 (by decide)
  refine ⟨both, ?_, ?_⟩
  · obtain ⟨metrics, ran⟩ := run_streams_of_holds afterOne_reachable.holds rfl
      (Selection.compile_of_valid wideStream_valid) fun _ => (canSelect_wideStream none).2 rfl
    have log : afterOne.tables.log = [⟨1, "T", .null, default, default⟩] := rfl
    rw [answerOne_eq, answer, ran, log]
    simp [StoredEvent.isOf, StoredEvent.reread, has_wideStream]
  · rw [answer, run_streams_of_refused (Selection.compile_of_valid both) (List.cons_ne_nil _ _)
      tooMany, sound]
    rfl

end Store

end Chronicle
