import Chronicle.Proofs.Filter.Building
import Chronicle.Proofs.Log.Basic
import Chronicle.Proofs.Log.Limits

/-!
# The events of some streams

Which events of a log belong to some streams (`StoredEvent.isOf`), and which of
those have an id in a range (`stretch`). Ids grow along a log, so a stretch is
also a piece of the log: what a reader has seen is the stretch up to some id, and
what was written since is the stretch after it.

Compiled streams select the same events (`Tables.selected_ofStreams`), and a
store whose event table holds a log answers with them (`Store.run_streams_of_holds`).
-/

namespace Chronicle

/-! ## Streams as conditions on events -/

namespace Stream

/-- The tests of the stream's filter, if it has one. -/
def tests (s : Stream) : List FieldTest := (s.filter.map Filter.fieldTests).getD []

/-- An event with a type and a payload belongs to the stream. -/
def has (s : Stream) (type : String) (data : Json) : Bool :=
  s.types.contains type && holdsAll s.tests (.value data)

/-- The filter, if there is one, is valid. -/
def Valid (s : Stream) : Prop := ∀ filter, s.filter = some filter → filter.Valid

/-- What the stream compiles to. -/
def test (s : Stream) : StreamTest := if s.types = [] then .never else .ofTypes s.types s.tests

theorem compile_eq_ok {s : Stream} {t : StreamTest} (compiled : s.compile = .ok t) :
    t = s.test := by
  unfold compile at compiled
  unfold test tests
  by_cases typeless : s.types = []
  · rw [if_pos typeless] at compiled ⊢
    exact (Except.ok.inj compiled).symm
  · rw [if_neg typeless] at compiled ⊢
    cases given : s.filter with
    | none =>
      rw [given] at compiled
      exact (Except.ok.inj compiled).symm
    | some filter =>
      simp only [given, compileOptional, Filter.compile, bind, Except.bind, pure,
        Except.pure] at compiled
      split at compiled
      · simp [Except.map] at compiled
      · exact (Except.ok.inj compiled).symm

theorem compile_of_valid {s : Stream} (valid : s.Valid) : s.compile = .ok s.test := by
  have succeeds : ∃ t, s.compile = .ok t := by
    unfold compile
    by_cases typeless : s.types = []
    · exact ⟨_, if_pos typeless⟩
    · rw [if_neg typeless]
      cases given : s.filter with
      | none => exact ⟨_, rfl⟩
      | some filter =>
        exact ⟨.ofTypes s.types filter.fieldTests, by
          rw [compileOptional, filter.compile_of_valid (valid filter given), Except.map]⟩
  obtain ⟨t, compiled⟩ := succeeds
  rw [compiled, compile_eq_ok compiled]

@[simp]
theorem holds_test (s : Stream) (type : String) (data : Json) :
    s.test.holds type (.value data) = s.has type data := by
  unfold test has
  split
  · rename_i typeless
    simp [StreamTest.holds, typeless]
  · rfl

end Stream

namespace Selection

/-- What some streams compile to. -/
def ofStreams (specs : List Stream) : Selection := specs.map Stream.test

theorem compile_eq_ok {specs : List Stream} {selection : Selection}
    (compiled : compile specs = .ok selection) : selection = ofStreams specs := by
  induction specs generalizing selection with
  | nil => exact (Except.ok.inj compiled).symm
  | cons spec specs ih =>
    simp only [compile, List.mapM_cons, bind, Except.bind, pure, Except.pure] at compiled ih
    split at compiled
    · simp at compiled
    rename_i first compiledFirst
    split at compiled
    · simp at compiled
    rename_i rest compiledRest
    obtain rfl := Except.ok.inj compiled
    rw [Stream.compile_eq_ok compiledFirst, ih compiledRest]
    rfl

theorem compile_of_valid {specs : List Stream} (valid : ∀ spec ∈ specs, spec.Valid) :
    compile specs = .ok (ofStreams specs) := by
  induction specs with
  | nil => rfl
  | cons spec specs ih =>
    have first := Stream.compile_of_valid (valid spec List.mem_cons_self)
    have rest := ih fun s inRest => valid s (List.mem_cons_of_mem _ inRest)
    unfold compile at rest ⊢
    simp [first, rest, ofStreams, bind, Except.bind, pure, Except.pure]

theorem holds_ofStreams (specs : List Stream) (type : String) (data : Json) :
    (ofStreams specs).holds type (.value data) = specs.any (·.has type data) := by
  simp [holds, ofStreams, List.any_map, Function.comp_def]

end Selection

/-- The stream has types, and a condition on a field whose name has a NUL. -/
def Stream.SpellsNul (s : Stream) : Prop :=
  s.types ≠ [] ∧ ∃ filter, s.filter = some filter ∧ ∃ entry ∈ filter.tests, HasNul entry.1

theorem Selection.spellsNul_ofStreams (specs : List Stream) :
    (ofStreams specs).SpellsNul ↔ ∃ spec ∈ specs, spec.SpellsNul := by
  have each : ∀ spec : Stream,
      (∃ field ∈ spec.test.fields, HasNul field) ↔ spec.SpellsNul := fun spec => by
    unfold Stream.test Stream.tests Stream.SpellsNul
    cases spec.filter with
    | none => split <;> simp [StreamTest.fields]
    | some filter =>
      by_cases typeless : spec.types = []
      · simp [typeless, StreamTest.fields]
      · simp [typeless, StreamTest.fields, Filter.fieldTests, Condition.test]
  simp only [SpellsNul, ofStreams, List.mem_map, exists_exists_and_eq_and, each]

theorem Filter.hasNul_fieldTests {f : Filter} :
    (∃ test ∈ f.fieldTests, HasNul test.field) ↔ ∃ t ∈ f.tests, HasNul t.1 := by
  simp [fieldTests, Condition.test]

/-- Streams that can be read name no field with a NUL. -/
theorem Selection.not_spellsNul_of_canSelect {specs : List Stream} {after : Option EventId}
    (prepared : specs ≠ [] → Statement.canSelect (.ofStreams specs) after) :
    ¬ (ofStreams specs).SpellsNul := by
  by_cases none : specs = []
  · rw [none, spellsNul_ofStreams]
    simp
  · exact ((Statement.canSelect_iff _ _).1 (prepared none)).1

/-- The event belongs to one of some streams. -/
def StoredEvent.isOf (specs : List Stream) (event : StoredEvent) : Bool :=
  specs.any (·.has event.type event.data)

@[simp]
theorem StoredEvent.isOf_nil (event : StoredEvent) : event.isOf [] = false := rfl

/-! ## Stretches of a log -/

/-- The events of some streams after the first id, up to the second. -/
def stretch (specs : List Stream) (low high : EventId) (log : List StoredEvent) :
    List StoredEvent :=
  log.filter fun event => event.isOf specs && low < event.id && event.id ≤ high

/-- The events of some streams after a floor. -/
def newer (specs : List Stream) (floor : EventId) (log : List StoredEvent) : List StoredEvent :=
  log.filter fun event => event.isOf specs && floor < event.id

section Stretches

variable {specs : List Stream} {low mid high : EventId} {log more : List StoredEvent}

theorem mem_stretch {event : StoredEvent} :
    event ∈ stretch specs low high log ↔
      event ∈ log ∧ event.isOf specs ∧ low < event.id ∧ event.id ≤ high := by
  simp [stretch, and_assoc]

theorem stretch_append :
    stretch specs low high (log ++ more) =
      stretch specs low high log ++ stretch specs low high more :=
  List.filter_append ..

theorem stretch_eq_nil
    (outside : ∀ event ∈ log, event.isOf specs → low < event.id → high < event.id) :
    stretch specs low high log = [] := by
  refine List.eq_nil_iff_forall_not_mem.2 fun event present => ?_
  obtain ⟨inLog, isOf, above, upTo⟩ := mem_stretch.1 present
  exact absurd upTo (Int.not_le.2 (outside event inLog isOf above))

/-- What is written later does not change what came up to an id. -/
theorem stretch_grow (numbered : Consecutive noEvent (log ++ more)) (within : high ≤ log.length) :
    stretch specs low high (log ++ more) = stretch specs low high log := by
  have later : stretch specs low high more = [] := by
    refine stretch_eq_nil fun event inMore _ _ => ?_
    have after := ((consecutive_append.1 numbered).2.bounds inMore).1
    rw [noEvent, Int.zero_add] at after
    exact Int.lt_of_le_of_lt within after
  rw [stretch_append, later, List.append_nil]

/-- A stretch falls into two at an id within it. -/
theorem stretch_split (sorted : log.Pairwise (·.id < ·.id)) (above : low ≤ mid)
    (below : mid ≤ high) :
    stretch specs low high log = stretch specs low mid log ++ stretch specs mid high log := by
  induction log with
  | nil => rfl
  | cons event rest ih =>
    obtain ⟨first, sortedRest⟩ := List.pairwise_cons.1 sorted
    have splitRest := ih sortedRest
    -- The event is in the lower part or every event of the rest is in the upper one.
    by_cases early : event.id ≤ mid
    · have notHigh : ¬ mid < event.id := by lia
      have low_iff : (low < event.id && event.id ≤ high) = (low < event.id && event.id ≤ mid) := by
        grind
      simp only [stretch, List.filter_cons, Bool.and_assoc, low_iff, notHigh, decide_false,
        Bool.false_and, Bool.and_false] at splitRest ⊢
      split
      · simp [splitRest]
      · simpa using splitRest
    · have lowerEmpty : stretch specs low mid rest = [] := by
        refine stretch_eq_nil fun later inRest _ _ => ?_
        exact Int.lt_trans (Int.not_le.1 early) (first later inRest)
      have lowerEmptyHere : stretch specs low mid (event :: rest) = [] := by
        rw [stretch, List.filter_cons_of_neg (by simp [early])]
        exact lowerEmpty
      rw [lowerEmpty, List.nil_append] at splitRest
      rw [lowerEmptyHere, List.nil_append]
      have high_iff :
          (low < event.id && event.id ≤ high) = (mid < event.id && event.id ≤ high) := by
        grind
      simp only [stretch, List.filter_cons, Bool.and_assoc, high_iff] at splitRest ⊢
      rw [splitRest]

/-- A log has no events past its length. -/
theorem stretch_to_end (numbered : Consecutive noEvent log) (covers : log.length ≤ high) :
    stretch specs low high log = newer specs low log := by
  refine List.filter_congr fun event present => ?_
  have within : event.id ≤ high := Int.le_trans (numbered.le_length present) covers
  simp [within]

/-- What a read gives is the stretch from its floor to the end. -/
theorem filter_after (numbered : Consecutive noEvent log) (after : Option EventId) :
    (log.filter fun event => event.isOf specs && after.all (· < event.id)) =
      stretch specs (after.getD noEvent) log.length log := by
  rw [stretch_to_end numbered (Int.le_refl _)]
  refine List.filter_congr fun event present => ?_
  cases after with
  | none =>
    have positive := (numbered.bounds present).1
    simp [positive]
  | some floor => rfl

/-- Between the last event of a stretch and its end, the streams have none. -/
theorem stretch_after_last (sorted : log.Pairwise (·.id < ·.id)) {last : StoredEvent}
    (ends : (stretch specs low high log).getLast? = some last) :
    low < last.id ∧ last.id ≤ high ∧ stretch specs last.id high log = [] ∧
      stretch specs low last.id log = stretch specs low high log := by
  obtain ⟨-, -, above, below⟩ := mem_stretch.1 (List.mem_of_getLast? ends)
  -- A later event of the streams would stand after the last one of the stretch.
  have empty : stretch specs last.id high log = [] := by
    refine stretch_eq_nil fun event inLog isOf after => ?_
    by_contra notBeyond
    have upTo := Int.not_lt.1 notBeyond
    have inStretch : event ∈ stretch specs low high log :=
      mem_stretch.2 ⟨inLog, isOf, Int.lt_trans above after, upTo⟩
    have sortedStretch : (stretch specs low high log).Pairwise (·.id < ·.id) :=
      sorted.filter _
    obtain ⟨front, split⟩ := List.getLast?_eq_some_iff.1 ends
    rw [split] at inStretch sortedStretch
    rcases List.mem_append.1 inStretch with inFront | isLast
    · have := (List.pairwise_append.1 sortedStretch).2.2 event inFront last List.mem_cons_self
      lia
    · rw [List.mem_singleton.1 isLast] at after
      lia
  refine ⟨above, below, empty, ?_⟩
  rw [stretch_split sorted (Int.le_of_lt above) below, empty, List.append_nil]

/-- The events of the streams that the first `n` events of the log lack. -/
theorem filter_drop (numbered : Consecutive noEvent log) {n : Nat} (within : n ≤ log.length) :
    (log.drop n).filter (StoredEvent.isOf specs) = stretch specs n log.length log := by
  have split : log = log.take n ++ log.drop n := (List.take_append_drop n log).symm
  have numberedParts := numbered
  rw [split] at numberedParts
  obtain ⟨numberedFront, numberedBack⟩ := consecutive_append.1 numberedParts
  have front : stretch specs n log.length (log.take n) = [] := by
    refine stretch_eq_nil fun event inFront _ after => ?_
    have upTo := numberedFront.le_length inFront
    rw [List.length_take, Nat.min_eq_left within] at upTo
    exact absurd after (Int.not_lt.2 upTo)
  have back : stretch specs n log.length (log.drop n) =
      (log.drop n).filter (StoredEvent.isOf specs) := by
    refine List.filter_congr fun event inBack => ?_
    have after := (numberedBack.bounds inBack).1
    have upTo := numbered.le_length (List.mem_of_mem_drop inBack)
    rw [noEvent, Int.zero_add, List.length_take, Nat.min_eq_left within] at after
    simp [after, upTo]
  conv => rhs; rw [split]
  rw [stretch_append]
  simp only [List.take_append_drop]
  rw [front, back, List.nil_append]

/-- Whoever has read the first `n` events, and asks for what follows the last
one of the streams among them, gets what was written to the streams since. -/
theorem newer_last (numbered : Consecutive noEvent log) {n : Nat} (within : n ≤ log.length) :
    newer specs (((stretch specs noEvent n log).getLast?.map StoredEvent.id).getD noEvent) log =
      (log.drop n).filter (StoredEvent.isOf specs) := by
  have reaches : (n : EventId) ≤ log.length := Int.ofNat_le.2 within
  rw [filter_drop numbered within, ← stretch_to_end numbered (Int.le_refl _)]
  cases ends : (stretch specs noEvent n log).getLast? with
  | none =>
    rw [Option.map_none, Option.getD_none,
      stretch_split numbered.pairwise (noEvent_le n) reaches,
      List.getLast?_eq_none_iff.1 ends, List.nil_append]
  | some last =>
    obtain ⟨-, upTo, empty, -⟩ := stretch_after_last numbered.pairwise ends
    rw [Option.map_some, Option.getD_some, stretch_split numbered.pairwise upTo reaches, empty,
      List.nil_append]

/-- The events of the streams are those among the first `n` and those written since. -/
theorem filter_eq_stretch_append (numbered : Consecutive noEvent log) {n : Nat}
    (within : n ≤ log.length) :
    log.filter (StoredEvent.isOf specs) =
      stretch specs noEvent n log ++ (log.drop n).filter (StoredEvent.isOf specs) := by
  have all : log.filter (StoredEvent.isOf specs) = stretch specs noEvent log.length log := by
    have whole : (log.drop 0).filter (StoredEvent.isOf specs) = stretch specs 0 log.length log :=
      filter_drop numbered (Nat.zero_le _)
    rwa [List.drop_zero] at whole
  rw [filter_drop numbered within, all,
    stretch_split numbered.pairwise (noEvent_le n) (Int.ofNat_le.2 within)]

/-- Nothing written since means that all was read. -/
theorem stretch_complete (numbered : Consecutive noEvent log) {n : Nat} (within : n ≤ log.length)
    (quiet : (log.drop n).filter (StoredEvent.isOf specs) = []) :
    stretch specs noEvent n log = log.filter (StoredEvent.isOf specs) := by
  rw [filter_eq_stretch_append numbered within, quiet, List.append_nil]

end Stretches

theorem Tables.selected_ofStreams {t : Tables} {log : List StoredEvent} (holds : t.Holds log)
    (specs : List Stream) (after : Option EventId) :
    t.selected (.ofStreams specs) after =
      (log.filter fun event => event.isOf specs && after.all (· < event.id)).map
        StoredEvent.row := by
  unfold selected
  rw [holds.rows, List.filter_map]
  congr 1
  refine List.filter_congr fun event _ => ?_
  show (Selection.holds _ event.type (.value event.data) && isAfter after event.row) = _
  rw [Selection.holds_ofStreams]
  rfl

namespace Store

variable {s : Store} {log : List StoredEvent}

/-- A store answers with the events of its log, as they are read back. -/
theorem run_streams_of_holds (holds : s.tables.Holds log) (sound : s.poisoned = false)
    {specs : List Stream} {after : Option EventId}
    (compiled : Selection.compile specs = .ok (.ofStreams specs))
    (prepared : specs ≠ [] → Statement.canSelect (.ofStreams specs) after) :
    ∃ metrics, (streams specs after).run s =
      (.ok ((log.filter fun event => event.isOf specs && after.all (· < event.id)).map
          StoredEvent.reread),
        { s with metrics := metrics }) := by
  rw [run_streams, compiled]
  -- Without streams the database is not asked.
  by_cases none : specs = []
  · subst none
    exact ⟨s.metrics, by simp⟩
  · have can := prepared none
    simp only [Statement.canSelect, Bool.and_eq_true, Bool.not_eq_true'] at can
    have reads : ((log.filter fun event => event.isOf specs && after.all (· < event.id)).map
        StoredEvent.row).mapM EventRow.read = .ok _ :=
      mapM_read_map_row fun event present => holds.legible event (List.mem_filter.1 present).1
    exact ⟨s.metrics.read (log.filter fun event =>
        event.isOf specs && after.all (· < event.id)).length, by
      simp [none, sound, can.1, can.2, Tables.selected_ofStreams holds, reads]⟩

/-- What a store with a log answers are events of the log as they are read back, and
it can only answer when the streams are valid and the statement can be prepared. -/
theorem run_streams_eq_ok (holds : s.tables.Holds log) {specs : List Stream}
    {after : Option EventId} {events : List StoredEvent} {t : Store}
    (answered : (streams specs after).run s = (.ok events, t)) :
    events = (log.filter fun event => event.isOf specs && after.all (· < event.id)).map
        StoredEvent.reread ∧
      t.tables = s.tables ∧ t.poisoned = s.poisoned ∧ t.now = s.now ∧
      Selection.compile specs = .ok (.ofStreams specs) ∧
      (specs ≠ [] → Statement.canSelect (.ofStreams specs) after) := by
  rw [run_streams] at answered
  cases compiled : Selection.compile specs with
  | error fault => simp [compiled] at answered
  | ok selection =>
    obtain rfl := Selection.compile_eq_ok compiled
    simp only [compiled] at answered
    by_cases none : specs = []
    · subst none
      simp only [if_true, Prod.mk.injEq, Except.ok.injEq] at answered
      obtain ⟨rfl, rfl⟩ := answered
      simp
    rw [if_neg none] at answered
    split at answered
    · simp at answered
    split at answered
    · simp at answered
    rename_i prepared
    rw [Tables.selected_ofStreams holds, mapM_read_map_row fun event present =>
      holds.legible event (List.mem_filter.1 present).1] at answered
    simp only [Prod.mk.injEq, Except.ok.injEq] at answered
    obtain ⟨rfl, rfl⟩ := answered
    refine ⟨rfl, rfl, rfl, rfl, rfl, fun _ => ?_⟩
    simpa [Statement.canSelect] using prepared

end Store

/-! ## A plain stream, and one at the limit -/

/-- All events of one type. -/
def plainStream : Stream := ⟨["T"], none⟩

theorem plainStream_valid : ∀ spec ∈ [plainStream], spec.Valid := by
  simp [plainStream, Stream.Valid]

theorem has_plainStream (type : String) (data : Json) :
    plainStream.has type data = decide (type = "T") := by
  simp [plainStream, Stream.has, Stream.tests, holdsAll]

theorem plainStream_spellsNul : ¬ (Selection.ofStreams [plainStream]).SpellsNul := by
  rw [Selection.spellsNul_ofStreams]
  simp [plainStream, Stream.SpellsNul]

theorem canSelect_plainStream (after : Option EventId) :
    Statement.canSelect (.ofStreams [plainStream]) after := by
  rw [Statement.canSelect_iff]
  refine ⟨plainStream_spellsNul, ?_⟩
  cases after with
  | none => rfl
  | some floor => rfl

/-- A stream with as many types as a statement may have parameters. -/
def wideStream : Stream := ⟨List.replicate Fragment.paramLimit "T", none⟩

theorem wideStream_valid : ∀ spec ∈ [wideStream], spec.Valid := by
  simp [Stream.Valid, wideStream]

theorem has_wideStream (type : String) (data : Json) :
    wideStream.has type data = (type == "T") := by
  have types : wideStream.types.contains type = (type == "T") := by
    show (List.replicate Fragment.paramLimit "T").contains type = _
    rw [List.contains_replicate]
    simp [Fragment.paramLimit]
  rw [Stream.has, types]
  simp [wideStream, Stream.tests, holdsAll, -List.reduceReplicate]

theorem test_wideStream :
    wideStream.test = .ofTypes (List.replicate Fragment.paramLimit "T") [] := rfl

theorem wideStream_spellsNul : ¬ (Selection.ofStreams [wideStream]).SpellsNul := by
  rw [Selection.spellsNul_ofStreams]
  simp [Stream.SpellsNul, wideStream, -List.reduceReplicate]

theorem params_wideStream :
    (Selection.ofStreams [wideStream]).fragment.params.length = Fragment.paramLimit := by
  simp [Selection.ofStreams, Selection.fragment, StreamTest.fragment, test_wideStream,
    Fragment.join, typeAmong, allOf, Fragment.constant]

/-- It can be read, but not with a floor. -/
theorem canSelect_wideStream (after : Option EventId) :
    Statement.canSelect (.ofStreams [wideStream]) after ↔ after = none := by
  have shallow : Statement.streamsNest (.ofStreams [wideStream]) false = false := by
    have levels : nestingOfTypes (List.replicate Fragment.paramLimit "T") = .ofLevels 2 := by
      rw [nestingOfTypes, List.length_replicate]
      rfl
    simp only [Statement.streamsNest, Selection.ofStreams, Selection.nesting, List.map_cons,
      List.map_nil, test_wideStream, StreamTest.nesting, levels]
    decide
  rw [Statement.canSelect_iff, Statement.selectFits, params_wideStream]
  cases after with
  | none => simp [wideStream_spellsNul, shallow]
  | some floor => simp

theorem not_canGuard_wideStream (drafts : List Draft) (floor : EventId) :
    ¬ Statement.canGuard drafts floor (.ofStreams [wideStream]) := by
  rw [Statement.canGuard_iff, Statement.guardFits, params_wideStream]
  simp only [Bool.and_eq_true, decide_eq_true_eq]
  lia

end Chronicle
