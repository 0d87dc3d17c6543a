import Chronicle.Proofs.Client.Rejection
import Chronicle.Proofs.Client.Writes
import Chronicle.Proofs.Log.Unions
import Chronicle.Proofs.Query.Names

/-!
# The last event of a type

The last event of a type is asked for by a statement of its own, which finds one row
from the end of the table. It answers as the read of the stream with that type and
filter would, with the last of its events, and fails as that read fails
(`Store.answerLatest_eq`). Without a filter the answer follows the appends
(`Store.Appending.answerLatest`): it is the last event of the type that was written, or
what it was before. All of it is put together in `Store.latest_exact`.
-/

namespace Chronicle

/-- The stream with one type. -/
def Stream.ofType (type : String) (filter : Option Filter) : Stream := ⟨[type], filter⟩

namespace Stream

variable (type : String) (filter : Option Filter)

theorem compile_ofType :
    (ofType type filter).compile = (compileOptional filter).map (.ofTypes [type]) := rfl

theorem isOf_ofType (event : StoredEvent) :
    event.isOf [ofType type none] = decide (event.type = type) := by
  simp [StoredEvent.isOf, has, ofType, tests, holdsAll]

end Stream

/-- What the filter of a stream of one type compiles to is all that its selection needs. -/
theorem Selection.compile_ofType (type : String) (filter : Option Filter) :
    compile [.ofType type filter] =
      (compileOptional filter).map fun tests => [.ofTypes [type] tests] := by
  rw [compile, List.mapM_cons, Stream.compile_ofType]
  cases compileOptional filter <;> rfl

/-- What is found first from the end is the last of all that would be selected. -/
theorem Tables.latest?_eq (t : Tables) (type : String) (tests : List FieldTest) :
    t.latest? type tests = (t.selected [.ofTypes [type] tests] none).getLast? := by
  have same (row : EventRow) :
      (Selection.holds [.ofTypes [type] tests] row.type row.data && isAfter none row) =
        (decide (row.type = type) && holdsAll tests row.data) := by
    simp [Selection.holds, StreamTest.holds, isAfter]
  rw [latest?, selected, List.getLast?_eq_head?_reverse, ← List.filter_reverse, List.head?_filter]
  simp only [same]

namespace Statement

variable (type : String) (tests : List FieldTest)

/-- A list of one type nests one level more than a column, which makes no difference
at the limit. -/
theorem testsNest_eq : testsNest tests = streamsNest [.ofTypes [type] tests] false := by
  show decide (_ < (Nesting.column.and (nestingOfAll tests)).most) =
    decide (_ < ((Nesting.ofLevels 3).and (nestingOfAll tests)).most)
  refine decide_eq_decide.2 ?_
  unfold Nesting.and Nesting.or Nesting.column Nesting.ofLevels levelLimit
  split <;> dsimp only <;> omega

/-- Both statements have the same limits. -/
theorem canSelectLatest_eq :
    canSelectLatest type tests = canSelect [.ofTypes [type] tests] none := by
  have spelled : (∃ test ∈ tests, HasNul test.field) ↔
      Selection.SpellsNul [.ofTypes [type] tests] := by
    simp [Selection.SpellsNul, StreamTest.fields]
  have params : (selectLatest type tests).params.length =
      (selectStreams [.ofTypes [type] tests] none).params.length := by
    simp [selectLatest, selectStreams, Selection.fragment, StreamTest.fragment, Fragment.join,
      typeAmong]
  have prepared : (selectLatest type tests).isPreparable =
      (selectStreams [.ofTypes [type] tests] none).isPreparable := by
    rw [Bool.eq_iff_iff, Fragment.isPreparable_iff, Fragment.isPreparable_iff, hasNul_selectLatest,
      hasNul_selectStreams, spelled, params]
  rw [canSelectLatest, canSelect, testsNest_eq type, prepared]
  rfl

end Statement

namespace Store

variable {s t : Store}

/-- What a request for the last event of a type answers. -/
def answerLatest (s : Store) (type : String) (filter : Option Filter) :
    Except Fault (Option StoredEvent) :=
  ((latest type filter).run s).1

/-- The last of what the stream of that type and filter has, or the same fault. -/
theorem answerLatest_eq {log : List StoredEvent} (holds : s.tables.Holds log) (type : String)
    (filter : Option Filter) :
    s.answerLatest type filter = (s.answerOne (.ofType type filter) none).map List.getLast? := by
  have selects := Selection.compile_ofType type filter
  rw [answerOne_eq]
  cases compiled : compileOptional filter with
  | error fault =>
    rw [answerLatest, answer, run_latest, run_streams, selects, compiled]
    rfl
  | ok tests =>
    rw [compiled] at selects
    have same : [.ofTypes [type] tests] = Selection.ofStreams [.ofType type filter] :=
      Selection.compile_eq_ok selects
    have limits := Statement.canSelectLatest_eq type tests
    rw [Except.map, same] at selects
    rw [same] at limits
    cases sound : s.poisoned with
    | true =>
      rw [answerLatest, answer, run_latest, run_streams, compiled, selects]
      simp [sound, Except.map]
    | false =>
    by_cases can : Statement.canSelectLatest type tests
    · obtain ⟨metrics, ran⟩ := run_streams_of_holds holds sound selects fun _ => limits ▸ can
      simp only [Statement.canSelectLatest, Bool.and_eq_true, Bool.not_eq_true'] at can
      have found := Tables.latest?_eq s.tables type tests
      rw [same, Tables.selected_ofStreams holds, List.getLast?_map] at found
      rw [answer, ran, answerLatest, run_latest, compiled, Except.map, List.getLast?_map]
      cases ends : List.getLast? (log.filter _) with
      | none =>
        rw [ends] at found
        simp [sound, can, found]
      | some event =>
        rw [ends] at found
        have present := (List.mem_filter.1 (List.mem_of_getLast? ends)).1
        simp [sound, can, found, StoredEvent.read_row (holds.legible event present)]
    · rw [answerLatest, run_latest_of_refused compiled can sound, answer,
        run_streams_of_refused selects (List.cons_ne_nil _ _) (limits ▸ can), sound]
      rfl

/-- Any event of the type can be asked for, unless the lock is broken. -/
theorem answerLatest_none {log : List StoredEvent} (holds : s.tables.Holds log) (type : String) :
    s.answerLatest type none =
      if s.poisoned then .error (.lock "connection mutex poisoned")
      else .ok ((log.filter (·.type = type)).getLast?.map StoredEvent.reread) := by
  have selects : Selection.compile [.ofType type none] = .ok (.ofStreams [.ofType type none]) := rfl
  have can : Statement.canSelectLatest type [] :=
    (Statement.canSelectLatest_iff type []).2 ⟨by simp, rfl⟩
  rw [answerLatest_eq holds, answerOne_eq, answer]
  cases sound : s.poisoned with
  | true => rw [run_streams, selects, sound]; rfl
  | false =>
    obtain ⟨metrics, ran⟩ := run_streams_of_holds holds sound selects fun _ =>
      Statement.canSelectLatest_eq type [] ▸ can
    rw [ran]
    simp [Except.map, Stream.isOf_ofType]

/-! ## After appends -/

theorem Reachable.unbarred (reachable : s.Reachable) : s.tables.barred = [] := by
  induction reachable with
  | new now => rfl
  | step _ step ih =>
    cases step with
    | call c => exact (leaves_perform c _).1.barred_eq.trans ih
    | meanwhile => exact ih
  | crash _ ih => exact ih

/-- The ways to append some drafts. -/
inductive Append : List Draft → Action Store (List StoredEvent) → Prop
  | batch (drafts : List Draft) : Append drafts (appendBatch drafts)
  | guarded (drafts : List Draft) (floor : EventId) (specs : List Stream) :
    Append drafts (appendIfNoNewer drafts floor specs)
  | single (draft : Draft) : Append [draft] ((fun row => [row]) <$> EventLog.append draft)

namespace Append

variable {drafts : List Draft} {act : Action Store (List StoredEvent)}

theorem run_single (draft : Draft) (s : Store) :
    ((fun row => [row]) <$> EventLog.append draft).run s = (appendBatch [draft]).run s := by
  rw [Action.run_map, run_append]
  rcases ran : (appendBatch [draft]).run s with ⟨answer, t⟩
  cases answer with
  | error fault => rfl
  | ok rows =>
    obtain ⟨rfl, -⟩ := (appends_appendBatch [draft]).of_ok ran
    rfl

theorem appends (append : Append drafts act) : Appends drafts act := by
  cases append with
  | batch => exact appends_appendBatch drafts
  | guarded _ floor specs => exact appends_appendIfNoNewer drafts floor specs
  | single draft =>
    intro s
    rw [run_single]
    exact appends_appendBatch [draft] s

theorem poisoned_eq (append : Append drafts act) (s : Store) :
    (act.run s).2.poisoned = s.poisoned := by
  cases append with
  | batch => exact (leaves_perform (.appendBatch drafts) s).2.1
  | guarded _ floor specs => exact (leaves_perform (.appendIfNoNewer drafts floor specs) s).2.1
  | single draft =>
    rw [run_single]
    exact (leaves_perform (.appendBatch [draft]) s).2.1

/-- Nothing is written behind a broken lock. -/
theorem sound_of_ok (append : Append drafts act) {rows : List StoredEvent}
    (answered : (act.run s).1 = .ok rows) (some_drafts : drafts ≠ []) : s.poisoned = false := by
  cases sound : s.poisoned with
  | false => rfl
  | true =>
    cases append with
    | batch =>
      rw [run_appendBatch] at answered
      simp [some_drafts, sound] at answered
    | guarded _ floor specs =>
      rw [run_appendIfNoNewer] at answered
      cases compiled : Selection.compile specs <;> simp [compiled, some_drafts, sound] at answered
    | single draft =>
      rw [run_single, run_appendBatch] at answered
      simp [sound] at answered

end Append

/-- A run, and the rows that its appends gave. Appends can fail, and anything that writes no
events can happen between them. -/
inductive Appending (s : Store) : List StoredEvent → Store → Prop
  | start : Appending s [] s
  | answered {rows more : List StoredEvent} {t u : Store} {drafts : List Draft}
    {act : Action Store (List StoredEvent)} (run : Appending s rows t) (append : Append drafts act)
    (ran : act.run t = (.ok more, u)) : Appending s (rows ++ more) u
  | failed {rows : List StoredEvent} {t u : Store} {drafts : List Draft}
    {act : Action Store (List StoredEvent)} {fault : Fault} (run : Appending s rows t)
    (append : Append drafts act) (ran : act.run t = (.error fault, u)) : Appending s rows u
  | silent {rows : List StoredEvent} {t : Store} (run : Appending s rows t) {c : Call}
    (silent : c.appends = false) : Appending s rows (c.perform t)
  | meanwhile {rows : List StoredEvent} {t : Store} (run : Appending s rows t) (now : Instant)
    (metrics : Metrics) : Appending s rows { t with now := now, metrics := metrics }

namespace Appending

variable {rows log : List StoredEvent}

/-- What the log has gained is what the rows are read back from, and there are no rows
behind a broken lock. -/
theorem holds (run : Appending s rows t) (holds : s.tables.Holds log) :
    ∃ written, rows = written.map StoredEvent.reread ∧ t.tables.Holds (log ++ written) ∧
      t.poisoned = s.poisoned ∧ (rows ≠ [] → s.poisoned = false) := by
  induction run with
  | start => exact ⟨[], rfl, by rwa [List.append_nil], rfl, fun some_rows => absurd rfl some_rows⟩
  | @answered rows more t u drafts act run append ran ih =>
    obtain ⟨written, readBack, before, poisoned, sound⟩ := ih
    obtain ⟨rfl, tables, legible⟩ := append.appends.of_ok ran
    have same := append.poisoned_eq t
    rw [ran] at same
    refine ⟨written ++ Draft.numbered t.now t.tables.lastId drafts, ?_, ?_, same.trans poisoned,
      fun some_rows => ?_⟩
    · rw [List.map_append, readBack]
    · rw [tables, ← List.append_assoc]
      exact before.push_numbered t.now legible
    · by_cases none : drafts = []
      · subst none
        refine sound fun nothing => some_rows ?_
        rw [nothing]
        rfl
      · exact poisoned ▸ append.sound_of_ok (congrArg Prod.fst ran) none
  | failed run append ran ih =>
    obtain ⟨written, readBack, before, poisoned, sound⟩ := ih
    obtain ⟨tables, same, -⟩ := content_eq_iff.1 (append.appends.of_error ran)
    exact ⟨written, readBack, tables ▸ before, same.trans poisoned, sound⟩
  | @silent rows t run c silent ih =>
    obtain ⟨written, readBack, before, poisoned, sound⟩ := ih
    obtain ⟨change, same, -⟩ := leaves_perform c t
    exact ⟨written, readBack, before.of_events (change.events_eq silent), same.trans poisoned,
      sound⟩
  | meanwhile run now metrics ih => exact ih

/-- The last event of a type that was written, or what it was before. -/
theorem answerLatest (run : Appending s rows t) (holds : s.tables.Holds log) (type : String) :
    t.answerLatest type none =
      match (rows.filter (·.type = type)).getLast? with
      | some row => .ok (some row)
      | none => s.answerLatest type none := by
  obtain ⟨written, rfl, after, poisoned, sound⟩ := run.holds holds
  rw [answerLatest_none after, answerLatest_none holds, poisoned, List.filter_append,
    List.getLast?_append, List.filter_map, List.getLast?_map]
  change _ = match ((written.filter (·.type = type)).getLast?.map StoredEvent.reread) with
    | some row => _
    | none => _
  cases ends : (written.filter (·.type = type)).getLast? with
  | none => rfl
  | some event =>
    have present := (List.mem_filter.1 (List.mem_of_getLast? ends)).1
    rw [sound (List.ne_nil_of_mem (List.mem_map_of_mem present))]
    rfl

end Appending

/-! ## The last event of a type -/

/-- On every reachable store, for every type and filter, the last event is the last of what the
stream of that type and filter has from the start, and the request fails as that read fails.
Where the statement can be prepared it is an event of the log as it is read back; an invalid
filter fails both alike. After any run of appends it is, without a filter, the last row of the
type that they gave, or what it was before; and a store behind a sound lock takes what it can
read, and gives the rows that it reads back. -/
theorem latest_exact (reachable : s.Reachable) (type : String) (filter : Option Filter) :
    s.answerLatest type filter = (s.answerOne (.ofType type filter) none).map List.getLast? ∧
    (s.poisoned = false → (Stream.ofType type filter).Valid →
      Statement.canSelectLatest type (Stream.ofType type filter).tests →
      s.answerLatest type filter =
        .ok ((s.tables.log.filter fun event =>
          event.isOf [.ofType type filter]).getLast?.map StoredEvent.reread)) ∧
    (¬ (Stream.ofType type filter).Valid → ∃ text,
      (latest type filter).run s = (.error (.invalidFilter text), s) ∧
      (EventLog.stream (.ofType type filter) none).run s = (.error (.invalidFilter text), s)) ∧
    (∀ rows t, Appending s rows t → t.answerLatest type none =
      match (rows.filter (·.type = type)).getLast? with
      | some row => .ok (some row)
      | none => s.answerLatest type none) ∧
    (s.poisoned = false → ∀ drafts : List Draft, (∀ draft ∈ drafts, draft.data.Legible) →
      ((appendBatch drafts).run s).1 =
        .ok ((Draft.numbered s.now s.tables.lastId drafts).map StoredEvent.reread)) := by
  have holds := reachable.holds
  refine ⟨answerLatest_eq holds type filter, fun sound valid can => ?_, fun invalid => ?_,
    fun rows t run => run.answerLatest holds type, fun sound drafts legible => ?_⟩
  · have selects := Selection.compile_of_valid (List.forall_mem_singleton.2 valid)
    obtain ⟨metrics, ran⟩ := run_streams_of_holds holds sound selects fun _ =>
      Statement.canSelectLatest_eq type _ ▸ can
    rw [answerLatest_eq holds, answerOne_eq, answer, ran]
    simp [Except.map]
  · obtain ⟨text, failed⟩ := Selection.compile_rejects
      ⟨.ofType type filter, List.mem_singleton_self _, List.cons_ne_nil _ _, invalid⟩
    refine ⟨text, ?_, (run_streams _ _ _).trans (by rw [failed])⟩
    rw [Selection.compile_ofType] at failed
    cases compiled : compileOptional filter with
    | ok tests => simp [compiled, Except.map] at failed
    | error fault =>
      rw [compiled] at failed
      rw [run_latest, compiled, Except.error.inj failed]
  · rw [run_appendBatch, sound, Tables.insertAll_of_storable reachable.unbarred legible]
    by_cases none : drafts = []
    · simp [none, Draft.numbered]
    · simp [none]

/-- An event of another type leaves the answer, and one of the type replaces it. -/
theorem latest_exact_after_one :
    afterOne.answerLatest "T" none = .ok (some ⟨1, "T", .null, default, default⟩) ∧
      ((appendBatch [⟨"U", .null⟩]).run afterOne).2.answerLatest "T" none =
        afterOne.answerLatest "T" none ∧
      ((appendBatch [⟨"U", .null⟩, ⟨"T", .null⟩]).run afterOne).2.answerLatest "T" none =
        .ok (some ⟨3, "T", .null, default, default⟩) := by
  obtain ⟨-, found, -, follows, writes⟩ := latest_exact afterOne_reachable "T" none
  have after (drafts : List Draft) (legible : ∀ draft ∈ drafts, draft.data.Legible) :=
    follows _ _ (.answered .start (.batch drafts) (Prod.ext (writes rfl drafts legible) rfl))
  have can : Statement.canSelectLatest "T" [] :=
    (Statement.canSelectLatest_iff _ _).2 ⟨by simp, rfl⟩
  exact ⟨found rfl (fun f given => nomatch given) can, after _ (by decide), after _ (by decide)⟩

end Store

end Chronicle
