import Chronicle.Proofs.Log.Runs
import Chronicle.Proofs.Log.Streams

/-!
# The guarded append

The guarded append decides by the events that a read with the same floor gives:
it conflicts when there are any (`run_appendIfNoNewer_of_newer`), and otherwise
does what a plain append does (`appendIfNoNewer_eq_appendBatch`). The one
exception are streams that name a field with a NUL: their filters are valid, but
neither the guard nor the read can be prepared
(`run_appendIfNoNewer_of_spelled`, `run_streams_of_spelled`).

All of this is about statements within the limits of the database
(`Statement.guardFits`).
-/

namespace Chronicle

namespace Tables

variable {now : Instant} {draft : Draft} {t : Tables} {fault : Fault}

theorem insert_eq_error (refused : t.insert now draft = .error fault) :
    ∃ text, fault = .storage text := by
  -- The row is refused, or it was written and does not read back.
  unfold insert at refused
  cases inserted : t.insertRow draft.type (.value draft.data) (.instant now) (.instant now) with
  | error flaw =>
    simp only [inserted, bind, Except.bind, Except.error.injEq] at refused
    subst refused
    unfold insertRow at inserted
    split at inserted
    · exact ⟨_, (Except.error.inj inserted).symm⟩
    · split at inserted
      · exact ⟨_, (Except.error.inj inserted).symm⟩
      · simp at inserted
  | ok pair =>
    simp only [inserted, bind, Except.bind, pure, Except.pure] at refused
    split at refused
    · rename_i unread
      obtain rfl := Except.error.inj refused
      unfold EventRow.read at unread
      split at unread
      · simp at unread
      · exact ⟨_, (Except.error.inj unread).symm⟩
    · simp at refused

/-- Drafts are refused by the database alone. -/
theorem insertAll_eq_error {drafts : List Draft} (refused : insertAll now drafts t = .error fault) :
    ∃ text, fault = .storage text := by
  induction drafts generalizing t with
  | nil => simp [insertAll] at refused
  | cons draft drafts ih =>
    simp only [insertAll, bind, Except.bind, pure, Except.pure] at refused
    split at refused
    · rename_i first
      obtain rfl := Except.error.inj refused
      exact insert_eq_error first
    split at refused
    · rename_i rest
      obtain rfl := Except.error.inj refused
      exact ih rest
    · simp at refused

end Tables

namespace Store

variable {s : Store} {log : List StoredEvent} {drafts : List Draft} {floor : EventId}
  {specs : List Stream}

/-- What follows the floor decides. -/
theorem run_appendIfNoNewer_of_newer (holds : s.tables.Holds log)
    (compiled : Selection.compile specs = .ok (.ofStreams specs)) (some_drafts : drafts ≠ [])
    (sound : s.poisoned = false) (prepared : Statement.canGuard drafts floor (.ofStreams specs))
    (late : newer specs floor log ≠ []) :
    (appendIfNoNewer drafts floor specs).run s =
      (.error (.newerEvents floor), { s with metrics := s.metrics.add .eventConflicts 1 }) := by
  simp only [Statement.canGuard, Bool.and_eq_true, Bool.not_eq_true'] at prepared
  have selected : s.tables.selected (.ofStreams specs) (some floor) ≠ [] := by
    rw [Tables.selected_ofStreams holds]
    exact mt List.map_eq_nil_iff.1 late
  rw [run_appendIfNoNewer, compiled]
  simp [some_drafts, sound, prepared.1, prepared.2, selected]

/-- With nothing after the floor, or with a broken lock, the guarded append is
the plain one. -/
theorem appendIfNoNewer_eq_appendBatch (holds : s.tables.Holds log)
    (compiled : Selection.compile specs = .ok (.ofStreams specs))
    (prepared : drafts ≠ [] → Statement.canGuard drafts floor (.ofStreams specs))
    (quiet : s.poisoned = true ∨ newer specs floor log = []) :
    ((appendIfNoNewer drafts floor specs).run s).1 = ((appendBatch drafts).run s).1 ∧
      ((appendIfNoNewer drafts floor specs).run s).2.content =
        ((appendBatch drafts).run s).2.content := by
  rw [run_appendIfNoNewer, run_appendBatch, compiled]
  by_cases none : drafts = []
  · simp [none]
  have can := prepared none
  simp only [Statement.canGuard, Bool.and_eq_true, Bool.not_eq_true'] at can
  cases poisoned : s.poisoned with
  | true => simp [none]
  | false =>
    have nothing : newer specs floor log = [] := by simpa [poisoned] using quiet
    have selected : s.tables.selected (.ofStreams specs) (some floor) = [] := by
      rw [Tables.selected_ofStreams holds]
      exact List.map_eq_nil_iff.2 nothing
    cases written : Tables.insertAll s.now drafts s.tables <;>
      simp [none, can.1, can.2, selected, content]

/-- A store in service writes drafts after all that it has, answers them as they are
read back, and stays in service. -/
theorem appendBatch_of_service (service : s.InService)
    (legible : ∀ draft ∈ drafts, draft.data.Legible) :
    ∃ t, (appendBatch drafts).run s =
        (.ok ((Draft.numbered s.now s.tables.lastId drafts).map StoredEvent.reread), t) ∧
      t.tables = s.tables.push (Draft.numbered s.now s.tables.lastId drafts) ∧ t.InService := by
  rw [run_appendBatch, service.sound, Tables.insertAll_of_storable service.unbarred legible]
  by_cases none : drafts = []
  · subst none
    exact ⟨s, rfl, (Tables.push_nil _).symm, service⟩
  · simp only [none, if_false, Bool.false_eq_true]
    exact ⟨_, rfl, rfl, rfl, service.unbarred⟩

/-- With nothing after the floor a store in service writes the drafts. -/
theorem appendIfNoNewer_of_quiet (holds : s.tables.Holds log) (service : s.InService)
    (compiled : Selection.compile specs = .ok (.ofStreams specs))
    (prepared : drafts ≠ [] → Statement.canGuard drafts floor (.ofStreams specs))
    (legible : ∀ draft ∈ drafts, draft.data.Legible) (quiet : newer specs floor log = []) :
    ((appendIfNoNewer drafts floor specs).run s).1 =
      .ok ((Draft.numbered s.now s.tables.lastId drafts).map StoredEvent.reread) := by
  obtain ⟨t, ran, -⟩ := appendBatch_of_service service legible
  rw [(appendIfNoNewer_eq_appendBatch holds compiled prepared (.inr quiet)).1, ran]

/-- A guarded append that succeeds found nothing after the floor and wrote the
drafts. -/
theorem appendIfNoNewer_eq_ok (holds : s.tables.Holds log) (some_drafts : drafts ≠ [])
    {events : List StoredEvent} {t : Store}
    (answered : (appendIfNoNewer drafts floor specs).run s = (.ok events, t)) :
    let written := Draft.numbered s.now s.tables.lastId drafts
    newer specs floor log = [] ∧ events = written.map StoredEvent.reread ∧
      (∀ draft ∈ drafts, draft.data.Legible) ∧ t.tables = s.tables.push written ∧
      t.poisoned = s.poisoned ∧ t.now = s.now := by
  intro written
  rw [run_appendIfNoNewer] at answered
  cases compiled : Selection.compile specs with
  | error fault => simp [compiled] at answered
  | ok selection =>
    obtain rfl := Selection.compile_eq_ok compiled
    simp only [compiled, if_neg some_drafts] at answered
    split at answered
    · simp at answered
    split at answered
    · simp at answered
    split at answered
    · simp at answered
    rename_i quiet
    split at answered
    · rename_i inserted
      simp only [Prod.mk.injEq, Except.ok.injEq] at answered
      obtain ⟨rfl, rfl⟩ := answered
      obtain ⟨sameEvents, grown, legible⟩ := Tables.insertAll_eq_ok inserted
      rw [not_not, Tables.selected_ofStreams holds] at quiet
      exact ⟨List.map_eq_nil_iff.1 quiet, sameEvents, legible, grown, rfl, rfl⟩
    · simp at answered

/-- A guarded append that fails changes nothing. -/
theorem appendIfNoNewer_eq_error {fault : Fault} {t : Store}
    (failed : (appendIfNoNewer drafts floor specs).run s = (.error fault, t)) :
    t.content = s.content := by
  rw [run_appendIfNoNewer] at failed
  split at failed
  · obtain ⟨-, rfl⟩ := Prod.mk.inj failed
    rfl
  split at failed
  · simp at failed
  split at failed
  · obtain ⟨-, rfl⟩ := Prod.mk.inj failed
    rfl
  split at failed
  · obtain ⟨-, rfl⟩ := Prod.mk.inj failed
    rfl
  split at failed
  · obtain ⟨-, rfl⟩ := Prod.mk.inj failed
    rfl
  split at failed
  · simp at failed
  · obtain ⟨-, rfl⟩ := Prod.mk.inj failed
    rfl

/-- A statement that cannot be prepared does nothing. -/
theorem run_appendIfNoNewer_of_refused
    (compiled : Selection.compile specs = .ok (.ofStreams specs)) (some_drafts : drafts ≠ [])
    (refused : ¬ Statement.canGuard drafts floor (.ofStreams specs)) :
    (appendIfNoNewer drafts floor specs).run s =
      (.error (if s.poisoned then .lock "connection mutex poisoned"
        else .storage "statement cannot be prepared"), s) := by
  have unprepared : Statement.guardNests (.ofStreams specs) ∨
      ¬ (Statement.guardedInsert drafts floor (.ofStreams specs)).isPreparable := by
    by_contra prepared
    rw [not_or, not_not, Bool.not_eq_true] at prepared
    exact refused (by simp [Statement.canGuard, prepared])
  rw [run_appendIfNoNewer, compiled]
  simp only [if_neg some_drafts, if_pos unprepared]
  split <;> rfl

/-- A NUL in the name of a field cuts the statement short. -/
theorem run_appendIfNoNewer_of_spelled
    (compiled : Selection.compile specs = .ok (.ofStreams specs)) (some_drafts : drafts ≠ [])
    (spelled : ∃ spec ∈ specs, spec.SpellsNul) :
    (appendIfNoNewer drafts floor specs).run s =
      (.error (if s.poisoned then .lock "connection mutex poisoned"
        else .storage "statement cannot be prepared"), s) := by
  refine run_appendIfNoNewer_of_refused compiled some_drafts fun can => ?_
  exact ((Statement.canGuard_iff _ _ _).1 can).1 ((Selection.spellsNul_ofStreams specs).2 spelled)

theorem run_streams_of_refused {after : Option EventId}
    (compiled : Selection.compile specs = .ok (.ofStreams specs)) (some_specs : specs ≠ [])
    (refused : ¬ Statement.canSelect (.ofStreams specs) after) :
    (streams specs after).run s =
      (.error (if s.poisoned then .lock "connection mutex poisoned"
        else .storage "statement cannot be prepared"), s) := by
  have unprepared : Statement.streamsNest (.ofStreams specs) after.isSome ∨
      ¬ (Statement.selectStreams (.ofStreams specs) after).isPreparable := by
    by_contra prepared
    rw [not_or, not_not, Bool.not_eq_true] at prepared
    exact refused (by simp [Statement.canSelect, prepared])
  rw [run_streams, compiled]
  simp only [if_neg some_specs, if_pos unprepared]
  split <;> rfl

theorem run_streams_of_spelled {after : Option EventId}
    (compiled : Selection.compile specs = .ok (.ofStreams specs))
    (spelled : ∃ spec ∈ specs, spec.SpellsNul) :
    (streams specs after).run s =
      (.error (if s.poisoned then .lock "connection mutex poisoned"
        else .storage "statement cannot be prepared"), s) := by
  have some_specs : specs ≠ [] := by
    rintro rfl
    simp at spelled
  refine run_streams_of_refused compiled some_specs fun can => ?_
  exact ((Statement.canSelect_iff _ _).1 can).1 ((Selection.spellsNul_ofStreams specs).2 spelled)

/-- A new store to which one event was appended. -/
def afterOne : Store := Call.perform (new default) (.appendBatch [⟨"T", .null⟩])

theorem afterOne_reachable : afterOne.Reachable := .step (.new default) (.call _ _)

end Store

end Chronicle
