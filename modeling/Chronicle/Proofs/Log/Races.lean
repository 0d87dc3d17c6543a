import Chronicle.Proofs.Log.Guard

/-!
# Races of guarded appends

Attempts at guarded appends, in some order and with anything else that clients
do in between (`Race`). An attempt that succeeds found no event of its streams
after its floor, and the events that it wrote stay; so what an earlier one wrote
after the floor of a later one that succeeds is not of the later one's streams.

When all attempts share a floor that the log had reached at the start, and each
writes some event of every other's streams, one of them succeeds at most. The
others leave the log as it is, and those that the database can run conflict.
-/

namespace Chronicle

namespace Store

/-- A guarded append that a client asks for. -/
structure Request where
  drafts : List Draft
  floor : EventId
  specs : List Stream

/-- The streams are valid and the database can run the statement. -/
def Request.Runnable (r : Request) : Prop :=
  (∀ spec ∈ r.specs, spec.Valid) ∧ Statement.canGuard r.drafts r.floor (.ofStreams r.specs)

/-- Some event of the request belongs to the streams of the other. -/
def Request.Hits (r other : Request) : Prop :=
  ∃ draft ∈ r.drafts, other.specs.any (·.has draft.type draft.data)

/-- A request with the store that it met. -/
structure Attempt where
  request : Request
  before : Store

namespace Attempt

def answer (a : Attempt) : Except Fault (List StoredEvent) :=
  ((appendIfNoNewer a.request.drafts a.request.floor a.request.specs).run a.before).1

def after (a : Attempt) : Store :=
  ((appendIfNoNewer a.request.drafts a.request.floor a.request.specs).run a.before).2

def Succeeds (a : Attempt) : Prop := ∃ events, a.answer = .ok events

theorem step (a : Attempt) : Step a.before a.after :=
  .call a.before (.appendIfNoNewer a.request.drafts a.request.floor a.request.specs)

variable {a : Attempt} {log : List StoredEvent}

/-- The rows that the attempt writes if it succeeds. -/
def rows (a : Attempt) : List StoredEvent :=
  Draft.numbered a.before.now a.before.tables.lastId a.request.drafts

/-- An attempt that succeeds found nothing after its floor, wrote its drafts, and
answers them as they are read back. -/
theorem of_ok (holds : a.before.tables.Holds log) (some_drafts : a.request.drafts ≠ [])
    {events : List StoredEvent} (succeeded : a.answer = .ok events) :
    newer a.request.specs a.request.floor log = [] ∧ events = a.rows.map StoredEvent.reread ∧
      (∀ draft ∈ a.request.drafts, draft.data.Legible) ∧
      a.after.tables = a.before.tables.push a.rows := by
  obtain ⟨quiet, sameEvents, legible, grown, -⟩ :=
    appendIfNoNewer_eq_ok holds some_drafts (Prod.ext succeeded rfl)
  exact ⟨quiet, sameEvents, legible, grown⟩

/-- An attempt that fails writes nothing. -/
theorem of_error {fault : Fault} (failed : a.answer = .error fault) :
    a.after.tables = a.before.tables :=
  congrArg Prod.fst (appendIfNoNewer_eq_error (Prod.ext failed rfl))

/-- With nothing after its floor an attempt that can be run writes its drafts. -/
theorem succeeds_of_quiet (holds : a.before.tables.Holds log) (service : a.before.InService)
    (runnable : a.request.Runnable) (legible : ∀ draft ∈ a.request.drafts, draft.data.Legible)
    (quiet : newer a.request.specs a.request.floor log = []) : a.Succeeds := by
  have compiled := Selection.compile_of_valid runnable.1
  exact ⟨_, appendIfNoNewer_of_quiet holds service compiled (fun _ => runnable.2) legible quiet⟩

/-- With something after its floor it conflicts. -/
theorem answer_of_newer (holds : a.before.tables.Holds log) (service : a.before.InService)
    (runnable : a.request.Runnable) (some_drafts : a.request.drafts ≠ [])
    (late : newer a.request.specs a.request.floor log ≠ []) :
    a.answer = .error (.newerEvents a.request.floor) :=
  congrArg Prod.fst (run_appendIfNoNewer_of_newer holds (Selection.compile_of_valid runnable.1)
    some_drafts service.sound runnable.2 late)

/-- An attempt that the database cannot run fails. -/
theorem answer_of_refused (valid : ∀ spec ∈ a.request.specs, spec.Valid)
    (some_drafts : a.request.drafts ≠ []) (service : a.before.InService)
    (refused : ¬ Statement.canGuard a.request.drafts a.request.floor (.ofStreams a.request.specs)) :
    a.answer = .error (.storage "statement cannot be prepared") := by
  have compiled := Selection.compile_of_valid valid
  rw [answer, run_appendIfNoNewer_of_refused compiled some_drafts refused, service.sound]
  rfl

end Attempt

/-- Attempts in their order, with other steps in between. -/
inductive Race : Store → List Attempt → Store → Prop
  | done (s : Store) : Race s [] s
  | elsewhere {s t u : Store} {attempts : List Attempt} (step : Step s t)
    (rest : Race t attempts u) : Race s attempts u
  | attempt {s u : Store} {attempts : List Attempt} (request : Request)
    (rest : Race (Attempt.after ⟨request, s⟩) attempts u) : Race s (⟨request, s⟩ :: attempts) u

namespace Race

variable {s t : Store} {attempts : List Attempt}

theorem of_steps {r : Store} (run : Steps r s) (race : Race s attempts t) : Steps r t := by
  induction race with
  | done => exact run
  | elsewhere step _ ih => exact ih (run.tail step)
  | attempt request _ ih => exact ih (run.tail (Attempt.step ⟨request, _⟩))

/-- Every attempt is somewhere in the run from the start of the race to its
end. -/
theorem steps_before {r : Store} (run : Steps r s) (race : Race s attempts t) {a : Attempt}
    (present : a ∈ attempts) : Steps r a.before ∧ Steps a.after t := by
  induction race with
  | done => simp at present
  | elsewhere step _ ih => exact ih (run.tail step) present
  | attempt request rest ih =>
    rcases List.mem_cons.1 present with rfl | later
    · exact ⟨run, of_steps .refl rest⟩
    · exact ih (run.tail (Attempt.step ⟨request, _⟩)) later

/-- Of two attempts, the one that is listed later comes later in the run. -/
theorem pairwise (race : Race s attempts t) :
    attempts.Pairwise fun a b => Steps a.after b.before := by
  induction race with
  | done => exact .nil
  | elsewhere _ _ ih => exact ih
  | attempt request rest ih =>
    exact .cons (fun b later => (steps_before .refl rest later).1) ih

end Race

namespace Attempt

variable {a b : Attempt}

/-- After a success the log has the rows that it wrote at its end. -/
theorem holds_after {log : List StoredEvent} (holds : a.before.tables.Holds log)
    (some_drafts : a.request.drafts ≠ []) (succeeded : a.Succeeds) :
    a.after.tables.Holds (log ++ a.rows) := by
  obtain ⟨events, answered⟩ := succeeded
  obtain ⟨-, -, legible, grown⟩ := of_ok holds some_drafts answered
  rw [grown]
  exact holds.push_numbered a.before.now legible

/-- What an attempt wrote after the floor of a later one that succeeds is not
of the later one's streams. -/
theorem excludes {log : List StoredEvent} (holds : a.before.tables.Holds log)
    (run : Steps a.after b.before) (some_drafts : a.request.drafts ≠ [])
    (some_later : b.request.drafts ≠ []) (succeeded : a.Succeeds)
    (succeeded_later : b.Succeeds) {event : StoredEvent} (written : event ∈ a.rows)
    (above : b.request.floor < event.id) : event.isOf b.request.specs = false := by
  obtain ⟨more, grown⟩ := run.extends (holds_after holds some_drafts succeeded)
  obtain ⟨events_later, answered_later⟩ := succeeded_later
  have quiet := (of_ok grown some_later answered_later).1
  have inLog : event ∈ log ++ a.rows ++ more :=
    List.mem_append_left _ (List.mem_append_right _ written)
  have outside := List.filter_eq_nil_iff.1 quiet event inLog
  simpa [above] using outside

end Attempt

/-- The floor of a client that has seen no event, or some event of the log. -/
def HasFloor (s : Store) (floor : EventId) : Prop :=
  floor = noEvent ∨ ∃ event ∈ s.tables.log, event.id = floor

theorem HasFloor.le_length {s : Store} {floor : EventId} {log : List StoredEvent}
    (seen : s.HasFloor floor) (holds : s.tables.Holds log) : floor ≤ log.length := by
  rcases seen with rfl | ⟨event, present, rfl⟩
  · simp [noEvent]
  · rw [holds.log_eq] at present
    exact holds.numbered.le_length present

/-- When they share a floor that the log had reached, and the first writes an event of
the second's streams, two attempts do not both succeed. -/
theorem Attempt.not_both_succeed {a b : Attempt} {log : List StoredEvent}
    (holds : a.before.tables.Holds log) (run : Steps a.after b.before)
    (some_later : b.request.drafts ≠ []) (reached : b.request.floor ≤ log.length)
    (hits : a.request.Hits b.request) : ¬ (a.Succeeds ∧ b.Succeeds) := by
  rintro ⟨succeeded, succeeded_later⟩
  obtain ⟨draft, inDrafts, hit⟩ := hits
  have some_drafts : a.request.drafts ≠ [] := List.ne_nil_of_mem inDrafts
  obtain ⟨event, written, type, data⟩ :
      ∃ event ∈ a.rows, event.type = draft.type ∧ event.data = draft.data :=
    Draft.exists_numbered inDrafts
  -- The event that hits has a new id, so it is after the floor.
  have above : b.request.floor < event.id := by
    have next := ((Draft.consecutive_numbered _ _ _).bounds written).1
    rw [holds.lastId_eq] at next
    exact Int.lt_of_le_of_lt reached next
  have outside := excludes holds run some_drafts some_later succeeded succeeded_later written above
  rw [StoredEvent.isOf, type, data, hit] at outside
  cases outside

/-- Any number of guarded appends, in any order and with any other calls in
between, on a store that came from a new one.

A row that one of them wrote is of no stream of a later one that succeeds, unless it
is not after the later one's floor.

When they share a floor that is zero or the id of an event that the log had at
the start, their payloads can be stored, and each request has an event of every
request's streams: at most one attempt succeeds. It appends its drafts, in their
order and with the next ids, they stay, and it answers them as they are read back. Each
of the others writes nothing, and conflicts if its streams are valid and the database
can run its statement. -/
theorem race_outcome {now : Instant} {s t : Store} {attempts : List Attempt}
    (run : Steps (new now) s) (race : Race s attempts t) :
    (attempts.Pairwise fun a b => a.request.drafts ≠ [] → b.request.drafts ≠ [] →
      a.Succeeds → b.Succeeds → a.after.tables.log = a.before.tables.log ++ a.rows ∧
        ∀ event ∈ a.rows, b.request.floor < event.id → event.isOf b.request.specs = false) ∧
    ∀ floor, s.HasFloor floor →
      (∀ a ∈ attempts, a.request.floor = floor) →
      (∀ a ∈ attempts, ∀ draft ∈ a.request.drafts, draft.data.Legible) →
      (∀ a ∈ attempts, ∀ b ∈ attempts, a.request.Hits b.request) →
      (attempts.Pairwise fun a b => ¬ (a.Succeeds ∧ b.Succeeds)) ∧
      ∀ a ∈ attempts,
        (¬ a.Succeeds → a.after.tables = a.before.tables ∧
          (a.request.Runnable → a.answer = .error (.newerEvents floor))) ∧
        ∀ events, a.answer = .ok events →
          events = a.rows.map StoredEvent.reread ∧
          a.after.tables.log = a.before.tables.log ++ a.rows ∧
          ∀ event ∈ a.rows, event ∈ t.tables.log := by
  have around {a : Attempt} (present : a ∈ attempts) := race.steps_before .refl present
  obtain ⟨start, holdsStart⟩ := run.extends (holds_new now)
  rw [List.nil_append] at holdsStart
  have holds {a : Attempt} (present : a ∈ attempts) := (around present).1.extends holdsStart
  refine ⟨?_, fun floor seen shared legible hits => ?_⟩
  · refine race.pairwise.imp_of_mem ?_
    intro a b inA inB between some_a some_b succeeded succeeded_later
    obtain ⟨more, holdsA⟩ := holds inA
    refine ⟨?_, fun event written above =>
      Attempt.excludes holdsA between some_a some_b succeeded succeeded_later written above⟩
    rw [(Attempt.holds_after holdsA some_a succeeded).log_eq, holdsA.log_eq]
  -- Each request hits its own streams, so it has drafts.
  have some_drafts {a : Attempt} (present : a ∈ attempts) : a.request.drafts ≠ [] := by
    obtain ⟨draft, inDrafts, -⟩ := hits a present a present
    exact List.ne_nil_of_mem inDrafts
  refine ⟨?_, fun a present => ⟨fun failed => ?_, fun events succeeded => ?_⟩⟩
  · refine race.pairwise.imp_of_mem ?_
    intro a b inA inB between
    obtain ⟨more, holdsA⟩ := holds inA
    have reached : b.request.floor ≤ (start ++ more).length := by
      have before := seen.le_length holdsStart
      rw [shared b inB, List.length_append, Int.natCast_add]
      exact Int.le_trans before (Int.le_add_of_nonneg_right (noEvent_le _))
    exact Attempt.not_both_succeed holdsA between (some_drafts inB) reached (hits a inA b inB)
  · obtain ⟨more, holdsA⟩ := holds present
    have reached : Steps (new now) a.before := run.trans (around present).1
    have service := reached.inService (inService_new now)
    cases answered : a.answer with
    | ok events => exact absurd ⟨events, answered⟩ failed
    | error fault =>
      refine ⟨Attempt.of_error answered, fun runnable => ?_⟩
      rw [← answered, ← shared a present]
      refine Attempt.answer_of_newer holdsA service runnable (some_drafts present) fun quiet => ?_
      exact failed (Attempt.succeeds_of_quiet holdsA service runnable (legible a present) quiet)
  · obtain ⟨more, holdsA⟩ := holds present
    have grown := Attempt.holds_after holdsA (some_drafts present) ⟨events, succeeded⟩
    obtain ⟨later, holdsEnd⟩ := (around present).2.extends grown
    refine ⟨(Attempt.of_ok holdsA (some_drafts present) succeeded).2.1, ?_, fun event written => ?_⟩
    · rw [grown.log_eq, holdsA.log_eq]
    · rw [holdsEnd.log_eq]
      exact List.mem_append_left _ (List.mem_append_right _ written)

/-- A request to append one event, guarded by some streams from the start of
the log. -/
def Request.guardedBy (specs : List Stream) : Request := ⟨[⟨"T", .null⟩], noEvent, specs⟩

/-- An attempt on a new store and one on the store that it leaves. -/
def twoAttempts (first second : Request) : List Attempt :=
  [⟨first, new default⟩, ⟨second, Attempt.after ⟨first, new default⟩⟩]

theorem race_twoAttempts (first second : Request) :
    ∃ t, Race (new default) (twoAttempts first second) t :=
  ⟨_, .attempt first (.attempt second (.done _))⟩

theorem plainStream_runnable : (Request.guardedBy [plainStream]).Runnable := by
  refine ⟨plainStream_valid, ?_⟩
  rw [Statement.canGuard_iff]
  exact ⟨plainStream_spellsNul, by decide⟩

theorem plainStream_succeeds : Attempt.Succeeds ⟨.guardedBy [plainStream], new default⟩ := by
  refine Attempt.succeeds_of_quiet (holds_new default) (inService_new default)
    plainStream_runnable ?_ rfl
  simp [Request.guardedBy, Json.Legible, Json.depth]

/-- Of two attempts on one stream the second conflicts. -/
theorem race_outcome_two :
    Attempt.answer ⟨.guardedBy [plainStream],
      Attempt.after ⟨.guardedBy [plainStream], new default⟩⟩ = .error (.newerEvents noEvent) := by
  obtain ⟨t, race⟩ := race_twoAttempts (.guardedBy [plainStream]) (.guardedBy [plainStream])
  obtain ⟨once, outcome⟩ := (race_outcome .refl race).2 noEvent (.inl rfl)
    (by simp [twoAttempts, Request.guardedBy])
    (by simp [twoAttempts, Request.guardedBy, Json.Legible, Json.depth])
    (by simp [twoAttempts, Request.guardedBy, Request.Hits, has_plainStream])
  have second := outcome _ (List.mem_cons_of_mem _ List.mem_cons_self)
  refine (second.1 fun again => ?_).2 plainStream_runnable
  simp only [twoAttempts, List.pairwise_cons, List.mem_singleton, forall_eq] at once
  exact once.1 ⟨plainStream_succeeds, again⟩

/-- A stream that is not valid: it tests a field without a name. -/
def namelessStream : Stream :=
  ⟨["T"], some (Filter.empty.push "" (.compare .eq (.bool true)))⟩

theorem wideStream_refused {s : Store} (service : s.InService) :
    Attempt.answer ⟨.guardedBy [wideStream], s⟩ =
      .error (.storage "statement cannot be prepared") :=
  Attempt.answer_of_refused wideStream_valid (List.cons_ne_nil _ _) service
    (not_canGuard_wideStream _ _)

theorem namelessStream_refused (s : Store) :
    Attempt.answer ⟨.guardedBy [plainStream, namelessStream], s⟩ =
      .error (.invalidFilter "field name is empty") := by
  have refused : Selection.compile [plainStream, namelessStream] =
      .error (.invalidFilter "field name is empty") := rfl
  rw [Attempt.answer, run_appendIfNoNewer]
  dsimp only [Request.guardedBy]
  rw [refused]

/-- An attempt under these streams fails without a conflict, although one on the
same floor won before it and each writes what the other watches. -/
def LosesWithoutConflict (specs : List Stream) : Prop :=
  (∃ t, Race (new default) (twoAttempts (.guardedBy [plainStream]) (.guardedBy specs)) t) ∧
    (∀ a ∈ twoAttempts (.guardedBy [plainStream]) (.guardedBy specs),
      a.request.floor = noEvent ∧ (∀ draft ∈ a.request.drafts, draft.data.Legible) ∧
        ∀ b ∈ twoAttempts (.guardedBy [plainStream]) (.guardedBy specs),
          a.request.Hits b.request) ∧
    Attempt.Succeeds ⟨.guardedBy [plainStream], new default⟩ ∧
    ∃ fault, Attempt.answer ⟨.guardedBy specs,
      Attempt.after ⟨.guardedBy [plainStream], new default⟩⟩ = .error fault ∧
        fault.isConflict = false

theorem loses_of_refused {specs : List Stream} (hit : specs.any (·.has "T" .null)) {fault : Fault}
    (refused : Attempt.answer ⟨.guardedBy specs,
      Attempt.after ⟨.guardedBy [plainStream], new default⟩⟩ = .error fault)
    (other : fault.isConflict = false) : LosesWithoutConflict specs := by
  refine ⟨race_twoAttempts _ _, ?_, plainStream_succeeds, fault, refused, other⟩
  simp [twoAttempts, Request.guardedBy, Request.Hits, has_plainStream, Json.Legible, Json.depth,
    hit, -List.any_eq_true]

/-- So does one whose guard has more parameters than a statement may have, and
one whose streams are not all valid. -/
theorem attempts_fail_without_conflict :
    LosesWithoutConflict [wideStream] ∧ LosesWithoutConflict [plainStream, namelessStream] := by
  constructor
  · have first := Attempt.step ⟨.guardedBy [plainStream], new default⟩
    have service := first.inService (inService_new default)
    exact loses_of_refused (by simp [has_wideStream]) (wideStream_refused service) rfl
  · exact loses_of_refused (by simp [has_plainStream]) (namelessStream_refused _) rfl

end Store

end Chronicle
