import Chronicle.Proofs.Projections.Writes
import Mathlib.Data.List.Nodup

/-!
# Races of projection updates

Conditional writes of one key, in some order and with anything else that is done in
between which leaves the key alone (`Updates`). An update is accepted when its event is
above the anchor, the last event under the key, and then it is the anchor
(`Trial.accepted`); otherwise it conflicts and nothing changes (`Trial.stale`). So the
anchor is at every point the greatest of the one at the start and of the events that
were offered (`Updates.anchor_eq`), and which data are kept does not depend on the order
(`updates_converge`).

Data that are nested too deeply to be stored are refused before the events are compared,
so an update with such data plays no part, whatever its event is
(`deep_update_passed_over`).
-/

namespace Chronicle

namespace Store

/-- A conditional write of a projection: data and the event that they reach. -/
structure Update where
  data : Json
  event : EventId

namespace Update

/-- The data can be stored. -/
def storable (u : Update) : Bool := (Payload.value u.data).isStorable

def action (type id : String) (u : Update) : Action Store Unit :=
  updateProjection type id u.data u.event

end Update

/-- An update with the store that it met. -/
structure Trial where
  update : Update
  before : Store

namespace Trial

def answer (type id : String) (a : Trial) : Except Fault Unit :=
  ((a.update.action type id).run a.before).1

def after (type id : String) (a : Trial) : Store := ((a.update.action type id).run a.before).2

end Trial

/-- The last event under a key, if there is a row. -/
def anchor (type id : String) (s : Store) : Option EventId :=
  (s.tables.projection? type id).map ProjectionRow.lastEvent

/-- The second anchor is not behind the first. -/
def NotBehind (first second : Option EventId) : Prop :=
  ∀ last ∈ first, ∃ later ∈ second, last ≤ later

/-- What is kept under a key. -/
def kept (type id : String) (s : Store) : Option (Payload × EventId) :=
  (s.tables.projection? type id).map fun row => (row.data, row.lastEvent)

variable {type id : String} {s t u : Store}

theorem anchor_of_row {row : ProjectionRow} (found : s.tables.projection? type id = some row) :
    s.anchor type id = some row.lastEvent := by
  rw [anchor, found]
  rfl

/-- Whether an event is above the last one is what an update asks. -/
theorem older_eq (event : EventId) :
    (s.tables.projection? type id).all (·.lastEvent < event) =
      (s.anchor type id).all (· < event) := by
  rw [anchor, Option.all_map]

namespace NotBehind

variable {first second third : Option EventId}

theorem refl (first : Option EventId) : NotBehind first first :=
  fun last given => ⟨last, given, Int.le_refl _⟩

theorem trans (front : NotBehind first second) (back : NotBehind second third) :
    NotBehind first third := by
  intro last given
  obtain ⟨later, givenLater, le⟩ := front last given
  obtain ⟨latest, givenLatest, le'⟩ := back later givenLater
  exact ⟨latest, givenLatest, Int.le_trans le le'⟩

end NotBehind

theorem above_mono {last : Option EventId} {event later : EventId}
    (above : last.all (· < event)) (le : event ≤ later) : last.all (· < later) := by
  rw [Option.all_eq_true] at above ⊢
  intro e given
  exact decide_eq_true (Int.lt_of_lt_of_le (of_decide_eq_true (above e given)) le)

/-! ## One update -/

namespace Trial

variable {a : Trial}

theorem poisoned_after (a : Trial) : (a.after type id).poisoned = a.before.poisoned :=
  ProjectionWrite.poisoned_run (w := .update type id a.update.data a.update.event) a.before

/-- Behind a broken lock no update is tried. -/
theorem locked (broken : a.before.poisoned = true) :
    a.answer type id = .error (.lock "connection mutex poisoned") ∧
      (a.after type id).tables = a.before.tables := by
  rw [answer, after, Update.action, run_updateProjection, broken]
  exact ⟨rfl, rfl⟩

theorem accepted (sound : a.before.poisoned = false) (storable : a.update.storable)
    (above : (a.before.anchor type id).all (· < a.update.event)) :
    a.answer type id = .ok () ∧ ∃ row, (a.after type id).tables.projection? type id = some row ∧
      row.data = .value a.update.data ∧ row.lastEvent = a.update.event := by
  rw [Update.storable] at storable
  rw [← older_eq] at above
  rw [answer, after, Update.action, run_updateProjection, sound]
  simp only [storable, above, if_true, Bool.false_eq_true, if_false, true_and]
  exact ⟨_, Tables.projection?_put a.before.tables ⟨type, id, _, _, _, _⟩, rfl, rfl⟩

theorem stale (sound : a.before.poisoned = false) (storable : a.update.storable)
    (reached : ¬ (a.before.anchor type id).all (· < a.update.event)) :
    a.answer type id = .error (.staleSnapshot type id a.update.event) ∧
      (a.after type id).tables = a.before.tables := by
  rw [Update.storable] at storable
  rw [← older_eq] at reached
  rw [answer, after, Update.action, run_updateProjection, sound]
  simp [storable, reached]

theorem refused (sound : a.before.poisoned = false) (deep : a.update.storable = false) :
    a.answer type id = .error (.storage "payload is not valid JSON") ∧
      (a.after type id).tables = a.before.tables := by
  rw [Update.storable] at deep
  rw [answer, after, Update.action, run_updateProjection, sound]
  simp [deep]

theorem anchor_of_tables (same : (a.after type id).tables = a.before.tables) :
    (a.after type id).anchor type id = a.before.anchor type id := by
  rw [anchor, same, anchor]

/-- The anchor after an update. Only events whose data can be stored count. -/
theorem anchor_after (sound : a.before.poisoned = false) :
    (a.after type id).anchor type id =
      if a.update.storable ∧ (a.before.anchor type id).all (· < a.update.event)
      then some a.update.event else a.before.anchor type id := by
  by_cases storable : a.update.storable
  · by_cases above : (a.before.anchor type id).all (· < a.update.event)
    · obtain ⟨-, row, found, -, event⟩ := accepted sound storable above
      rw [if_pos ⟨storable, above⟩, anchor_of_row found, event]
    · rw [if_neg fun both => above both.2, anchor_of_tables (stale sound storable above).2]
  · rw [if_neg fun both => storable both.1,
      anchor_of_tables (refused sound (by simpa using storable)).2]

/-- What is above the anchor after an update. -/
theorem anchor_lt_iff (sound : a.before.poisoned = false) (event : EventId) :
    ((a.after type id).anchor type id).all (· < event) ↔
      (a.before.anchor type id).all (· < event) ∧ (a.update.storable → a.update.event < event) := by
  rw [anchor_after sound]
  cases a.before.anchor type id with
  | none => by_cases storable : a.update.storable <;> simp [storable]
  | some last =>
    simp only [Option.all_some, decide_eq_true_eq]
    split
    · rename_i counts
      simp only [Option.all_some, decide_eq_true_eq, counts.1, true_imp_iff]
      exact ⟨fun above => ⟨Int.lt_trans counts.2 above, above⟩, fun both => both.2⟩
    · rename_i passed
      simp only [Option.all_some, decide_eq_true_eq]
      refine ⟨fun above => ⟨above, fun storable => ?_⟩, fun both => both.1⟩
      exact Int.lt_of_le_of_lt (Int.not_lt.1 fun newer => passed ⟨storable, newer⟩) above

theorem notBehind (sound : a.before.poisoned = false) :
    NotBehind (a.before.anchor type id) ((a.after type id).anchor type id) := by
  rw [anchor_after sound]
  split
  · rename_i counts
    intro last given
    exact ⟨_, rfl, Int.le_of_lt (of_decide_eq_true ((Option.all_eq_true ..).1 counts.2 last given))⟩
  · exact .refl _

theorem answer_eq_ok_iff (sound : a.before.poisoned = false) :
    a.answer type id = .ok () ↔
      a.update.storable ∧ (a.before.anchor type id).all (· < a.update.event) := by
  by_cases storable : a.update.storable
  · by_cases above : (a.before.anchor type id).all (· < a.update.event)
    · simp only [(accepted sound storable above).1, storable, above, and_self]
    · simp [(stale sound storable above).1, above]
  · simp [(refused sound (by simpa using storable)).1, storable]

end Trial

/-! ## Updates in some order -/

/-- Updates of a key in their order, with calls that do not write the key and time passing
in between. -/
inductive Updates (type id : String) : Store → List Trial → Store → Prop
  | done (s : Store) : Updates type id s [] s
  | elsewhere {s t : Store} {trials : List Trial} {c : Call} (silent : c.writes type id = false)
    (rest : Updates type id (c.perform s) trials t) : Updates type id s trials t
  | meanwhile {s t : Store} {trials : List Trial} (now : Instant) (metrics : Metrics)
    (rest : Updates type id { s with now := now, metrics := metrics } trials t) :
    Updates type id s trials t
  | update {s t : Store} {trials : List Trial} (update : Update)
    (rest : Updates type id (Trial.after type id ⟨update, s⟩) trials t) :
    Updates type id s (⟨update, s⟩ :: trials) t

/-- The events of the trials whose data can be stored. -/
def offered (trials : List Trial) : List EventId :=
  (trials.filter (·.update.storable)).map (·.update.event)

namespace Updates

variable {trials front back : List Trial} {a : Trial}

theorem perform_eq {c : Call} (silent : c.writes type id = false) (s : Store) :
    (c.perform s).tables.projection? type id = s.tables.projection? type id ∧
      (c.perform s).poisoned = s.poisoned := by
  obtain ⟨change, poisoned, -⟩ := leaves_perform c s
  exact ⟨change.projection?_eq silent, poisoned⟩

theorem poisoned_eq (run : Updates type id s trials t) : t.poisoned = s.poisoned := by
  induction run with
  | done => rfl
  | elsewhere silent _ ih => exact ih.trans (perform_eq silent _).2
  | meanwhile _ _ _ ih => exact ih
  | update update _ ih => exact ih.trans (Trial.poisoned_after _)

/-- Every update is met by the store that the run before it leads to, and the run goes on
from the store that it leaves. -/
theorem split (run : Updates type id s (front ++ a :: back) t) :
    Updates type id s front a.before ∧ Updates type id (a.after type id) back t := by
  generalize trials_eq : front ++ a :: back = trials at run
  induction run generalizing front with
  | done => simp at trials_eq
  | elsewhere silent rest ih =>
    obtain ⟨before, after⟩ := ih trials_eq
    exact ⟨.elsewhere silent before, after⟩
  | meanwhile now metrics rest ih =>
    obtain ⟨before, after⟩ := ih trials_eq
    exact ⟨.meanwhile now metrics before, after⟩
  | update update rest ih =>
    cases front with
    | nil =>
      obtain ⟨rfl, rfl⟩ := List.cons.inj trials_eq
      exact ⟨.done _, rest⟩
    | cons first front =>
      obtain ⟨rfl, others⟩ := List.cons.inj trials_eq
      obtain ⟨before, after⟩ := ih others
      exact ⟨.update update before, after⟩

/-- Behind a broken lock all updates fail and the row stays. -/
theorem locked (run : Updates type id s trials t) (broken : s.poisoned = true) :
    (∀ a ∈ trials, a.answer type id = .error (.lock "connection mutex poisoned")) ∧
      t.tables.projection? type id = s.tables.projection? type id := by
  induction run with
  | done => simp
  | elsewhere silent _ ih =>
    obtain ⟨row, poisoned⟩ := perform_eq silent _
    obtain ⟨fail, stays⟩ := ih (poisoned.trans broken)
    exact ⟨fail, stays.trans row⟩
  | meanwhile _ _ _ ih => exact ih broken
  | @update s t trials update rest ih =>
    obtain ⟨fail, stays⟩ := ih ((Trial.poisoned_after _).trans broken)
    refine ⟨List.forall_mem_cons.2 ⟨(Trial.locked (a := ⟨update, s⟩) broken).1, fail⟩, ?_⟩
    rw [stays, (Trial.locked (a := ⟨update, s⟩) broken).2]

theorem anchor_elsewhere {c : Call} (silent : c.writes type id = false) (s : Store) :
    (c.perform s).anchor type id = s.anchor type id := by
  rw [anchor, (perform_eq silent s).1, anchor]

theorem offered_cons (a : Trial) (trials : List Trial) :
    offered (a :: trials) =
      if a.update.storable then a.update.event :: offered trials else offered trials := by
  unfold offered
  rw [List.filter_cons]
  split <;> simp

/-- What an update has to exceed. -/
theorem anchor_lt_iff (run : Updates type id s trials t) (sound : s.poisoned = false)
    (event : EventId) :
    (t.anchor type id).all (· < event) ↔
      (s.anchor type id).all (· < event) ∧ ∀ e ∈ offered trials, e < event := by
  induction run with
  | done => simp [offered]
  | elsewhere silent _ ih =>
    rw [ih ((perform_eq silent _).2.trans sound), anchor_elsewhere silent]
  | meanwhile _ _ _ ih => exact ih sound
  | @update s t trials update rest ih =>
    rw [ih ((Trial.poisoned_after _).trans sound), Trial.anchor_lt_iff (a := ⟨update, s⟩) sound,
      offered_cons]
    by_cases storable : update.storable <;> simp [storable, and_assoc]

/-- What is exceeded by the same as all of some events is the greatest of them. -/
theorem eq_some_iff_greatest {anchor : Option EventId} {events : List EventId}
    (bounds : ∀ bound, anchor.all (· < bound) ↔ ∀ event ∈ events, event < bound)
    {last : EventId} : anchor = some last ↔ last ∈ events ∧ ∀ event ∈ events, event ≤ last := by
  constructor
  · rintro rfl
    simp only [Option.all_some, decide_eq_true_eq] at bounds
    have atMost : ∀ event ∈ events, event ≤ last := fun event present =>
      Int.lt_add_one_iff.1 ((bounds (last + 1)).1 (Int.lt_succ last) event present)
    refine ⟨?_, atMost⟩
    by_contra absent
    refine Int.lt_irrefl last ((bounds last).2 fun event present => ?_)
    exact Int.lt_iff_le_and_ne.2 ⟨atMost event present, fun same => absent (same ▸ present)⟩
  · rintro ⟨present, atMost⟩
    cases anchor with
    | none => exact absurd ((bounds last).1 rfl last present) (Int.lt_irrefl last)
    | some other =>
      simp only [Option.all_some, decide_eq_true_eq] at bounds
      have below := (bounds (other + 1)).1 (Int.lt_succ other) last present
      have above := (bounds (last + 1)).2 fun event among =>
        Int.lt_add_one_iff.2 (atMost event among)
      rw [Int.le_antisymm (Int.lt_add_one_iff.1 above) (Int.lt_add_one_iff.1 below)]

/-- At the end the anchor is the greatest of the first one and the events offered. -/
theorem anchor_eq_some_iff (run : Updates type id s trials t) (sound : s.poisoned = false)
    {last : EventId} :
    t.anchor type id = some last ↔ last ∈ (s.anchor type id).toList ++ offered trials ∧
      ∀ event ∈ (s.anchor type id).toList ++ offered trials, event ≤ last := by
  refine eq_some_iff_greatest fun bound => ?_
  rw [run.anchor_lt_iff sound, List.forall_mem_append]
  refine and_congr_left fun _ => ?_
  cases s.anchor type id <;> simp

/-- The anchor never moves back. -/
theorem anchors_sorted (run : Updates type id s trials t) (sound : s.poisoned = false) :
    (s.anchor type id :: trials.map fun a => (a.after type id).anchor type id).Pairwise
      NotBehind := by
  induction run with
  | done => simp
  | elsewhere silent _ ih =>
    rw [← anchor_elsewhere silent]
    exact ih ((perform_eq silent _).2.trans sound)
  | meanwhile _ _ _ ih => exact ih sound
  | @update s t trials update rest ih =>
    have sorted := ih ((Trial.poisoned_after _).trans sound)
    have rises : NotBehind (s.anchor type id) ((Trial.after type id ⟨update, s⟩).anchor type id) :=
      Trial.notBehind (a := ⟨update, s⟩) sound
    refine List.pairwise_cons.2 ⟨fun later present => ?_, sorted⟩
    rcases List.mem_cons.1 present with rfl | inRest
    · exact rises
    · exact rises.trans (List.rel_of_pairwise_cons sorted inRest)

/-- Without an event above the anchor the row stays. -/
theorem row_stays (run : Updates type id s trials t) (sound : s.poisoned = false)
    (reached : ∀ event ∈ offered trials, ¬ (s.anchor type id).all (· < event)) :
    t.tables.projection? type id = s.tables.projection? type id := by
  induction run with
  | done => rfl
  | elsewhere silent _ ih =>
    rw [← anchor_elsewhere silent] at reached
    rw [ih ((perform_eq silent _).2.trans sound) reached, (perform_eq silent _).1]
  | meanwhile _ _ _ ih => exact ih sound reached
  | @update s t trials update rest ih =>
    have same : (Trial.after type id ⟨update, s⟩).tables = s.tables := by
      rw [offered_cons] at reached
      split at reached
      · rename_i storable
        exact (Trial.stale (a := ⟨update, s⟩) sound storable (List.forall_mem_cons.1 reached).1).2
      · rename_i deep
        exact (Trial.refused (a := ⟨update, s⟩) sound (by simpa using deep)).2
    rw [ih ((Trial.poisoned_after _).trans sound) ?_, same]
    rw [Trial.anchor_of_tables (a := ⟨update, s⟩) same]
    intro event present
    refine reached event ?_
    rw [offered_cons]
    split
    · exact List.mem_cons_of_mem _ present
    · exact present

theorem mem_offered {event : EventId} :
    event ∈ offered trials ↔ ∃ a ∈ trials, a.update.storable ∧ a.update.event = event := by
  simp [offered, and_assoc]

theorem offered_of_mem (present : a ∈ trials) (storable : a.update.storable) :
    a.update.event ∈ offered trials :=
  mem_offered.2 ⟨a, present, storable, rfl⟩

/-- An update that exceeds the first anchor and all others leaves its data and its event. -/
theorem row_of_greatest (run : Updates type id s trials t) (sound : s.poisoned = false)
    (distinct : (trials.map (·.update.event)).Nodup) (present : a ∈ trials)
    (storable : a.update.storable) (above : (s.anchor type id).all (· < a.update.event))
    (greatest : ∀ event ∈ offered trials, event ≤ a.update.event) :
    ∃ row, t.tables.projection? type id = some row ∧ row.data = .value a.update.data ∧
      row.lastEvent = a.update.event := by
  obtain ⟨front, back, rfl⟩ := List.append_of_mem present
  obtain ⟨before, after⟩ := run.split
  have soundBefore := before.poisoned_eq.trans sound
  have exceeds : (a.before.anchor type id).all (· < a.update.event) := by
    refine (before.anchor_lt_iff sound _).2 ⟨above, fun event offeredFront => ?_⟩
    obtain ⟨b, inFront, storableB, rfl⟩ := mem_offered.1 offeredFront
    have atMost := greatest _ (offered_of_mem (List.mem_append_left _ inFront) storableB)
    -- Another update has another event.
    refine lt_of_le_of_ne atMost fun same => ?_
    rw [List.map_append, List.map_cons, List.nodup_append] at distinct
    exact distinct.2.2 _ (List.mem_map_of_mem inFront) _ List.mem_cons_self same
  obtain ⟨-, row, found, data, event⟩ := Trial.accepted soundBefore storable exceeds
  refine ⟨row, ?_, data, event⟩
  rw [after.row_stays ((Trial.poisoned_after a).trans soundBefore) ?_, found]
  intro later offeredBack
  obtain ⟨b, inBack, storableB, rfl⟩ := mem_offered.1 offeredBack
  rw [anchor_of_row found, event, Option.all_some, decide_eq_true_eq, Int.not_lt]
  exact greatest _ (offered_of_mem
    (List.mem_append_right _ (List.mem_cons_of_mem _ inBack)) storableB)

/-! ### Orders -/

/-- What is kept at the end is what was kept at the start or what the greatest update has. -/
theorem kept_cases (run : Updates type id s trials t) (sound : s.poisoned = false)
    (distinct : (trials.map (·.update.event)).Nodup) :
    (∀ event ∈ offered trials, ¬ (s.anchor type id).all (· < event)) ∧
        t.kept type id = s.kept type id ∨
      ∃ a ∈ trials, (a.update.storable ∧ (s.anchor type id).all (· < a.update.event) ∧
        ∀ event ∈ offered trials, event ≤ a.update.event) ∧
        t.kept type id = some (.value a.update.data, a.update.event) := by
  by_cases reached : ∀ event ∈ offered trials, ¬ (s.anchor type id).all (· < event)
  · refine .inl ⟨reached, ?_⟩
    rw [kept, run.row_stays sound reached, kept]
  · simp only [not_forall, not_not] at reached
    obtain ⟨event, present, above⟩ := reached
    cases greatest : (offered trials).max? with
    | none =>
      rw [List.max?_eq_none_iff.1 greatest] at present
      simp at present
    | some top =>
      obtain ⟨among, bounds⟩ := List.max?_eq_some_iff.1 greatest
      obtain ⟨a, inTrials, storable, rfl⟩ := mem_offered.1 among
      have aboveTop : (s.anchor type id).all (· < a.update.event) :=
        above_mono above (bounds event present)
      obtain ⟨row, found, data, last⟩ :=
        run.row_of_greatest sound distinct inTrials storable aboveTop bounds
      refine .inr ⟨a, inTrials, ⟨storable, aboveTop, bounds⟩, ?_⟩
      rw [kept, found, ← data, ← last]
      rfl

theorem offered_perm {others : List Trial}
    (same : (others.map (·.update)).Perm (trials.map (·.update))) :
    (offered others).Perm (offered trials) := by
  have ofUpdates (trials : List Trial) :
      offered trials = ((trials.map (·.update)).filter Update.storable).map Update.event := by
    simp [offered, List.filter_map, Function.comp_def]
  rw [ofUpdates, ofUpdates]
  exact (same.filter _).map _

/-- The same updates in another order leave the same. -/
theorem kept_of_perm (run : Updates type id s trials t) (sound : s.poisoned = false)
    (distinct : (trials.map (·.update.event)).Nodup) {others : List Trial}
    (runOthers : Updates type id s others u)
    (same : (others.map (·.update)).Perm (trials.map (·.update))) :
    u.kept type id = t.kept type id := by
  have events (trials : List Trial) :
      trials.map (·.update.event) = (trials.map (·.update)).map Update.event := by simp
  have distinctOthers : (others.map (·.update.event)).Nodup := by
    rw [events] at distinct ⊢
    exact (same.map _).nodup_iff.2 distinct
  have offers {event : EventId} : event ∈ offered others ↔ event ∈ offered trials :=
    (offered_perm same).mem_iff
  rcases run.kept_cases sound distinct with ⟨reached, stays⟩ | ⟨a, inTrials, greatestA, put⟩
  · rcases runOthers.kept_cases sound distinctOthers with ⟨-, staysB⟩ | ⟨b, inOthers, above, -⟩
    · rw [stays, staysB]
    · exact absurd above.2.1 (reached _ (offers.1 (offered_of_mem inOthers above.1)))
  · rcases runOthers.kept_cases sound distinctOthers with
      ⟨reached, -⟩ | ⟨b, inOthers, greatestB, putB⟩
    · exact absurd greatestA.2.1 (reached _ (offers.2 (offered_of_mem inTrials greatestA.1)))
    · -- Both are greatest, and no two updates have the same event.
      have sameEvent : b.update.event = a.update.event := le_antisymm
        (greatestA.2.2 _ (offers.1 (offered_of_mem inOthers greatestB.1)))
        (greatestB.2.2 _ (offers.2 (offered_of_mem inTrials greatestA.1)))
      rw [events] at distinct
      have sameUpdate : b.update = a.update := List.inj_on_of_nodup_map distinct
        (same.mem_iff.1 (List.mem_map_of_mem inOthers)) (List.mem_map_of_mem inTrials) sameEvent
      rw [put, putB, sameUpdate]

end Updates

/-- Updates of one key with different events, in any order and with anything in between that
does not write the key, from any store and with or without a row to start from. Behind a
broken lock all fail. Otherwise the anchor ends at the greatest of the first one and the
events whose data can be stored; the row is the one at the start if no such event exceeds its
anchor, and has the data of the greatest if one does; and the anchor never moves back.
An update succeeds exactly when its data can be stored and its event exceeds the first anchor
and those events that were offered before it. The others change nothing; they conflict, or
fail to store their data. The same updates in another order leave the same. -/
theorem updates_converge {trials : List Trial} (run : Updates type id s trials t)
    (distinct : (trials.map (·.update.event)).Nodup) :
    (s.poisoned = true →
      (∀ a ∈ trials, a.answer type id = .error (.lock "connection mutex poisoned")) ∧
      t.tables.projection? type id = s.tables.projection? type id) ∧
    (s.poisoned = false →
      (∀ last, t.anchor type id = some last ↔
        last ∈ (s.anchor type id).toList ++ offered trials ∧
          ∀ event ∈ (s.anchor type id).toList ++ offered trials, event ≤ last) ∧
      ((∀ event ∈ offered trials, ¬ (s.anchor type id).all (· < event)) →
        t.tables.projection? type id = s.tables.projection? type id) ∧
      (∀ a ∈ trials, a.update.storable → (s.anchor type id).all (· < a.update.event) →
        (∀ event ∈ offered trials, event ≤ a.update.event) →
        ∃ row, t.tables.projection? type id = some row ∧ row.data = .value a.update.data ∧
          row.lastEvent = a.update.event) ∧
      (s.anchor type id :: trials.map fun a => (a.after type id).anchor type id).Pairwise
        NotBehind ∧
      (∀ front a back, trials = front ++ a :: back →
        (a.answer type id = .ok () ↔
          a.update.storable ∧ (s.anchor type id).all (· < a.update.event) ∧
            ∀ event ∈ offered front, event < a.update.event) ∧
        (a.answer type id ≠ .ok () → (a.after type id).tables = a.before.tables ∧
          a.answer type id = .error (if a.update.storable
            then .staleSnapshot type id a.update.event
            else .storage "payload is not valid JSON"))) ∧
      ∀ others u, Updates type id s others u →
        (others.map (·.update)).Perm (trials.map (·.update)) →
        u.kept type id = t.kept type id) := by
  refine ⟨run.locked, fun sound => ⟨fun last => run.anchor_eq_some_iff sound, run.row_stays sound,
    fun a present => run.row_of_greatest sound distinct present, run.anchors_sorted sound, ?_,
    fun others u runOthers same => run.kept_of_perm sound distinct runOthers same⟩⟩
  rintro front a back rfl
  obtain ⟨before, -⟩ := run.split
  have soundBefore := before.poisoned_eq.trans sound
  refine ⟨?_, fun fails => ?_⟩
  · rw [Trial.answer_eq_ok_iff soundBefore, before.anchor_lt_iff sound]
  · by_cases storable : a.update.storable
    · rw [if_pos storable]
      exact (Trial.stale soundBefore storable fun above =>
        fails ((Trial.answer_eq_ok_iff soundBefore).2 ⟨storable, above⟩)).symm
    · rw [if_neg storable]
      exact (Trial.refused soundBefore (by simpa using storable)).symm

/-- Three updates of a new store. The one with the greatest event comes second, and the third
conflicts. -/
theorem updates_converge_three :
    let first : Trial := ⟨⟨.null, -2⟩, new default⟩
    let second : Trial := ⟨⟨.bool true, 5⟩, first.after "T" "1"⟩
    let third : Trial := ⟨⟨.null, 3⟩, second.after "T" "1"⟩
    (third.after "T" "1").anchor "T" "1" = some 5 ∧
      second.answer "T" "1" = .ok () ∧
      third.answer "T" "1" = .error (.staleSnapshot "T" "1" 3) := by
  intro first second third
  have run : Updates "T" "1" (new default) [first, second, third] (third.after "T" "1") :=
    .update _ (.update _ (.update _ (.done _)))
  obtain ⟨-, converges⟩ := updates_converge run (by decide)
  obtain ⟨anchor, -, -, -, each, -⟩ := converges rfl
  refine ⟨(anchor 5).2 ⟨by decide, by decide⟩,
    (each [first] second [third] rfl).1.2 ⟨rfl, rfl, by decide⟩, ?_⟩
  · refine ((each [first, second] third [] rfl).2 fun succeeded => ?_).2
    exact absurd (((each [first, second] third [] rfl).1.1 succeeded).2.2 5 (by decide)) (by decide)

/-- Data of 1001 levels are not stored, so their event does not count, and one that is lower
is the anchor in the end. -/
theorem deep_update_passed_over :
    let deep : Trial := ⟨⟨Json.nested .null 1001, 2⟩, new default⟩
    let plain : Trial := ⟨⟨.null, 1⟩, deep.after "T" "1"⟩
    Updates "T" "1" (new default) [deep, plain] (plain.after "T" "1") ∧
      deep.answer "T" "1" = .error (.storage "payload is not valid JSON") ∧
      plain.answer "T" "1" = .ok () ∧
      (plain.after "T" "1").anchor "T" "1" = some 1 := by
  have depth : (Json.nested .null 1001).depth = 1001 := Json.depth_nested .null 1001
  generalize Json.nested .null 1001 = data at depth
  intro deep plain
  have unstorable : deep.update.storable = false := by
    simp [deep, Update.storable, Payload.isStorable, Payload.depth, depth, Payload.writeDepth]
  have same : (deep.after "T" "1").tables = deep.before.tables := (Trial.refused rfl unstorable).2
  have sound : plain.before.poisoned = false := Trial.poisoned_after deep
  have absent : plain.before.anchor "T" "1" = none := Trial.anchor_of_tables same
  have above : (plain.before.anchor "T" "1").all (· < plain.update.event) := absent ▸ rfl
  obtain ⟨answered, row, found, -, event⟩ := Trial.accepted sound rfl above
  refine ⟨.update _ (.update _ (.done _)), (Trial.refused rfl unstorable).1, answered, ?_⟩
  rw [anchor_of_row found, event]

end Store

end Chronicle
