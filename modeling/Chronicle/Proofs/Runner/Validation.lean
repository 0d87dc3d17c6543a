import Chronicle.Proofs.Runner.Reads
import Chronicle.Runner.Validation
import Mathlib.Logic.Function.Basic

/-!
# Validation runners on a shared store

Any number of validation runners work on one store, and other clients do
whatever they like to it in between (`Workshop.Step`). What a runner has read is
what its streams had when it read it, however old that is by now
(`Workshop.Sound`). So the last event of its streams that it knows of is the last
one that was there, and a guard with that floor sees just what was written to its
streams since.

A save that makes two calls, one to load and one to append, is a load and then a
save of a loaded runner, with anything in between (`save_eq_events_save`).
-/

namespace Chronicle

namespace ValidationRunner

variable {E : Type} [DomainEvent E]

/-- What a runner can be asked to do. -/
inductive Call (E : Type) where
  | stage (event : E)
  | forget
  | events
  | refresh
  | validate
  | save

namespace Call

/-- The runner and the store that a call leaves. -/
def perform (rs : ValidationRunner E × Store) : Call E → ValidationRunner E × Store
  | stage event => (rs.1.stage event, rs.2)
  | forget => (rs.1.forget, rs.2)
  | events => (ValidationRunner.events.run rs).2
  | refresh => (ValidationRunner.refresh.run rs).2
  | validate => (ValidationRunner.validate.run rs).2
  | save => (ValidationRunner.save.run rs).2

/-- The call reads the events of the streams. -/
def fetches (r : ValidationRunner E) : Call E → Bool
  | stage _ | forget => false
  | events | validate => r.history.fetched.isNone
  | refresh => true
  | save => r.history.fetched.isNone && !r.history.staged.isEmpty

end Call

theorem run_validate (r : ValidationRunner E) (s : Store) :
    (validate.run (r, s)).2 = (events.run (r, s)).2 := by
  unfold validate
  rw [Action.run_bind]
  rcases events.run (r, s) with ⟨answer, after⟩
  cases answer with
  | error fault => rfl
  | ok view => simp [Action.run_bind]

theorem run_refresh (r : ValidationRunner E) (s : Store) :
    (refresh.run (r, s)).2 = (events.run (r.forget, s)).2 := by
  unfold refresh
  simp only [Action.run_bind, Action.run_modify]
  rcases events.run (r.forget, s) with ⟨answer, after⟩
  cases answer <;> rfl

/-- What was loaded stays loaded. -/
theorem events_again {r : ValidationRunner E} {s : Store} {view : View E}
    {after : ValidationRunner E × Store} (loaded : events.run (r, s) = (.ok view, after)) :
    events.run after = (.ok view, after) ∧ after.1.validator = r.validator ∧
      after.1.history.staged = r.history.staged := by
  rw [run_events] at loaded
  cases fetched : r.history.fetched with
  | some recorded =>
    simp only [fetched, Prod.mk.injEq] at loaded
    obtain ⟨shown, rfl⟩ := loaded
    refine ⟨?_, rfl, rfl⟩
    rw [run_events]
    simp only [fetched, shown]
  | none =>
    simp only [fetched] at loaded
    split at loaded
    · obtain ⟨shown, rfl⟩ := Prod.mk.inj loaded
      refine ⟨?_, rfl, rfl⟩
      rw [run_events, ← shown]
      rfl
    · simp at loaded

/-- A save that has to load is a load and then a save of what was loaded. -/
theorem save_eq_events_save {r : ValidationRunner E} {s : Store} {view : View E}
    {after : ValidationRunner E × Store} (loaded : events.run (r, s) = (.ok view, after)) :
    save.run (r, s) = if r.history.staged = [] then (.ok [], r, s) else save.run after := by
  obtain ⟨again, sameRule, sameStaged⟩ := events_again loaded
  rw [run_save, loaded, run_save after.1 after.2, again, sameRule, sameStaged]
  split <;> rfl

/-! ## What a runner has read -/

/-- What the runner has read is what its streams had among the first `seen`
events of the log. -/
def Cached (r : ValidationRunner E) (seen : Nat) (log : List StoredEvent) : Prop :=
  ∀ recorded, r.history.fetched = some recorded →
    seen ≤ log.length ∧
      Client.readAll E (stretch r.validator.streams noEvent seen log) = .ok recorded ∧
      (∀ spec ∈ r.validator.streams, spec.Valid) ∧
      (r.validator.streams ≠ [] → Statement.canSelect (.ofStreams r.validator.streams) none)

variable {r : ValidationRunner E} {seen : Nat} {s : Store} {log more : List StoredEvent}

theorem Cached.grow (cached : r.Cached seen log) (numbered : Consecutive noEvent (log ++ more)) :
    r.Cached seen (log ++ more) := by
  intro recorded fetched
  obtain ⟨within, decoded, valid, prepared⟩ := cached recorded fetched
  refine ⟨?_, ?_, valid, prepared⟩
  · rw [List.length_append]
    exact Nat.le_add_right_of_le within
  · rwa [stretch_grow numbered (Int.ofNat_le.2 within)]

/-- Loading reads the streams as they are, unless something was read before. -/
theorem events_spec (cached : r.Cached seen log) (holds : s.tables.Holds log)
    {answer : Except Fault (View E)} {r' : ValidationRunner E} {t : Store}
    (ran : events.run (r, s) = (answer, r', t)) :
    t.content = s.content ∧ r'.validator = r.validator ∧ r'.history.staged = r.history.staged ∧
      r'.Cached (if r.history.fetched.isNone then log.length else seen) log ∧
      (r.history.fetched = none ∨ r.history.fetched = r'.history.fetched) ∧
      ∀ view, answer = .ok view → r'.history.fetched = some view.recorded ∧
        view.staged = r.history.staged := by
  rw [run_events] at ran
  cases fetched : r.history.fetched with
  | some recorded =>
    simp only [fetched, Prod.mk.injEq] at ran
    obtain ⟨rfl, rfl, rfl⟩ := ran
    refine ⟨rfl, rfl, rfl, by simpa [fetched] using cached, .inr fetched.symm, fun view shown => ?_⟩
    obtain rfl := Except.ok.inj shown
    exact ⟨fetched, rfl⟩
  | none =>
    simp only [fetched] at ran
    have kept := Client.keeps_streams (E := E) r.validator.streams none s
    rcases read : (Client.streams E r.validator.streams none).run s with ⟨result, u⟩
    rw [read] at ran kept
    cases result with
    | error fault =>
      simp only [Prod.mk.injEq] at ran
      obtain ⟨rfl, rfl, rfl⟩ := ran
      refine ⟨kept, rfl, rfl, fun recorded given => ?_, .inl rfl, fun view shown => ?_⟩
      · rw [fetched] at given
        cases given
      · cases shown
    | ok recorded =>
      simp only [Prod.mk.injEq] at ran
      obtain ⟨rfl, rfl, rfl⟩ := ran
      obtain ⟨decoded, valid, prepared⟩ := Client.streams_eq_ok holds read
      refine ⟨kept, rfl, rfl, fun shown given => ?_, .inl rfl, fun view shown => ?_⟩
      · obtain rfl := Option.some.inj given
        exact ⟨Nat.le_refl _, decoded, valid, prepared⟩
      · obtain rfl := Except.ok.inj shown
        exact ⟨rfl, rfl⟩

/-- The guard of a loaded runner sees what was written since it loaded. -/
theorem Cached.newer_eq (cached : r.Cached seen log) (numbered : Consecutive noEvent log)
    {recorded : List (Recorded E)} (fetched : r.history.fetched = some recorded) (staged : List E) :
    newer r.validator.streams ((View.mk recorded staged).lastId?.getD noEvent) log =
      (log.drop seen).filter (StoredEvent.isOf r.validator.streams) := by
  obtain ⟨within, decoded, -⟩ := cached recorded fetched
  rw [View.lastId?, Client.lastId_readAll decoded, newer_last numbered within]

/-- A save fails and writes nothing, or it has seen all events of its streams and writes
what is staged after everything else. Then it answers what is read back of that. -/
theorem save_cases (cached : r.Cached seen log) (holds : s.tables.Holds log)
    (some_staged : r.history.staged ≠ []) {answer : Except Fault (List (Recorded E))}
    {r' : ValidationRunner E} {t : Store} (ran : save.run (r, s) = (answer, r', t)) :
    (∃ fault, answer = .error fault ∧ t.content = s.content) ∨
      ∃ recorded drafts,
        (r.history.fetched = none ∨ r.history.fetched = some recorded) ∧
        r'.history.fetched = some recorded ∧
        Client.readAll E (log.filter (StoredEvent.isOf r.validator.streams)) = .ok recorded ∧
        r.validator.accepts ⟨recorded, r.history.staged⟩ = .ok () ∧
        Client.encode r.history.staged = .ok drafts ∧
        answer = Client.readAll E (Draft.numbered s.now s.tables.lastId drafts) ∧
        t.tables.Holds (log ++ Draft.numbered s.now s.tables.lastId drafts) := by
  rw [run_save, if_neg some_staged] at ran
  rcases loading : events.run (r, s) with ⟨loads, r₁, s₁⟩
  obtain ⟨kept, sameRule, -, cached₁, stays, shows⟩ := events_spec cached holds loading
  rw [loading] at ran
  cases loads with
  | error fault =>
    simp only [Prod.mk.injEq] at ran
    obtain ⟨rfl, rfl, rfl⟩ := ran
    exact .inl ⟨fault, rfl, kept⟩
  | ok view =>
    obtain ⟨fetched, staged⟩ := shows view rfl
    have shown : view = ⟨view.recorded, r.history.staged⟩ := by rw [← staged]
    dsimp only at ran
    split at ran
    · simp only [Prod.mk.injEq] at ran
      obtain ⟨rfl, rfl, rfl⟩ := ran
      exact .inl ⟨_, rfl, kept⟩
    rename_i accepted
    simp only [Prod.mk.injEq] at ran
    obtain ⟨answered, rfl, rfl⟩ := ran
    obtain ⟨tables, -, now⟩ := Store.content_eq_iff.1 kept
    rcases Client.appendIfNoNewer_cases (tables ▸ holds) some_staged (Prod.ext answered rfl) with
      ⟨fault, failed, same⟩ | ⟨drafts, encoded, quiet, decoded, grown⟩
    · exact .inl ⟨fault, failed, same.trans kept⟩
    obtain ⟨within, decodedView, -⟩ := cached₁ view.recorded fetched
    -- The guard saw nothing after the last event of the view, so the view is complete.
    rw [← sameRule, shown, cached₁.newer_eq holds.numbered fetched] at quiet
    rw [stretch_complete holds.numbered within quiet, sameRule] at decodedView
    rw [now, tables] at decoded grown
    exact .inr ⟨view.recorded, drafts, stays.imp_right (·.trans fetched), fetched, decodedView,
      shown ▸ accepted, encoded, decoded, grown⟩

/-- A save leaves in the runner what loading does. -/
theorem save_runner (r : ValidationRunner E) (s : Store) :
    (save.run (r, s)).2.1 = if r.history.staged = [] then r else (events.run (r, s)).2.1 := by
  rw [run_save]
  split
  · rfl
  rcases events.run (r, s) with ⟨answer, after⟩
  cases answer with
  | error fault => rfl
  | ok view =>
    dsimp only
    split <;> rfl

/-! ## Calls -/

theorem steps_events (r : ValidationRunner E) (s : Store) :
    Store.Steps s (events.run (r, s)).2.2 := by
  have read := Client.steps_streams (E := E) r.validator.streams none s
  rw [run_events]
  split
  · exact .refl
  · rcases ran : (Client.streams E r.validator.streams none).run s with ⟨answer, t⟩
    rw [ran] at read
    cases answer <;> exact read

theorem steps_save (r : ValidationRunner E) (s : Store) :
    Store.Steps s (save.run (r, s)).2.2 := by
  have loads := steps_events r s
  rw [run_save]
  split
  · exact .refl
  rcases loading : events.run (r, s) with ⟨answer, r₁, s₁⟩
  rw [loading] at loads
  cases answer with
  | error fault => exact loads
  | ok view =>
    dsimp only
    split
    · exact loads
    · exact .trans loads (Client.steps_appendIfNoNewer ..)

/-- What a runner does to the store are calls of the store. -/
theorem steps_perform (c : Call E) (r : ValidationRunner E) (s : Store) :
    Store.Steps s (c.perform (r, s)).2 := by
  cases c with
  | stage event => exact .refl
  | forget => exact .refl
  | events => exact steps_events r s
  | refresh =>
    rw [Call.perform, run_refresh]
    exact steps_events r.forget s
  | validate =>
    rw [Call.perform, run_validate]
    exact steps_events r s
  | save => exact steps_save r s

theorem cached_forget (r : ValidationRunner E) (seen : Nat) (log : List StoredEvent) :
    r.forget.Cached seen log := by
  intro recorded fetched
  cases fetched

/-- A call keeps the rule of the runner and leaves in its cache what the log had
when it last read. -/
theorem cached_perform (c : Call E) (cached : r.Cached seen log) (holds : s.tables.Holds log) :
    (c.perform (r, s)).1.validator = r.validator ∧
      (c.perform (r, s)).1.Cached (if c.fetches r then log.length else seen) log := by
  have loading (r : ValidationRunner E) (cached : r.Cached seen log) :
      (events.run (r, s)).2.1.validator = r.validator ∧
        (events.run (r, s)).2.1.Cached (if r.history.fetched.isNone then log.length else seen)
          log := by
    obtain ⟨-, sameRule, -, after, -⟩ := events_spec cached holds rfl
    exact ⟨sameRule, after⟩
  cases c with
  | stage event => exact ⟨rfl, cached⟩
  | forget => exact ⟨rfl, cached_forget r _ log⟩
  | events => exact loading r cached
  | refresh =>
    rw [Call.perform, run_refresh]
    exact loading r.forget (cached_forget r seen log)
  | validate =>
    rw [Call.perform, run_validate]
    exact loading r cached
  | save =>
    rw [Call.perform, save_runner, Call.fetches]
    by_cases none : r.history.staged = []
    · simpa [none] using cached
    · simpa [none] using loading r cached

end ValidationRunner

open ValidationRunner (Call)

/-! ## Runners on a shared store -/

/-- A store with the runners that work on it. -/
structure Workshop (ι E : Type) where
  store : Store
  runner : ι → ValidationRunner E
  /-- How many events the log had when a runner last read its streams. -/
  seen : ι → Nat

namespace Workshop

variable {ι E : Type} [DomainEvent E]

/-- Runners that have read nothing, on a new store. -/
def start (now : Instant) (validator : ι → Validator E) : Workshop ι E :=
  ⟨Store.new now, fun i => .ofValidator (validator i), fun _ => 0⟩

/-- The event table holds a log, and what each runner has read is what its
streams had when it read. -/
structure Sound (w : Workshop ι E) (log : List StoredEvent) : Prop where
  holds : w.store.tables.Holds log
  service : w.store.InService
  cached : ∀ i, (w.runner i).Cached (w.seen i) log

theorem sound_start (now : Instant) (validator : ι → Validator E) :
    (start now validator).Sound [] := by
  refine ⟨Store.holds_new now, Store.inService_new now, fun i recorded fetched => ?_⟩
  cases fetched

section Steps

variable [DecidableEq ι]

def act (w : Workshop ι E) (i : ι) (c : Call E) : Workshop ι E where
  store := (c.perform (w.runner i, w.store)).2
  runner := Function.update w.runner i (c.perform (w.runner i, w.store)).1
  seen := if c.fetches (w.runner i) then Function.update w.seen i w.store.tables.events.length
    else w.seen

/-- A runner does something, or another client does something to the store. -/
inductive Step : Workshop ι E → Workshop ι E → Prop
  | elsewhere (w : Workshop ι E) {t : Store} (step : Store.Step w.store t) :
    Step w { w with store := t }
  | act (w : Workshop ι E) (i : ι) (c : Call E) : Step w (w.act i c)

/-- Any number of steps. -/
abbrev Steps : Workshop ι E → Workshop ι E → Prop := Relation.ReflTransGen Step

variable {w w' : Workshop ι E} {log : List StoredEvent}

theorem sound_act (sound : w.Sound log) (i : ι) (c : Call E) :
    ∃ more, (w.act i c).Sound (log ++ more) := by
  have run := ValidationRunner.steps_perform c (w.runner i) w.store
  obtain ⟨more, holds⟩ := run.extends sound.holds
  have length : w.store.tables.events.length = log.length := by simp [sound.holds.rows]
  refine ⟨more, holds, run.inService sound.service, fun j => ?_⟩
  have other : (w.runner j).Cached (w.seen j) (log ++ more) :=
    (sound.cached j).grow holds.numbered
  have own := ((ValidationRunner.cached_perform c (sound.cached i) sound.holds).2).grow
    holds.numbered
  unfold act
  dsimp only
  rw [length]
  -- The others have read what they had read.
  by_cases same : j = i
  · subst same
    split <;> simpa [*] using own
  · split <;> simpa [Function.update_of_ne same] using other

/-- A step adds events at the end of the log, and every runner's reading stays
what its streams had when it read. -/
theorem Step.sound (step : Step w w') (sound : w.Sound log) :
    ∃ more, w'.Sound (log ++ more) := by
  cases step with
  | elsewhere step =>
    obtain ⟨more, holds⟩ := step.extends sound.holds
    exact ⟨more, holds, step.inService sound.service, fun i =>
      (sound.cached i).grow holds.numbered⟩
  | act i c => exact sound_act sound i c

theorem Steps.sound {now : Instant} {validator : ι → Validator E}
    (run : Steps (start now validator) w) : w.Sound w.store.tables.log := by
  suffices ∃ log, w.Sound log by
    obtain ⟨log, sound⟩ := this
    rwa [sound.holds.log_eq]
  induction run with
  | refl => exact ⟨[], sound_start now validator⟩
  | tail _ step ih =>
    obtain ⟨log, sound⟩ := ih
    obtain ⟨more, grown⟩ := step.sound sound
    exact ⟨log ++ more, grown⟩

end Steps

/-! ## Saving -/

/-- What was written to the streams of a runner since it last read them. -/
def missed (w : Workshop ι E) (i : ι) : List StoredEvent :=
  (w.store.tables.log.drop (w.seen i)).filter (StoredEvent.isOf (w.runner i).validator.streams)

/-- The events of some streams in the log. -/
def matching (w : Workshop ι E) (specs : List Stream) : List StoredEvent :=
  w.store.tables.log.filter (StoredEvent.isOf specs)

/-- What a runner answers when it saves, and the store that it leaves. -/
def saving (w : Workshop ι E) (i : ι) : Except Fault (List (Recorded E)) × Store :=
  let outcome := ValidationRunner.save.run (w.runner i, w.store)
  (outcome.1, outcome.2.2)

section Saving

variable {w : Workshop ι E} {i : ι} {recorded : List (Recorded E)}

/-- A loaded runner whose save succeeds has seen all events of its streams. Its staged
events follow everything else in the log, in their order and as they are encoded. -/
theorem Sound.saving_ok (sound : w.Sound w.store.tables.log)
    (loaded : (w.runner i).history.fetched = some recorded)
    (some_staged : (w.runner i).history.staged ≠ [])
    (lasting : ∀ event ∈ (w.runner i).history.staged, Client.Lasting event)
    {saved : List (Recorded E)} (succeeded : (w.saving i).1 = .ok saved) :
    Client.readAll E (w.matching (w.runner i).validator.streams) = .ok recorded ∧
      saved.map Recorded.event = (w.runner i).history.staged ∧
      ∃ drafts rows, Client.encode (w.runner i).history.staged = .ok drafts ∧
        rows.map (fun row => (row.type, row.data)) =
          drafts.map (fun draft => (draft.type, draft.data)) ∧
        Client.readAll E rows = .ok saved ∧
        (w.saving i).2.tables.log = w.store.tables.log ++ rows := by
  rcases ValidationRunner.save_cases (sound.cached i) sound.holds some_staged rfl with
    ⟨fault, failed, -⟩ | ⟨given, drafts, same, -, decoded, -, encoded, answered, grown⟩
  · exact absurd (succeeded.symm.trans failed) (by simp)
  obtain ⟨drafts', encoded', -, -, back⟩ := Client.encode_of_lasting lasting
  rw [loaded] at same
  obtain rfl : given = recorded := by simpa [eq_comm] using same
  obtain rfl : drafts' = drafts := by simpa [encoded'] using encoded
  have read := answered.symm.trans succeeded
  exact ⟨decoded, back _ _ _ read, drafts', _, encoded, Draft.map_numbered Prod.mk .., read,
    grown.log_eq⟩

/-- A loaded runner's guard can be prepared when it is within the limits, since
its streams could be read. -/
theorem Sound.canGuard (sound : w.Sound w.store.tables.log)
    (loaded : (w.runner i).history.fetched = some recorded) {drafts : List Draft}
    (fits : Statement.guardFits drafts.length (.ofStreams (w.runner i).validator.streams))
    (floor : EventId) :
    Statement.canGuard drafts floor (.ofStreams (w.runner i).validator.streams) := by
  obtain ⟨-, -, -, prepared⟩ := sound.cached i recorded loaded
  exact (Statement.canGuard_iff _ _ _).2 ⟨Selection.not_spellsNul_of_canSelect prepared, fits⟩

/-- The save of a loaded runner whose rule accepts is a guarded append. -/
theorem saving_eq (loaded : (w.runner i).history.fetched = some recorded)
    (some_staged : (w.runner i).history.staged ≠ [])
    (accepted : (w.runner i).validator.accepts ⟨recorded, (w.runner i).history.staged⟩ = .ok ()) :
    w.saving i = (Client.appendIfNoNewer (w.runner i).history.staged
      ((View.mk recorded (w.runner i).history.staged).lastId?.getD noEvent)
      (w.runner i).validator.streams).run w.store := by
  unfold saving
  rw [ValidationRunner.run_save, if_neg some_staged, ValidationRunner.run_events]
  simp only [loaded, accepted]

/-- The save of lasting events by a loaded runner whose rule accepts succeeds
when nothing was missed, and otherwise conflicts. -/
theorem Sound.saving_cases (sound : w.Sound w.store.tables.log)
    (loaded : (w.runner i).history.fetched = some recorded)
    (some_staged : (w.runner i).history.staged ≠ [])
    (lasting : ∀ event ∈ (w.runner i).history.staged, Client.Lasting event)
    (accepted : (w.runner i).validator.accepts ⟨recorded, (w.runner i).history.staged⟩ = .ok ())
    (fits : Statement.guardFits (w.runner i).history.staged.length
      (.ofStreams (w.runner i).validator.streams)) :
    (w.missed i = [] → ∃ saved, (w.saving i).1 = .ok saved) ∧
      (w.missed i ≠ [] → (w.saving i).1 = .error (.newerEvents
        ((View.mk recorded (w.runner i).history.staged).lastId?.getD noEvent))) := by
  obtain ⟨-, -, valid, -⟩ := sound.cached i recorded loaded
  obtain ⟨drafts, encoded, legible, fit, -⟩ := Client.encode_of_lasting lasting
  rw [← Client.length_encode encoded] at fits
  have prepared (floor : EventId) := sound.canGuard loaded fits floor
  have sees := (sound.cached i).newer_eq sound.holds.numbered loaded (w.runner i).history.staged
  rw [saving_eq loaded some_staged accepted]
  constructor
  · intro quiet
    exact Client.appendIfNoNewer_of_quiet sound.holds sound.service valid encoded legible
      fit (prepared _) (sees.trans quiet)
  · intro late
    refine Client.appendIfNoNewer_of_newer sound.holds sound.service valid encoded
      (Client.some_drafts encoded some_staged) (prepared _) ?_
    rwa [sees]

/-- A save of a runner that has missed something writes nothing. -/
theorem Sound.saving_of_missed (sound : w.Sound w.store.tables.log)
    (loaded : (w.runner i).history.fetched = some recorded)
    (some_staged : (w.runner i).history.staged ≠ [])
    (accepted : (w.runner i).validator.accepts ⟨recorded, (w.runner i).history.staged⟩ = .ok ())
    (late : w.missed i ≠ []) : (w.saving i).2.tables = w.store.tables := by
  rw [saving_eq loaded some_staged accepted]
  rcases Client.appendIfNoNewer_cases sound.holds some_staged rfl with
    ⟨fault, -, kept⟩ | ⟨drafts, -, quiet, -⟩
  · exact congrArg Prod.fst kept
  · rw [(sound.cached i).newer_eq sound.holds.numbered loaded] at quiet
    exact absurd quiet late

end Saving

/-! ## Streams under one rule -/

section Rules

variable [DecidableEq ι]

/-- Every event of the rule's streams is written by a save under the rule, and
what is saved belongs to the streams. -/
inductive GuidedStep (rule : Validator E) : Workshop ι E → Workshop ι E → Prop
  | other {w w' : Workshop ι E} (step : Step w w')
    (same : w'.matching rule.streams = w.matching rule.streams) : GuidedStep rule w w'
  | save (w : Workshop ι E) (i : ι) (guided : (w.runner i).validator = rule)
    (lasting : ∀ event ∈ (w.runner i).history.staged,
      Client.Lasting event ∧ Client.BelongsTo rule.streams event) :
    GuidedStep rule w (w.act i .save)

variable {rule : Validator E} {w w' : Workshop ι E}

theorem GuidedStep.step (guided : GuidedStep rule w w') : Step w w' := by
  cases guided with
  | other step => exact step
  | save i => exact .act w i .save

/-- The streams hold what the rule accepts. -/
def Obeys (w : Workshop ι E) (rule : Validator E) : Prop :=
  ∃ recorded, Client.readAll E (w.matching rule.streams) = .ok recorded ∧
    rule.accepts ⟨recorded, []⟩ = .ok ()

/-- A save under a rule that depends on the events only keeps to the rule. -/
theorem Sound.obeys_save (sound : w.Sound w.store.tables.log)
    (pooled : ∀ v v' : View E, v.events = v'.events → rule.accepts v = .ok () →
      rule.accepts v' = .ok ())
    {i : ι} (guided : (w.runner i).validator = rule)
    (lasting : ∀ event ∈ (w.runner i).history.staged,
      Client.Lasting event ∧ Client.BelongsTo rule.streams event)
    (obeys : w.Obeys rule) : (w.act i .save).Obeys rule := by
  -- A save writes all that is staged to the streams of the rule, or nothing.
  have unchanged (tables : (w.saving i).2.tables = w.store.tables) :
      (w.act i .save).Obeys rule := by
    have same : (w.act i .save).matching rule.streams = w.matching rule.streams := by
      show List.filter _ (w.saving i).2.tables.log = _
      rw [tables]
      rfl
    rwa [Obeys, same]
  by_cases none : (w.runner i).history.staged = []
  · refine unchanged ?_
    rw [saving, ValidationRunner.run_save, if_pos none]
  rcases ValidationRunner.save_cases (sound.cached i) sound.holds none rfl with
    ⟨fault, -, kept⟩ | ⟨recorded, drafts, -, -, decoded, accepted, encoded, -, grown⟩
  · exact unchanged (congrArg Prod.fst kept)
  · obtain ⟨drafts', encoded', -, fit, back⟩ :=
      Client.encode_of_lasting fun event staged => (lasting event staged).1
    obtain rfl : drafts' = drafts := by simpa [encoded'] using encoded
    obtain ⟨saved, decodedSaved⟩ := Client.readAll_numbered fit w.store.now w.store.tables.lastId
    rw [guided] at decoded accepted
    have all : ∀ event ∈ Draft.numbered w.store.now w.store.tables.lastId drafts',
        event.isOf rule.streams := fun event written => by
      obtain ⟨draft, inDrafts, type, data⟩ := Draft.mem_numbered written
      rw [StoredEvent.isOf, type, data]
      exact Client.belongs_of_split (Client.encode_eq_ok.1 encoded).1
        (fun e staged => (lasting e staged).2) draft inDrafts
    have added : (w.act i .save).matching rule.streams = w.matching rule.streams ++
        Draft.numbered w.store.now w.store.tables.lastId drafts' := by
      have log : (w.act i .save).store.tables.log = _ := grown.log_eq
      rw [matching, log, List.filter_append, List.filter_eq_self.2 all]
      rfl
    refine ⟨recorded ++ saved, ?_, pooled _ _ ?_ accepted⟩
    · rw [added]
      exact Client.readAll_append.2 ⟨recorded, saved, decoded, decodedSaved, rfl⟩
    · simp [View.events, back _ _ _ decodedSaved]

theorem obeys_of_guided
    (pooled : ∀ v v' : View E, v.events = v'.events → rule.accepts v = .ok () →
      rule.accepts v' = .ok ())
    (accepts_nothing : rule.accepts ⟨[], []⟩ = .ok ()) {now : Instant}
    {validator : ι → Validator E}
    (run : Relation.ReflTransGen (GuidedStep rule) (start now validator) w) : w.Obeys rule := by
  induction run with
  | refl =>
    refine ⟨[], ?_, accepts_nothing⟩
    rw [matching, (sound_start now validator).holds.log_eq]
    rfl
  | tail run step ih =>
    cases step with
    | other step same => rwa [Obeys, same]
    | save i guided lasting =>
      have steps : Steps (start now validator) _ := run.lift id fun _ _ => GuidedStep.step
      exact steps.sound.obeys_save pooled guided lasting ih

/-- A save that has to load is a load, and then a save of what was loaded. -/
theorem saving_act_events {i : ι} {view : View E}
    (loaded : (ValidationRunner.events.run (w.runner i, w.store)).1 = .ok view)
    (sound : w.Sound w.store.tables.log) (some_staged : (w.runner i).history.staged ≠ []) :
    w.saving i = (w.act i .events).saving i ∧
      (w.act i .events).runner i =
        ⟨(w.runner i).validator, some view.recorded, (w.runner i).history.staged⟩ := by
  have ran : ValidationRunner.events.run (w.runner i, w.store) =
      (.ok view, (ValidationRunner.events.run (w.runner i, w.store)).2) := Prod.ext loaded rfl
  have split := ValidationRunner.save_eq_events_save ran
  obtain ⟨-, sameRule, sameStaged⟩ := ValidationRunner.events_again ran
  obtain ⟨-, -, -, -, -, shows⟩ := ValidationRunner.events_spec (sound.cached i) sound.holds ran
  obtain ⟨fetched, -⟩ := shows view rfl
  rw [if_neg some_staged] at split
  have own : (w.act i .events).runner i =
      (ValidationRunner.events.run (w.runner i, w.store)).2.1 := by
    simp [act, Call.perform]
  refine ⟨?_, ?_⟩
  · unfold saving
    rw [split, own]
    rfl
  · rw [own, ← sameRule, ← sameStaged, ← fetched]

/-- Any number of runners on a store that was new, with anything that other
clients do in between.

A runner that has loaded its streams, whose rule accepts what it has and stages,
and whose staged events can be written and read back, saves with success just
when nothing was written to its streams since it read them, provided that the
guarded statement is within the limits of the database. Then it had all events
of its streams, and the log gains the staged events in their order. Otherwise
it conflicts and the log stays. A runner that has loaded nothing loads first.

When a rule depends on the events only and accepts none at all, and every event
of its streams is saved under it, the streams hold what it accepts. -/
theorem validation_is_serial {now : Instant} {validator : ι → Validator E}
    (run : Steps (start now validator) w) :
    (∀ i recorded, (w.runner i).history.fetched = some recorded →
      (w.runner i).history.staged ≠ [] →
      (∀ event ∈ (w.runner i).history.staged, Client.Lasting event) →
      (w.runner i).validator.accepts ⟨recorded, (w.runner i).history.staged⟩ = .ok () →
      Statement.guardFits (w.runner i).history.staged.length
        (.ofStreams (w.runner i).validator.streams) →
      ((∃ saved, (w.saving i).1 = .ok saved) ↔ w.missed i = []) ∧
      (∀ saved, (w.saving i).1 = .ok saved →
        Client.readAll E (w.matching (w.runner i).validator.streams) = .ok recorded ∧
        saved.map Recorded.event = (w.runner i).history.staged ∧
        ∃ drafts rows, Client.encode (w.runner i).history.staged = .ok drafts ∧
          rows.map (fun row => (row.type, row.data)) =
            drafts.map (fun draft => (draft.type, draft.data)) ∧
          Client.readAll E rows = .ok saved ∧
          (w.saving i).2.tables.log = w.store.tables.log ++ rows) ∧
      (w.missed i ≠ [] →
        (w.saving i).1 = .error (.newerEvents
          ((View.mk recorded (w.runner i).history.staged).lastId?.getD noEvent)) ∧
        (w.saving i).2.tables = w.store.tables)) ∧
    (∀ i view, (ValidationRunner.events.run (w.runner i, w.store)).1 = .ok view →
      (w.runner i).history.staged ≠ [] →
      w.saving i = (w.act i .events).saving i ∧
      (w.act i .events).runner i =
        ⟨(w.runner i).validator, some view.recorded, (w.runner i).history.staged⟩) ∧
    ∀ rule : Validator E,
      (∀ v v' : View E, v.events = v'.events → rule.accepts v = .ok () →
        rule.accepts v' = .ok ()) →
      rule.accepts ⟨[], []⟩ = .ok () →
      Relation.ReflTransGen (GuidedStep rule) (start now validator) w → w.Obeys rule := by
  have sound := run.sound
  refine ⟨?_, fun i view loaded => saving_act_events loaded sound,
    fun rule pooled accepts_nothing => obeys_of_guided pooled accepts_nothing⟩
  intro i recorded loaded some_staged lasting accepted fits
  obtain ⟨quiet, late⟩ := sound.saving_cases loaded some_staged lasting accepted fits
  refine ⟨⟨?_, quiet⟩, fun saved => sound.saving_ok loaded some_staged lasting, fun newer => ?_⟩
  · rintro ⟨saved, succeeded⟩
    by_contra newer
    rw [late newer] at succeeded
    cases succeeded
  · exact ⟨late newer, sound.saving_of_missed loaded some_staged accepted newer⟩

end Rules

/-! ## One runner, one event -/

/-- A rule that accepts everything on some streams. -/
def lenient (specs : List Stream) : Validator Draft := ⟨specs, fun _ => .ok ()⟩

/-- A runner that has staged an event. -/
def oneStaged (specs : List Stream) : Workshop Unit Draft :=
  (start default fun _ => lenient specs).act () (.stage ⟨"T", .null⟩)

/-- It loads its streams. -/
def oneLoaded (specs : List Stream) : Workshop Unit Draft := (oneStaged specs).act () .events

section One

variable {specs : List Stream}

theorem steps_oneStaged (specs : List Stream) :
    Steps (start default fun _ => lenient specs) (oneStaged specs) :=
  .single (.act _ _ _)

theorem steps_oneLoaded (specs : List Stream) :
    Steps (start default fun _ => lenient specs) (oneLoaded specs) :=
  (steps_oneStaged specs).tail (.act _ _ _)

theorem runner_oneLoaded (valid : ∀ spec ∈ specs, spec.Valid)
    (prepared : specs ≠ [] → Statement.canSelect (.ofStreams specs) none) :
    (oneLoaded specs).runner () = ⟨lenient specs, some [], [⟨"T", .null⟩]⟩ := by
  have read := Client.run_streams_of_holds (E := Draft) (Store.holds_new default) rfl valid prepared
  have loaded : (ValidationRunner.events.run
      ((oneStaged specs).runner (), (oneStaged specs).store)).1 = .ok ⟨[], [⟨"T", .null⟩]⟩ := by
    show (ValidationRunner.events.run
      (⟨lenient specs, none, [⟨"T", .null⟩]⟩, Store.new default)).1 = _
    rw [ValidationRunner.run_events]
    dsimp only [lenient]
    rcases ran : (Client.streams Draft specs none).run (Store.new default) with ⟨answer, t⟩
    rw [ran] at read
    subst read
    rfl
  exact (saving_act_events loaded (steps_oneStaged specs).sound (List.cons_ne_nil _ _)).2

theorem log_oneLoaded (specs : List Stream) : (oneLoaded specs).store.tables.log = [] := by
  have kept := (ValidationRunner.events_spec ((steps_oneStaged specs).sound.cached ())
    (steps_oneStaged specs).sound.holds rfl).1
  have tables : (oneLoaded specs).store.tables = (Store.new default).tables :=
    congrArg Prod.fst kept
  rw [tables]
  rfl

theorem lasting_plain : Client.Lasting (E := Draft) ⟨"T", .null⟩ :=
  ⟨⟨"T", .null⟩, rfl, by decide, ⟨_, rfl⟩, rfl⟩

end One

/-- The save succeeds, and the streams hold what the rule accepts. -/
theorem validation_is_serial_one :
    (∃ saved, ((oneLoaded [plainStream]).saving ()).1 = .ok saved) ∧
      ((oneLoaded [plainStream]).act () .save).Obeys (lenient [plainStream]) := by
  have runner := runner_oneLoaded plainStream_valid fun _ => canSelect_plainStream none
  have lasting : ∀ event ∈ ((oneLoaded [plainStream]).runner ()).history.staged,
      Client.Lasting event ∧ Client.BelongsTo [plainStream] event := by
    rw [runner]
    intro event staged
    obtain rfl := List.mem_singleton.1 staged
    refine ⟨lasting_plain, fun draft split => ?_⟩
    obtain rfl := Except.ok.inj split
    simp [has_plainStream]
  have run := steps_oneLoaded [plainStream]
  have quiet : (oneLoaded [plainStream]).missed () = [] := by
    rw [missed, log_oneLoaded]
    rfl
  refine ⟨?_, ?_⟩
  · refine ((validation_is_serial run).1 () [] (by rw [runner]) (by simp [runner])
      (fun event staged => (lasting event staged).1) (by rw [runner]; rfl) ?_).1.2 quiet
    rw [runner]
    decide
  · have same : (oneLoaded [plainStream]).matching [plainStream] = [] := by
      rw [matching, log_oneLoaded]
      rfl
    have loads : GuidedStep (lenient [plainStream]) (oneStaged [plainStream])
        (oneLoaded [plainStream]) := .other (.act _ _ _) same
    have saves : GuidedStep (lenient [plainStream]) (oneLoaded [plainStream])
        ((oneLoaded [plainStream]).act () .save) := .save _ () (by rw [runner]) lasting
    have guided : Relation.ReflTransGen (GuidedStep (lenient [plainStream]))
        (start default fun _ => lenient [plainStream]) ((oneLoaded [plainStream]).act () .save) :=
      ((Relation.ReflTransGen.single (.other (.act _ _ _) rfl)).tail loads).tail saves
    exact (validation_is_serial (run.tail (.act _ () .save))).2.2 _ (fun _ _ _ => id) rfl guided

/-- Streams that can be read but not guarded: nothing was written to them, and
still the save fails. -/
theorem wide_save_fails :
    Steps (start default fun _ => lenient [wideStream]) (oneLoaded [wideStream]) ∧
      (oneLoaded [wideStream]).runner () = ⟨lenient [wideStream], some [], [⟨"T", .null⟩]⟩ ∧
      Client.Lasting (E := Draft) ⟨"T", .null⟩ ∧ (oneLoaded [wideStream]).missed () = [] ∧
      ((oneLoaded [wideStream]).saving ()).1 =
        .error (.storage "statement cannot be prepared") := by
  have runner := runner_oneLoaded wideStream_valid fun _ => (canSelect_wideStream none).2 rfl
  have service := (steps_oneLoaded [wideStream]).sound.service
  refine ⟨steps_oneLoaded _, runner, lasting_plain, ?_, ?_⟩
  · rw [missed, log_oneLoaded]
    rfl
  · have encoded : Client.encode (E := Draft) [⟨"T", .null⟩] = .ok [⟨"T", .null⟩] := rfl
    have ran : (Client.appendIfNoNewer [Draft.mk "T" .null] noEvent [wideStream]).run
        (oneLoaded [wideStream]).store = (.error (.storage "statement cannot be prepared"), _) :=
      Client.appendIfNoNewer_of_refused service wideStream_valid encoded (List.cons_ne_nil _ _)
        (not_canGuard_wideStream _ _)
    rw [saving_eq (by rw [runner]) (by simp [runner]) (by rw [runner]; rfl), runner]
    exact congrArg Prod.fst ran

end Workshop

end Chronicle
