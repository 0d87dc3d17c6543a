import Chronicle.Proofs.Runner.Folds

/-!
# Projection runners in step with a log

A runner is in step with a log when its snapshot is a state that is folded to an
event, and the events that it has are what came after that event, up to some
point (`ProjectionRunner.Synced`). What it would save is then folded to an event
too, however old it is by now (`Synced.folded`), and every operation, whether it
succeeds or fails, keeps the runner in step and the row stored well
(`perform_spec`).

An operation that makes several calls is the same as these calls one by one, with
anything in between (`events_existing`, `run_state`, `save_events`).
-/

namespace Chronicle

variable {E T : Type}

/-! ## What a runner has read -/

namespace ProjectionRunner

/-- The event after which a runner with this snapshot reads. -/
def floor (snapshot : Option (Snapshot T)) : Option EventId :=
  (snapshot.map Snapshot.lastEvent).filter (noEvent < ·)

/-- The state of a runner that has this snapshot and these events. -/
def fold (P : Projection E T) (snapshot : Option (Snapshot T)) (recorded : List (Recorded E)) : T :=
  P.foldAll ((snapshot.map Snapshot.data).getD P.initial) recorded

/-- The event that it would be saved under. -/
def anchor? (snapshot : Option (Snapshot T)) (recorded : List (Recorded E)) : Option EventId :=
  (recorded.getLast?.map Recorded.id).or (floor snapshot)

variable [DomainEvent E]

/-- The snapshot of the runner is a state that is folded to an event, and the
events that it has are those after that event, up to some point. -/
structure Synced (r : ProjectionRunner E T) (P : Projection E T) (log : List StoredEvent) :
    Prop where
  projection : r.projection = P
  snapshot : ∀ snapshot, r.snapshot = some (some snapshot) →
    P.FoldedTo log snapshot.lastEvent snapshot.data
  history : ∀ recorded, r.history.fetched = some recorded →
    ∃ snapshot, ∃ n : Nat, r.snapshot = some snapshot ∧ n ≤ log.length ∧ P.Readable ∧
      (floor snapshot).getD noEvent ≤ n ∧
      Client.readAll E (stretch P.streams ((floor snapshot).getD noEvent) n log) = .ok recorded

variable {r : ProjectionRunner E T} {P : Projection E T} {log more : List StoredEvent}

theorem floor_eq {snapshot : Snapshot T}
    (folded : P.FoldedTo log snapshot.lastEvent snapshot.data)
    (numbered : Consecutive noEvent log) : floor (some snapshot) = some snapshot.lastEvent := by
  have above := (folded.bounds numbered).1
  simp [floor, above]

theorem synced_ofProjection (P : Projection E T) (options : RunnerOptions)
    (log : List StoredEvent) : (ofProjection P options).Synced P log :=
  ⟨rfl, (fun _ given => by cases given), fun _ given => by cases given⟩

namespace Synced

theorem grow (synced : r.Synced P log) (numbered : Consecutive noEvent (log ++ more)) :
    r.Synced P (log ++ more) := by
  refine ⟨synced.projection, fun snapshot cached => (synced.snapshot snapshot cached).grow numbered,
    fun recorded fetched => ?_⟩
  obtain ⟨snapshot, n, cached, within, readable, reaches, decoded⟩ :=
    synced.history recorded fetched
  refine ⟨snapshot, n, cached, ?_, readable, reaches, ?_⟩
  · rw [List.length_append]
    exact Nat.le_add_right_of_le within
  · rwa [stretch_grow numbered (Int.ofNat_le.2 within)]

theorem forget (synced : r.Synced P log) : r.forget.Synced P log :=
  ⟨synced.projection, (fun _ given => by cases given), fun _ given => by cases given⟩

theorem stage (synced : r.Synced P log) (event : E) : (r.stage event).Synced P log :=
  ⟨synced.projection, synced.snapshot, synced.history⟩

/-- What a loaded runner would save is folded to the event that it would save it
under. -/
theorem folded (synced : r.Synced P log) (numbered : Consecutive noEvent log)
    {recorded : List (Recorded E)} (fetched : r.history.fetched = some recorded) :
    ∃ snapshot, r.snapshot = some snapshot ∧
      ∀ event, anchor? snapshot recorded = some event →
        P.FoldedTo log event (fold P snapshot recorded) := by
  obtain ⟨snapshot, n, cached, within, readable, reaches, decoded⟩ :=
    synced.history recorded fetched
  refine ⟨snapshot, cached, fun event anchored => ?_⟩
  unfold anchor? at anchored
  -- The events are folded from the start, or on top of what the snapshot folds.
  cases snapshot with
  | none =>
    have ends : recorded.getLast?.map Recorded.id = some event := by simpa [floor] using anchored
    exact .of_read readable numbered decoded ends
  | some snapshot =>
    have folded := synced.snapshot snapshot cached
    rw [floor_eq folded numbered] at anchored reaches decoded
    have extended := folded.extend numbered reaches decoded
    rw [Option.or_some] at anchored
    rwa [Option.some.inj anchored] at extended

end Synced

end ProjectionRunner

/-! ## Operations one call at a time -/

variable [ProjectedState T]

namespace Client

theorem run_getProjection (type id : String) (s : Store) :
    (getProjection T type id).run s =
      match (Store.getProjection type id).run s with
      | (.ok none, t) => (.ok none, t)
      | (.ok (some row), t) => ((Snapshot.decode row).map some, t)
      | (.error fault, t) => (.error fault, t) := by
  unfold getProjection
  simp only [Action.run_bind, ProjectionStore.get]
  rcases (Store.getProjection type id).run s with ⟨answer, t⟩
  cases answer with
  | error fault => rfl
  | ok found =>
    cases found with
    | none => rfl
    | some row =>
      simp only [Action.run_bind, Action.run_ofExcept]
      cases (Snapshot.decode row : Except Fault (Snapshot T)) <;> rfl

theorem run_saveProjection (type id : String) (state : T) (event : EventId) (s : Store) :
    (saveProjection type id state event).run s =
      match ProjectedState.encode state with
      | .error fault => (.error fault, s)
      | .ok data => (Store.saveProjection type id data event).run s := by
  unfold saveProjection
  rw [Action.run_bind, Action.run_ofExcept]
  cases ProjectedState.encode state <;> rfl

end Client

namespace Projection

variable (P : Projection E T)

/-- Save a state under an event, if there is one. -/
def keep (state : T) (event? : Option EventId) : Action Store EventId :=
  match event? with
  | none => throw .noEventsToSave
  | some event => do
    Action.ofExcept (P.check state)
    Client.saveProjection P.type P.id state event
    return event

theorem run_keep (state : T) (event? : Option EventId) (s : Store) :
    (P.keep state event?).run s =
      match event? with
      | none => (.error .noEventsToSave, s)
      | some event =>
        match P.check state, ProjectedState.encode state with
        | .error fault, _ => (.error fault, s)
        | .ok (), .error fault => (.error fault, s)
        | .ok (), .ok data =>
          if s.poisoned then (.error (.lock "connection mutex poisoned"), s)
          else if (Payload.value data).isStorable then
            (.ok event,
              { s with
                tables := s.tables.upsert s.now P.type P.id data event
                metrics := s.metrics.add .projectionsSaved 1 })
          else (.error (.storage "payload is not valid JSON"), s) := by
  unfold keep
  cases event? with
  | none => rfl
  | some event =>
    simp only [Action.run_bind, Action.run_ofExcept, Client.run_saveProjection,
      Store.run_saveProjection]
    cases P.check state with
    | error fault => rfl
    | ok =>
      cases ProjectedState.encode state with
      | error fault => rfl
      | ok data =>
        by_cases poisoned : s.poisoned <;>
          by_cases storable : (Payload.value data).isStorable <;> simp [poisoned, storable]

/-- Saving writes the state under the event, or nothing. -/
theorem tables_keep (state : T) (event? : Option EventId) (s : Store) :
    ((P.keep state event?).run s).2.tables = s.tables ∨
      ∃ event data, event? = some event ∧ ProjectedState.encode state = .ok data ∧
        ((P.keep state event?).run s).2.tables = s.tables.upsert s.now P.type P.id data event := by
  rw [run_keep]
  cases event? with
  | none => exact .inl rfl
  | some event =>
    dsimp only
    split
    · exact .inl rfl
    · exact .inl rfl
    rename_i data _ encoded
    split
    · exact .inl rfl
    split
    · exact .inr ⟨event, data, rfl, encoded, rfl⟩
    · exact .inl rfl

/-- Saving depends only on the content of the store, and so does what it leaves
of it. -/
theorem keep_congr (state : T) (event? : Option EventId) {s t : Store}
    (same : s.content = t.content) :
    ((P.keep state event?).run s).1 = ((P.keep state event?).run t).1 ∧
      ((P.keep state event?).run s).2.content = ((P.keep state event?).run t).2.content := by
  obtain ⟨tables, poisoned, now⟩ := Store.content_eq_iff.1 same
  rw [run_keep, run_keep, poisoned]
  cases event? with
  | none => exact ⟨rfl, same⟩
  | some event =>
    dsimp only
    split
    · exact ⟨rfl, same⟩
    · exact ⟨rfl, same⟩
    split
    · exact ⟨rfl, same⟩
    split
    · simp [Store.content, tables, now]
    · exact ⟨rfl, same⟩

end Projection

namespace ProjectionRunner

variable {r r' : ProjectionRunner E T} {s t : Store}

theorem run_refresh (r : ProjectionRunner E T) (s : Store) :
    (refresh.run (r, s)).2 = (existing.run (r.forget, s)).2 := by
  unfold refresh
  simp only [Action.run_bind, Action.run_modify]
  rcases existing.run (r.forget, s) with ⟨answer, after⟩
  cases answer <;> rfl

theorem existing_eq_ok {snapshot : Option (Snapshot T)}
    (answered : existing.run (r, s) = (.ok snapshot, r', t)) :
    r' = { r with snapshot := some snapshot } := by
  rw [run_existing] at answered
  cases cached : r.snapshot with
  | some given =>
    simp only [cached, Prod.mk.injEq, Except.ok.injEq] at answered
    obtain ⟨rfl, rfl, -⟩ := answered
    rw [← cached]
  | none =>
    simp only [cached] at answered
    split at answered
    · split at answered
      · simp only [Prod.mk.injEq, Except.ok.injEq] at answered
        obtain ⟨rfl, rfl, -⟩ := answered
        rfl
      · simp at answered
    · simp only [Prod.mk.injEq, Except.ok.injEq] at answered
      obtain ⟨rfl, rfl, -⟩ := answered
      rfl

theorem existing_eq_error {fault : Fault}
    (failed : existing.run (r, s) = (.error fault, r', t)) : r' = r := by
  rw [run_existing] at failed
  split at failed
  · simp at failed
  split at failed
  · split at failed
    · simp at failed
    · simp only [Prod.mk.injEq] at failed
      exact failed.2.1.symm
  · simp at failed

theorem run_existing_cached {snapshot : Option (Snapshot T)} (cached : r.snapshot = some snapshot)
    (s : Store) : existing.run (r, s) = (.ok snapshot, r, s) := by
  rw [run_existing, cached]

theorem existing_resumed {P : Projection E T} {snapshot : Option (Snapshot T)}
    (found : (Client.getProjection T P.type P.id).run s = (.ok snapshot, s)) :
    existing.run (ofProjection P ⟨true⟩, s) =
      (.ok snapshot, ⟨P, ⟨true⟩, some snapshot, .empty⟩, s) := by
  simp only [run_existing, ofProjection, if_true, found]

theorem existing_full (P : Projection E T) (s : Store) :
    existing.run (ofProjection P ⟨false⟩, s) = (.ok none, ⟨P, ⟨false⟩, some none, .empty⟩, s) := by
  simp [run_existing, ofProjection]

/-- What was read stays. -/
theorem existing_again {snapshot : Option (Snapshot T)} {after : ProjectionRunner E T × Store}
    (answered : existing.run (r, s) = (.ok snapshot, after)) :
    existing.run after = (.ok snapshot, after) := by
  have stays := existing_eq_ok answered
  exact run_existing_cached (by rw [stays]) after.2

variable [DomainEvent E]

/-- A load of events that has to load the snapshot loads it first. -/
theorem events_existing {snapshot : Option (Snapshot T)} {after : ProjectionRunner E T × Store}
    (answered : existing.run (r, s) = (.ok snapshot, after))
    (unread : r.history.fetched = none) : events.run (r, s) = events.run after := by
  have stays := existing_eq_ok answered
  have unreadAfter : after.1.history.fetched = none := by rw [stays, unread]
  rw [run_events, run_events after.1 after.2, unread, unreadAfter, run_resumeAfter,
    run_resumeAfter after.1 after.2, answered, existing_again answered]

theorem run_events_fetched {recorded : List (Recorded E)}
    (fetched : r.history.fetched = some recorded) (s : Store) :
    events.run (r, s) = (.ok ⟨recorded, r.history.staged⟩, r, s) := by
  rw [run_events, fetched]

/-- A runner that has its snapshot reads the events after it. -/
theorem run_events_cached {snapshot : Option (Snapshot T)} (cached : r.snapshot = some snapshot)
    (unread : r.history.fetched = none) (s : Store) :
    events.run (r, s) =
      match (Client.streams E r.projection.streams (floor snapshot)).run s with
      | (.ok recorded, t) =>
        (.ok ⟨recorded, r.history.staged⟩, { r with history := r.history.fill recorded }, t)
      | (.error fault, t) => (.error fault, r, t) := by
  rw [run_events, unread, run_resumeAfter, run_existing_cached cached]
  simp only [Except.map, floor]
  rcases (Client.streams E r.projection.streams
    ((snapshot.map Snapshot.lastEvent).filter (noEvent < ·))).run s with ⟨answer, t⟩
  cases answer <;> rfl

/-- What was loaded stays loaded. -/
theorem events_eq_ok {view : View E} (answered : events.run (r, s) = (.ok view, r', t)) :
    r'.projection = r.projection ∧ r'.history = ⟨some view.recorded, r.history.staged⟩ ∧
      view.staged = r.history.staged := by
  cases fetched : r.history.fetched with
  | some recorded =>
    rw [run_events_fetched fetched] at answered
    simp only [Prod.mk.injEq, Except.ok.injEq] at answered
    obtain ⟨rfl, rfl, -⟩ := answered
    exact ⟨rfl, by rw [← fetched], rfl⟩
  | none =>
    rcases loading : existing.run (r, s) with ⟨answer, r₁, s₁⟩
    cases answer with
    | error fault => simp [run_events, fetched, run_resumeAfter, loading, Except.map] at answered
    | ok snapshot =>
      have stays := existing_eq_ok loading
      rw [events_existing loading fetched,
        run_events_cached (by rw [stays]) (by rw [stays, fetched])] at answered
      subst stays
      split at answered
      · simp only [Prod.mk.injEq, Except.ok.injEq] at answered
        obtain ⟨rfl, rfl, -⟩ := answered
        exact ⟨rfl, rfl, rfl⟩
      · simp at answered

theorem events_again {view : View E} {after : ProjectionRunner E T × Store}
    (answered : events.run (r, s) = (.ok view, after)) :
    events.run after = (.ok view, after) := by
  obtain ⟨-, history, staged⟩ := events_eq_ok answered
  rw [run_events_fetched (r := after.1) (by rw [history]), history, ← staged]

/-- A save that has to load is a load first. -/
theorem save_events {view : View E} {after : ProjectionRunner E T × Store}
    (answered : events.run (r, s) = (.ok view, after)) (unstaged : r.history.staged = []) :
    save.run (r, s) = save.run after := by
  obtain ⟨sameRule, history, -⟩ := events_eq_ok answered
  have unstagedAfter : after.1.history.staged = [] := by rw [history, unstaged]
  rw [run_save, run_save after.1 after.2, run_anchor, run_anchor after.1 after.2, answered,
    events_again answered, if_pos unstaged, if_pos unstagedAfter, sameRule]

section Loaded

variable {snapshot : Option (Snapshot T)} {recorded : List (Recorded E)}

theorem run_load_loaded (cached : r.snapshot = some snapshot)
    (fetched : r.history.fetched = some recorded) (s : Store) :
    load.run (r, s) = (.ok (snapshot, ⟨recorded, r.history.staged⟩), r, s) := by
  rw [run_load, run_existing_cached cached]
  dsimp only
  rw [run_events_fetched fetched]

theorem run_state_loaded (cached : r.snapshot = some snapshot)
    (fetched : r.history.fetched = some recorded) (unstaged : r.history.staged = []) (s : Store) :
    state.run (r, s) = (.ok (fold r.projection snapshot recorded), r, s) := by
  rw [run_state, run_load_loaded cached fetched, unstaged]
  simp [fold, Projection.foldAll, View.reduce, View.events]

theorem run_anchor_loaded (cached : r.snapshot = some snapshot)
    (fetched : r.history.fetched = some recorded) (s : Store) :
    anchor.run (r, s) =
      ((anchor? snapshot recorded).elim (.error .noEventsToSave) .ok, r, s) := by
  rw [run_anchor, run_events_fetched fetched]
  dsimp only [View.lastId?]
  rw [run_resumeAfter, run_existing_cached cached, anchor?]
  cases recorded.getLast?.map Recorded.id with
  | some id => rfl
  | none =>
    simp only [Except.map, Option.none_or, floor]
    cases (snapshot.map Snapshot.lastEvent).filter (noEvent < ·) <;> rfl

/-- A save of what is loaded is one write. -/
theorem run_save_loaded (cached : r.snapshot = some snapshot)
    (fetched : r.history.fetched = some recorded) (unstaged : r.history.staged = []) (s : Store) :
    save.run (r, s) =
      let kept := (r.projection.keep (fold r.projection snapshot recorded)
        (anchor? snapshot recorded)).run s
      (kept.1, r, kept.2) := by
  rw [run_save, if_pos unstaged, run_anchor_loaded cached fetched, Projection.run_keep]
  cases anchor? snapshot recorded with
  | none => rfl
  | some event =>
    dsimp only [Option.elim]
    rw [run_state_loaded cached fetched unstaged]
    dsimp only
    rw [Client.run_saveProjection]
    cases r.projection.check (fold r.projection snapshot recorded) with
    | error fault => rfl
    | ok =>
      dsimp only
      cases ProjectedState.encode (fold r.projection snapshot recorded) with
      | error fault => rfl
      | ok data =>
        dsimp only
        rw [Store.run_saveProjection]
        split
        · rfl
        split <;> rfl

end Loaded

/-! ## What an operation leaves -/

variable {P : Projection E T} {log : List StoredEvent}

/-- A stored row is read as a state that is folded to an event. -/
theorem getProjection_spec (stored : P.Stored s.tables log) (survives : P.Survives)
    {answer : Except Fault (Option (Snapshot T))}
    (ran : (Client.getProjection T P.type P.id).run s = (answer, t)) :
    t = s ∧ ∀ snapshot, answer = .ok (some snapshot) →
      P.FoldedTo log snapshot.lastEvent snapshot.data := by
  rw [Client.run_getProjection, Store.run_getProjection] at ran
  by_cases poisoned : s.poisoned
  · simp only [poisoned, if_true, Prod.mk.injEq] at ran
    obtain ⟨rfl, rfl⟩ := ran
    exact ⟨rfl, fun snapshot given => by cases given⟩
  simp only [poisoned] at ran
  cases found : s.tables.projection? P.type P.id with
  | none =>
    simp only [found, Bool.false_eq_true, if_false, Prod.mk.injEq] at ran
    obtain ⟨rfl, rfl⟩ := ran
    exact ⟨rfl, fun snapshot given => by cases given⟩
  | some row =>
    obtain ⟨state, data, event, created, updated, encoded, rfl, folded⟩ := stored row found
    obtain ⟨legible, returns⟩ := folded.returns survives encoded
    simp only [found, Bool.false_eq_true, if_false, Projection.read_row legible, Except.map,
      Snapshot.decode, returns, Prod.mk.injEq] at ran
    obtain ⟨rfl, rfl⟩ := ran
    refine ⟨rfl, fun snapshot given => ?_⟩
    obtain rfl := Option.some.inj (Except.ok.inj given)
    exact folded

/-- A store in service gives a snapshot only of what is stored. -/
theorem getProjection_of_sound (stored : P.Stored s.tables log) (survives : P.Survives)
    (sound : s.poisoned = false) :
    ∃ snapshot : Option (Snapshot T),
      (Client.getProjection T P.type P.id).run s = (.ok snapshot, s) ∧
      (snapshot.isSome → (s.tables.projection? P.type P.id).isSome) := by
  rw [Client.run_getProjection, Store.run_getProjection, sound]
  cases found : s.tables.projection? P.type P.id with
  | none => exact ⟨none, rfl, id⟩
  | some row =>
    obtain ⟨state, data, event, created, updated, encoded, rfl, folded⟩ := stored row found
    obtain ⟨legible, returns⟩ := folded.returns survives encoded
    refine ⟨some ⟨P.type, P.id, state, event, created, updated⟩, ?_, fun _ => rfl⟩
    simp [Projection.read_row legible, Except.map, Snapshot.decode, returns]

/-- Loading the snapshot keeps the runner in step with the log. -/
theorem existing_spec (synced : r.Synced P log) (stored : P.Stored s.tables log)
    (survives : P.Survives) {answer : Except Fault (Option (Snapshot T))}
    (ran : existing.run (r, s) = (answer, r', t)) : t = s ∧ r'.Synced P log := by
  cases cached : r.snapshot with
  | some snapshot =>
    rw [run_existing_cached cached] at ran
    simp only [Prod.mk.injEq] at ran
    obtain ⟨-, rfl, rfl⟩ := ran
    exact ⟨rfl, synced⟩
  | none =>
    -- Events are read after the snapshot, so a runner without one has none.
    have unread : ∀ recorded, r.history.fetched ≠ some recorded := fun recorded fetched => by
      obtain ⟨snapshot, -, given, -⟩ := synced.history recorded fetched
      rw [cached] at given
      cases given
    have store : t = s ∧ ∀ snapshot, answer = .ok (some snapshot) →
        P.FoldedTo log snapshot.lastEvent snapshot.data := by
      simp only [run_existing, cached] at ran
      split at ran
      · rw [synced.projection] at ran
        rcases read : (Client.getProjection T P.type P.id).run s with ⟨answer, u⟩
        obtain ⟨rfl, folded⟩ := getProjection_spec stored survives read
        rw [read] at ran
        cases answer <;>
        · simp only [Prod.mk.injEq] at ran
          obtain ⟨rfl, -, rfl⟩ := ran
          exact ⟨rfl, folded⟩
      · simp only [Prod.mk.injEq] at ran
        obtain ⟨rfl, -, rfl⟩ := ran
        exact ⟨rfl, fun snapshot given => by cases given⟩
    refine ⟨store.1, ?_⟩
    cases answer with
    | error fault =>
      obtain rfl := existing_eq_error ran
      exact synced
    | ok snapshot =>
      obtain rfl := existing_eq_ok ran
      refine ⟨synced.projection, fun snapshot given => ?_,
        fun recorded fetched => absurd fetched (unread recorded)⟩
      obtain rfl := Option.some.inj given
      exact store.2 snapshot rfl

/-- So does loading the events. -/
theorem events_spec (synced : r.Synced P log) (holds : s.tables.Holds log)
    (stored : P.Stored s.tables log) (survives : P.Survives) {answer : Except Fault (View E)}
    (ran : events.run (r, s) = (answer, r', t)) : t.content = s.content ∧ r'.Synced P log := by
  cases fetched : r.history.fetched with
  | some recorded =>
    rw [run_events_fetched fetched] at ran
    simp only [Prod.mk.injEq] at ran
    obtain ⟨-, rfl, rfl⟩ := ran
    exact ⟨rfl, synced⟩
  | none =>
    rcases loading : existing.run (r, s) with ⟨found, r₁, s₁⟩
    obtain ⟨rfl, synced₁⟩ := existing_spec synced stored survives loading
    cases found with
    | error fault =>
      simp only [run_events, fetched, run_resumeAfter, loading, Except.map, Prod.mk.injEq] at ran
      obtain ⟨-, rfl, rfl⟩ := ran
      exact ⟨rfl, synced₁⟩
    | ok snapshot =>
      have stays := existing_eq_ok loading
      have cached : r₁.snapshot = some snapshot := by rw [stays]
      have unread : r₁.history.fetched = none := by rw [stays, fetched]
      rw [events_existing loading fetched, run_events_cached cached unread,
        synced₁.projection] at ran
      have kept := Client.keeps_streams (E := E) P.streams (floor snapshot) s₁
      rcases read : (Client.streams E P.streams (floor snapshot)).run s₁ with ⟨result, u⟩
      rw [read] at ran kept
      cases result with
      | error fault =>
        simp only [Prod.mk.injEq] at ran
        obtain ⟨-, rfl, rfl⟩ := ran
        exact ⟨kept, synced₁⟩
      | ok recorded =>
        simp only [Prod.mk.injEq] at ran
        obtain ⟨-, rfl, rfl⟩ := ran
        obtain ⟨decoded, valid, prepared⟩ := Client.streams_eq_ok holds read
        refine ⟨kept, rfl, fun snapshot given => synced₁.snapshot snapshot given,
          fun given same => ?_⟩
        obtain rfl := Option.some.inj same
        refine ⟨snapshot, log.length, cached, Nat.le_refl _,
          Projection.readable_of_canSelect valid prepared, ?_, decoded⟩
        cases snapshot with
        | none => exact noEvent_le _
        | some snapshot =>
          have folded := synced₁.snapshot snapshot cached
          rw [floor_eq folded holds.numbered]
          exact (folded.bounds holds.numbered).2

/-- And loading both. -/
theorem load_spec (synced : r.Synced P log) (holds : s.tables.Holds log)
    (stored : P.Stored s.tables log) (survives : P.Survives)
    {answer : Except Fault (Option (Snapshot T) × View E)}
    (ran : load.run (r, s) = (answer, r', t)) : t.content = s.content ∧ r'.Synced P log := by
  rw [run_load] at ran
  rcases loading : existing.run (r, s) with ⟨found, r₁, s₁⟩
  obtain ⟨rfl, synced₁⟩ := existing_spec synced stored survives loading
  rw [loading] at ran
  cases found with
  | error fault =>
    simp only [Prod.mk.injEq] at ran
    obtain ⟨-, rfl, rfl⟩ := ran
    exact ⟨rfl, synced₁⟩
  | ok snapshot =>
    dsimp only at ran
    rcases reading : events.run (r₁, s₁) with ⟨view, r₂, s₂⟩
    have after := events_spec synced₁ holds stored survives reading
    rw [reading] at ran
    cases view <;>
    · simp only [Prod.mk.injEq] at ran
      obtain ⟨-, rfl, rfl⟩ := ran
      exact after

theorem state_spec (synced : r.Synced P log) (holds : s.tables.Holds log)
    (stored : P.Stored s.tables log) (survives : P.Survives) :
    (state.run (r, s)).2.2.content = s.content ∧ (state.run (r, s)).2.1.Synced P log := by
  rcases loading : load.run (r, s) with ⟨answer, r', t⟩
  have loaded := load_spec synced holds stored survives loading
  rw [run_state, loading]
  cases answer <;> exact loaded

/-- A save leaves the row as it was or stored well. -/
theorem save_spec (synced : r.Synced P log) (holds : s.tables.Holds log)
    (stored : P.Stored s.tables log) (survives : P.Survives) {answer : Except Fault EventId}
    (ran : save.run (r, s) = (answer, r', t)) :
    t.tables.Holds log ∧ P.Stored t.tables log ∧ r'.Synced P log := by
  -- With nothing staged it is a load of the events and then one write.
  by_cases unstaged : r.history.staged = []
  · rcases loading : events.run (r, s) with ⟨view, r₁, s₁⟩
    obtain ⟨kept, synced₁⟩ := events_spec synced holds stored survives loading
    have tables : s₁.tables = s.tables := congrArg Prod.fst kept
    rw [← tables] at holds stored
    cases view with
    | error fault =>
      simp only [run_save, if_pos unstaged, run_anchor, loading, Prod.mk.injEq] at ran
      obtain ⟨-, rfl, rfl⟩ := ran
      exact ⟨holds, stored, synced₁⟩
    | ok view =>
      obtain ⟨-, history, -⟩ := events_eq_ok loading
      have fetched : r₁.history.fetched = some view.recorded := by rw [history]
      have unstaged₁ : r₁.history.staged = [] := by rw [history, unstaged]
      obtain ⟨snapshot, cached, folded⟩ := synced₁.folded holds.numbered fetched
      rw [save_events loading unstaged, run_save_loaded cached fetched unstaged₁,
        synced₁.projection] at ran
      simp only [Prod.mk.injEq] at ran
      obtain ⟨-, rfl, rfl⟩ := ran
      rcases P.tables_keep (fold P snapshot view.recorded) (anchor? snapshot view.recorded) s₁
        with same | written
      · rw [same]
        exact ⟨holds, stored, synced₁⟩
      · obtain ⟨event, data, anchored, encoded, grown⟩ := written
        rw [grown]
        exact ⟨holds.of_events rfl, stored.upsert s₁.now encoded (folded event anchored), synced₁⟩
  · rw [run_save, if_neg unstaged] at ran
    simp only [Prod.mk.injEq] at ran
    obtain ⟨-, rfl, rfl⟩ := ran
    exact ⟨holds, stored, synced⟩

/-- What a runner can be asked to do. -/
inductive Call (E : Type) where
  | stage (event : E)
  | existing
  | events
  | state
  | refresh
  | save

/-- The runner and the store that a call leaves. -/
def Call.perform (rs : ProjectionRunner E T × Store) : Call E → ProjectionRunner E T × Store
  | stage event => (rs.1.stage event, rs.2)
  | existing => (ProjectionRunner.existing.run rs).2
  | events => (ProjectionRunner.events.run rs).2
  | state => (ProjectionRunner.state.run rs).2
  | refresh => (ProjectionRunner.refresh.run rs).2
  | save => (ProjectionRunner.save.run rs).2

/-- A call leaves the log as it is, the row stored well, and the runner in step
with the log. -/
theorem perform_spec (c : Call E) (synced : r.Synced P log) (holds : s.tables.Holds log)
    (stored : P.Stored s.tables log) (survives : P.Survives) :
    (c.perform (r, s)).2.tables.Holds log ∧ P.Stored (c.perform (r, s)).2.tables log ∧
      (c.perform (r, s)).1.Synced P log := by
  have of_content {t : Store} {r' : ProjectionRunner E T}
      (kept : t.content = s.content ∧ r'.Synced P log) :
      t.tables.Holds log ∧ P.Stored t.tables log ∧ r'.Synced P log := by
    have tables : t.tables = s.tables := congrArg Prod.fst kept.1
    rw [tables]
    exact ⟨holds, stored, kept.2⟩
  have loading {r : ProjectionRunner E T} (synced : r.Synced P log) :
      (ProjectionRunner.existing.run (r, s)).2.2.content = s.content ∧
        (ProjectionRunner.existing.run (r, s)).2.1.Synced P log := by
    obtain ⟨same, synced'⟩ := existing_spec synced stored survives rfl
    exact ⟨congrArg Store.content same, synced'⟩
  cases c with
  | stage event => exact ⟨holds, stored, synced.stage event⟩
  | existing => exact of_content (loading synced)
  | events => exact of_content (events_spec synced holds stored survives rfl)
  | state => exact of_content (state_spec synced holds stored survives)
  | refresh =>
    rw [Call.perform, run_refresh]
    exact of_content (loading synced.forget)
  | save => exact save_spec synced holds stored survives rfl

end ProjectionRunner

end Chronicle
