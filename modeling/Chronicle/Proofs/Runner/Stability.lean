import Chronicle.Proofs.Runner.Repetition
import Chronicle.Proofs.Runner.Saving

/-!
# Views that stand still

What a runner answers once it has loaded does not depend on what others do. Here every
call of a runner is made at a store of its own (`course`), so that anything may have been
written between two calls, by anyone.

A loaded runner changes only by what is staged, until it is refreshed
(`ProjectionRunner.course_loaded`, `ValidationRunner.course_loaded`), and it answers
without asking the store (`ProjectionRunner.Shows`, `ValidationRunner.Shows`). What it has
loaded are the events of its streams after its snapshot, as they stood in the log at the
call that loaded them (`views_stable`).
-/

namespace Chronicle

/-! ## Calls at stores of their own -/

section Courses

variable {R C E : Type} {perform : R × Store → C → R × Store}

/-- The runner that calls leave, each made at the store that stands beside it. -/
def course (perform : R × Store → C → R × Store) (r : R) : List (C × Store) → R
  | [] => r
  | (c, s) :: calls => course perform (perform (r, s) c).1 calls

theorem course_append (r : R) (calls later : List (C × Store)) :
    course perform r (calls ++ later) = course perform (course perform r calls) later := by
  induction calls generalizing r with
  | nil => rfl
  | cons call calls ih => exact ih _

/-- What every call keeps, a course of calls keeps. -/
theorem course_keeps (Keeps : R → Prop)
    (step : ∀ r s c, Keeps r → Keeps (perform (r, s) c).1) {r : R} (keeps : Keeps r)
    (calls : List (C × Store)) : Keeps (course perform r calls) := by
  induction calls generalizing r with
  | nil => exact keeps
  | cons call calls ih => exact ih (step r call.2 call.1 keeps)

/-- When every call stages what it applies, a course stages all of it in order. -/
theorem staged_course (staged : R → List E) (applied : C → List E) (Keeps : R → Prop)
    (step : ∀ r s c, Keeps r → Keeps (perform (r, s) c).1 ∧
      staged (perform (r, s) c).1 = staged r ++ applied c)
    {r : R} (keeps : Keeps r) (calls : List (C × Store)) :
    staged (course perform r calls) = staged r ++ calls.flatMap (applied ·.1) := by
  induction calls generalizing r with
  | nil => exact (List.append_nil _).symm
  | cons call calls ih =>
    obtain ⟨kept, first⟩ := step r call.2 call.1 keeps
    rw [course, ih kept, first, List.flatMap_cons, List.append_assoc]

/-- When calls do nothing to a loaded runner but stage, what they leave does not depend on
the stores. -/
theorem course_eq_stage (stage : R → E → R) (applied : C → List E) (Loaded : R → Prop)
    (stays : C → Prop) (keeps : ∀ r event, Loaded r → Loaded (stage r event))
    (step : ∀ r s c, Loaded r → stays c → (perform (r, s) c).1 = (applied c).foldl stage r)
    {r : R} (loaded : Loaded r) {calls : List (C × Store)} (stay : ∀ call ∈ calls, stays call.1) :
    course perform r calls = (calls.flatMap (applied ·.1)).foldl stage r ∧
      Loaded (course perform r calls) := by
  have keepsAll (events : List E) {r : R} (loaded : Loaded r) :
      Loaded (events.foldl stage r) := by
    induction events generalizing r with
    | nil => exact loaded
    | cons event events ih => exact ih (keeps r event loaded)
  induction calls generalizing r with
  | nil => exact ⟨rfl, loaded⟩
  | cons call calls ih =>
    obtain ⟨first, others⟩ := List.forall_mem_cons.1 stay
    rw [course, step r call.2 call.1 loaded first, List.flatMap_cons, List.foldl_append]
    exact ih (keepsAll _ loaded) others

end Courses

/-! ## What is loaded -/

/-- Ids grow along what is decoded as they do along the rows. -/
theorem Client.pairwise_readAll {E : Type} [DomainEvent E] {rows : List StoredEvent}
    {recorded : List (Recorded E)} (decoded : readAll E rows = .ok recorded)
    (ascending : rows.Pairwise (·.id < ·.id)) : recorded.Pairwise (·.id < ·.id) := by
  have ids : (recorded.map Recorded.id).Pairwise (· < ·) := by
    rw [map_id_readAll decoded]
    exact List.pairwise_map.2 ascending
  exact List.pairwise_map.1 ids

/-- The events of a runner's streams after its snapshot, if it has one. -/
theorem ProjectionRunner.filter_snapshot {T : Type} {log : List StoredEvent}
    (numbered : Consecutive noEvent log) (specs : List Stream) (snapshot : Option (Snapshot T)) :
    (log.filter fun e => e.isOf specs && snapshot.all (·.lastEvent < e.id)) =
      stretch specs ((floor snapshot).getD noEvent) log.length log := by
  rw [← filter_after numbered]
  refine List.filter_congr fun e present => ?_
  cases snapshot with
  | none => rfl
  | some snapshot =>
    by_cases above : noEvent < snapshot.lastEvent
    · simp [floor, above]
    · -- A snapshot that is not resumed from comes before every event.
      have after : snapshot.lastEvent < e.id :=
        Int.lt_of_le_of_lt (Int.not_lt.1 above) (numbered.bounds present).1
      simp [floor, above, after]

/-- A state that was saved was written under the event that it was to be saved under. -/
theorem Projection.keep_eq_ok {E T : Type} [ProjectedState T] {P : Projection E T} {state : T}
    {event? : Option EventId} {event : EventId} {s t : Store}
    (answered : (P.keep state event?).run s = (.ok event, t)) :
    event? = some event ∧ ∃ data, ProjectedState.encode state = .ok data ∧
      t.tables = s.tables.upsert s.now P.type P.id data event := by
  rw [run_keep] at answered
  cases event? with
  | none => cases answered
  | some given =>
    dsimp only at answered
    split at answered
    · cases answered
    · cases answered
    rename_i data _ encoded
    split at answered
    · cases answered
    split at answered
    · obtain ⟨same, rfl⟩ := Prod.mk.inj answered
      obtain rfl := Except.ok.inj same
      exact ⟨rfl, data, encoded, rfl⟩
    · cases answered

namespace ProjectionRunner

variable {E T : Type}

/-- What a call stages. -/
def Call.applied : Call E → List E
  | stage event => [event]
  | existing | events | state | refresh | save => []

/-- The call makes the runner forget what it has read. -/
def Call.refreshes : Call E → Bool
  | refresh => true
  | stage _ | existing | events | state | save => false

/-- The snapshot and the events that a runner has read. -/
structure Loaded (r : ProjectionRunner E T) (P : Projection E T)
    (snapshot : Option (Snapshot T)) (recorded : List (Recorded E)) : Prop where
  projection : r.projection = P
  snapshot : r.snapshot = some snapshot
  fetched : r.history.fetched = some recorded

/-- A runner of the projection that has read events has read its snapshot before. -/
structure Coherent (r : ProjectionRunner E T) (P : Projection E T) : Prop where
  projection : r.projection = P
  snapshot : r.history.fetched.isSome → r.snapshot.isSome

variable {r r' : ProjectionRunner E T} {P : Projection E T} {snapshot : Option (Snapshot T)}
  {recorded : List (Recorded E)}

theorem coherent_ofProjection (P : Projection E T) (options : RunnerOptions) :
    (ofProjection P options).Coherent P :=
  ⟨rfl, fun fetched => by cases fetched⟩

theorem Loaded.coherent (loaded : r.Loaded P snapshot recorded) : r.Coherent P :=
  ⟨loaded.projection, fun _ => by rw [loaded.snapshot]; rfl⟩

theorem Loaded.stage (loaded : r.Loaded P snapshot recorded) (event : E) :
    (r.stage event).Loaded P snapshot recorded :=
  ⟨loaded.projection, loaded.snapshot, loaded.fetched⟩

theorem Coherent.loaded (coherent : r.Coherent P) (fetched : r.history.fetched = some recorded) :
    ∃ snapshot, r.Loaded P snapshot recorded := by
  obtain ⟨snapshot, cached⟩ := Option.isSome_iff_exists.1 (coherent.snapshot (by rw [fetched]; rfl))
  exact ⟨snapshot, coherent.projection, cached, fetched⟩

variable [ProjectedState T] {s t : Store}

/-- Loading the snapshot leaves the events alone. -/
theorem history_existing (r : ProjectionRunner E T) (s : Store) :
    (existing.run (r, s)).2.1.projection = r.projection ∧
      (existing.run (r, s)).2.1.history = r.history := by
  rcases finding : existing.run (r, s) with ⟨answer, r₁, s₁⟩
  cases answer with
  | error fault =>
    obtain rfl := existing_eq_error finding
    exact ⟨rfl, rfl⟩
  | ok snapshot =>
    obtain rfl := existing_eq_ok finding
    exact ⟨rfl, rfl⟩

variable [DomainEvent E]

/-- A load of the events is a load of both. -/
theorem Coherent.events_eq_load (coherent : r.Coherent P) (s : Store) :
    (events.run (r, s)).2 = (load.run (r, s)).2 := by
  rw [run_load]
  rcases finding : existing.run (r, s) with ⟨answer, r₁, s₁⟩
  cases fetched : r.history.fetched with
  | some recorded =>
    -- Such a runner has its snapshot too.
    obtain ⟨snapshot, loaded⟩ := coherent.loaded fetched
    rw [run_existing_cached loaded.snapshot] at finding
    obtain ⟨rfl, rest⟩ := Prod.mk.inj finding
    obtain ⟨rfl, rfl⟩ := Prod.mk.inj rest
    dsimp only
    rw [run_events_fetched fetched]
  | none =>
    cases answer with
    | error fault =>
      rw [run_events, fetched, run_resumeAfter, finding]
      rfl
    | ok snapshot =>
      rw [events_existing finding fetched]
      dsimp only
      rcases events.run (r₁, s₁) with ⟨answer, after⟩
      cases answer <;> rfl

theorem state_eq_load (r : ProjectionRunner E T) (s : Store) :
    (state.run (r, s)).2 = (load.run (r, s)).2 := by
  rw [run_state]
  rcases load.run (r, s) with ⟨answer, after⟩
  cases answer <;> rfl

/-- Every call stages, loads the snapshot, loads both, or does nothing to the runner. -/
theorem Coherent.perform_runner (coherent : r.Coherent P) (s : Store) (c : Call E) :
    (c.perform (r, s)).1 =
      match c with
      | .stage event => r.stage event
      | .existing => (existing.run (r, s)).2.1
      | .refresh => (existing.run (r.forget, s)).2.1
      | .events | .state => (load.run (r, s)).2.1
      | .save => if r.history.staged = [] then (load.run (r, s)).2.1 else r := by
  cases c with
  | stage event => rfl
  | existing => rfl
  | refresh => rw [Call.perform, run_refresh]
  | events => rw [Call.perform, coherent.events_eq_load]
  | state => rw [Call.perform, state_eq_load]
  | save =>
    rw [Call.perform]
    dsimp only
    split
    · rename_i unstaged
      rw [run_save_load unstaged]
      rcases load.run (r, s) with ⟨answer, after⟩
      cases answer <;> rfl
    · rename_i staged
      rw [run_save, if_neg staged]

/-- A load that fails has read no events. -/
theorem load_eq_error {fault : Fault} (failed : load.run (r, s) = (.error fault, r', t)) :
    r'.projection = r.projection ∧ r'.history = r.history := by
  rw [run_load] at failed
  rcases finding : existing.run (r, s) with ⟨answer, r₁, s₁⟩
  rw [finding] at failed
  cases answer with
  | error other =>
    obtain rfl := existing_eq_error finding
    obtain ⟨-, rest⟩ := Prod.mk.inj failed
    obtain ⟨rfl, -⟩ := Prod.mk.inj rest
    exact ⟨rfl, rfl⟩
  | ok snapshot =>
    have stays := existing_eq_ok finding
    have cached : r₁.snapshot = some snapshot := by rw [stays]
    have same : r₁.projection = r.projection ∧ r₁.history = r.history := by
      rw [stays]
      exact ⟨rfl, rfl⟩
    dsimp only at failed
    cases fetched : r₁.history.fetched with
    | some recorded =>
      rw [run_events_fetched fetched] at failed
      cases failed
    | none =>
      rw [run_events_cached cached fetched] at failed
      rcases read : (Client.streams E r₁.projection.streams (floor snapshot)).run s₁
        with ⟨result, u⟩
      rw [read] at failed
      cases result with
      | ok recorded => cases failed
      | error other =>
        obtain ⟨-, rest⟩ := Prod.mk.inj failed
        obtain ⟨rfl, -⟩ := Prod.mk.inj rest
        exact same

/-- What was loaded is not loaded again. -/
theorem Loaded.run_load (loaded : r.Loaded P snapshot recorded) (s : Store) :
    load.run (r, s) = (.ok (snapshot, ⟨recorded, r.history.staged⟩), r, s) := by
  rw [ProjectionRunner.run_load, run_existing_cached loaded.snapshot]
  dsimp only
  rw [run_events_fetched loaded.fetched]

theorem Coherent.load (coherent : r.Coherent P) (s : Store) :
    (load.run (r, s)).2.1.Coherent P ∧
      (load.run (r, s)).2.1.history.staged = r.history.staged := by
  rcases loading : ProjectionRunner.load.run (r, s) with ⟨answer, r₁, s₁⟩
  cases answer with
  | ok loaded =>
    obtain ⟨rule, cached, history, -⟩ := load_eq_ok loading
    refine ⟨⟨rule.trans coherent.projection, fun _ => ?_⟩, ?_⟩
    · rw [cached]
      rfl
    · rw [history]
  | error fault =>
    obtain ⟨rule, history⟩ := load_eq_error loading
    refine ⟨⟨rule.trans coherent.projection, fun fetched => ?_⟩, by rw [history]⟩
    -- It had read events before, and then a load does not fail.
    rw [history] at fetched
    obtain ⟨recorded, fetched⟩ := Option.isSome_iff_exists.1 fetched
    obtain ⟨snapshot, loaded⟩ := coherent.loaded fetched
    rw [loaded.run_load] at loading
    cases loading

/-- A call keeps a runner coherent and stages what it applies, whether it answers or
fails. -/
theorem Coherent.perform (coherent : r.Coherent P) (s : Store) (c : Call E) :
    (c.perform (r, s)).1.Coherent P ∧
      (c.perform (r, s)).1.history.staged = r.history.staged ++ c.applied := by
  have found {r : ProjectionRunner E T} (coherent : r.Coherent P) :
      (existing.run (r, s)).2.1.Coherent P ∧
        (existing.run (r, s)).2.1.history.staged = r.history.staged ++ [] := by
    obtain ⟨rule, history⟩ := history_existing r s
    refine ⟨⟨rule.trans coherent.projection, fun fetched => ?_⟩, ?_⟩
    · rw [history] at fetched
      obtain ⟨recorded, fetched⟩ := Option.isSome_iff_exists.1 fetched
      obtain ⟨snapshot, loaded⟩ := coherent.loaded fetched
      rw [run_existing_cached loaded.snapshot, loaded.snapshot]
      rfl
    · rw [history, List.append_nil]
  have read : (ProjectionRunner.load.run (r, s)).2.1.Coherent P ∧
      (ProjectionRunner.load.run (r, s)).2.1.history.staged = r.history.staged ++ [] := by
    rw [List.append_nil]
    exact coherent.load s
  rw [coherent.perform_runner]
  cases c with
  | stage event => exact ⟨⟨coherent.projection, coherent.snapshot⟩, rfl⟩
  | existing => exact found coherent
  | refresh => exact found (r := r.forget) ⟨coherent.projection, fun fetched => by cases fetched⟩
  | events => exact read
  | state => exact read
  | save =>
    dsimp only
    split
    · exact read
    · exact ⟨coherent, (List.append_nil _).symm⟩

/-- A call of a loaded runner that does not refresh it stages what it applies, and that
is all. -/
theorem Loaded.perform (loaded : r.Loaded P snapshot recorded) (s : Store) {c : Call E}
    (stays : c.refreshes = false) :
    (c.perform (r, s)).1 = c.applied.foldl ProjectionRunner.stage r := by
  rw [loaded.coherent.perform_runner]
  cases c with
  | stage event => rfl
  | existing =>
    dsimp only
    rw [run_existing_cached loaded.snapshot]
    rfl
  | refresh => cases stays
  | events | state =>
    dsimp only
    rw [loaded.run_load]
    rfl
  | save =>
    dsimp only
    rw [loaded.run_load, ite_self]
    rfl

/-! ## What a loaded runner answers -/

/-- A runner answers with this snapshot and this view, whatever is in the store: what is
asked of the events, the snapshot, the state, and the save, which writes it. -/
structure Shows (r : ProjectionRunner E T) (P : Projection E T) (snapshot : Option (Snapshot T))
    (view : View E) : Prop where
  events : ∀ {α : Type} (ask : View E → α) (s : Store),
    (ask <$> ProjectionRunner.events).run (r, s) = (.ok (ask view), r, s)
  existing : ∀ s : Store, ProjectionRunner.existing.run (r, s) = (.ok snapshot, r, s)
  state : ∀ s : Store, ProjectionRunner.state.run (r, s) =
    (.ok (view.reduce P.fold ((snapshot.map Snapshot.data).getD P.initial)), r, s)
  save : ∀ s : Store, ProjectionRunner.save.run (r, s) =
    if view.staged = [] then
      let kept := (P.keep (fold P snapshot view.recorded) (anchor? snapshot view.recorded)).run s
      (kept.1, r, kept.2)
    else (.error .appliedEventsPresent, r, s)

theorem Loaded.shows (loaded : r.Loaded P snapshot recorded) :
    r.Shows P snapshot ⟨recorded, r.history.staged⟩ where
  events ask s := by
    rw [Action.run_map, run_events_fetched loaded.fetched]
    rfl
  existing s := run_existing_cached loaded.snapshot s
  state s := by
    rw [run_state, loaded.run_load]
    dsimp only
    rw [loaded.projection]
  save s := by
    split
    · rename_i unstaged
      rw [run_save_loaded loaded.snapshot loaded.fetched unstaged, loaded.projection]
    · rename_i staged
      rw [run_save, if_neg staged]

/-- The events were read from the store, after the snapshot that the runner has or reads
there. -/
structure ReadFrom (r : ProjectionRunner E T) (s : Store) (snapshot : Option (Snapshot T))
    (recorded : List (Recorded E)) : Prop where
  existing : (existing.run (r, s)).1 = .ok snapshot
  read : ∃ t : Store, t.content = s.content ∧
    ((Client.streams E r.projection.streams (floor snapshot)).run t).1 = .ok recorded

/-- A load that reads the events reads them from its store. -/
theorem readFrom_of_load (unread : r.history.fetched = none) {view : View E}
    (answered : (load.run (r, s)).1 = .ok (snapshot, view)) :
    r.ReadFrom s snapshot view.recorded := by
  have kept := content_existing r s
  rw [run_load] at answered
  rcases finding : existing.run (r, s) with ⟨answer, r₁, s₁⟩
  rw [finding] at answered kept
  cases answer with
  | error fault => cases answered
  | ok found =>
    have stays := existing_eq_ok finding
    have cached : r₁.snapshot = some found := by rw [stays]
    have unread₁ : r₁.history.fetched = none := by rw [stays, unread]
    have rule : r₁.projection = r.projection := by rw [stays]
    dsimp only at answered
    rw [run_events_cached cached unread₁, rule] at answered
    rcases ran : (Client.streams E r.projection.streams (floor found)).run s₁ with ⟨result, u⟩
    rw [ran] at answered
    cases result with
    | error fault => cases answered
    | ok given =>
      obtain ⟨rfl, rfl⟩ := Prod.mk.inj (Except.ok.inj answered)
      exact ⟨by rw [finding], s₁, kept, by rw [ran]⟩

/-- On a log, they are those of the streams that come after the snapshot. -/
theorem ReadFrom.decoded {log : List StoredEvent} (origin : r.ReadFrom s snapshot recorded)
    (holds : s.tables.Holds log) :
    Client.readAll E (log.filter fun e =>
      e.isOf r.projection.streams && snapshot.all (·.lastEvent < e.id)) = .ok recorded := by
  obtain ⟨t, kept, read⟩ := origin.read
  have tables : t.tables = s.tables := congrArg Prod.fst kept
  rw [filter_snapshot holds.numbered]
  exact (Client.streams_eq_ok (tables ▸ holds) (Prod.ext read rfl)).1

/-- Events that a call leaves in a runner that had none were read by the call. -/
theorem Coherent.loads (coherent : r.Coherent P) (unread : r.history.fetched = none) {c : Call E}
    (fetched : (c.perform (r, s)).1.history.fetched = some recorded) :
    ∃ snapshot, (c.perform (r, s)).1.Loaded P snapshot recorded ∧
      r.ReadFrom s snapshot recorded := by
  have rule := (coherent.perform s c).1.projection
  rw [coherent.perform_runner] at fetched rule ⊢
  have read (rule : (ProjectionRunner.load.run (r, s)).2.1.projection = P)
      (given : (ProjectionRunner.load.run (r, s)).2.1.history.fetched = some recorded) :
      ∃ snapshot, (ProjectionRunner.load.run (r, s)).2.1.Loaded P snapshot recorded ∧
        r.ReadFrom s snapshot recorded := by
    rcases loading : ProjectionRunner.load.run (r, s) with ⟨answer, r₁, s₁⟩
    rw [loading] at given rule
    cases answer with
    | error fault =>
      rw [(load_eq_error loading).2, unread] at given
      cases given
    | ok loaded =>
      obtain ⟨-, cached, history, -⟩ := load_eq_ok loading
      have fetched := given
      rw [history] at given
      obtain rfl := Option.some.inj given
      exact ⟨loaded.1, ⟨rule, cached, fetched⟩,
        readFrom_of_load unread (congrArg Prod.fst loading)⟩
  have found {r : ProjectionRunner E T} (unread : r.history.fetched = none) :
      (existing.run (r, s)).2.1.history.fetched ≠ some recorded := by
    rw [(history_existing r s).2, unread]
    simp
  cases c with
  | stage event => cases unread.symm.trans fetched
  | existing => exact absurd fetched (found unread)
  | refresh => exact absurd fetched (found rfl)
  | events => exact read rule fetched
  | state => exact read rule fetched
  | save =>
    dsimp only at fetched rule ⊢
    split at fetched
    · rename_i unstaged
      rw [if_pos unstaged] at rule ⊢
      exact read rule fetched
    · cases unread.symm.trans fetched

/-! ## Saves -/

/-- A save that answers leaves a loaded runner, and has written its state. -/
theorem Coherent.save_eq_ok (coherent : r.Coherent P) {event : EventId}
    (answered : (ProjectionRunner.save.run (r, s)).1 = .ok event) :
    ∃ snapshot recorded, (ProjectionRunner.save.run (r, s)).2.1.Loaded P snapshot recorded ∧
      anchor? snapshot recorded = some event ∧
      ∃ data, ProjectedState.encode (fold P snapshot recorded) = .ok data ∧
        (ProjectionRunner.save.run (r, s)).2.2.tables =
          s.tables.upsert s.now P.type P.id data event := by
  by_cases unstaged : r.history.staged = []
  · have same := content_load r s
    rw [run_save_load unstaged] at answered ⊢
    rcases loading : ProjectionRunner.load.run (r, s) with ⟨answer, r₁, s₁⟩
    rw [loading] at answered same
    cases answer with
    | error fault => cases answered
    | ok loaded =>
      obtain ⟨snapshot, view⟩ := loaded
      obtain ⟨rule, cached, history, -⟩ := load_eq_ok loading
      obtain ⟨tables, -, now⟩ := Store.content_eq_iff.1 same
      dsimp only at answered ⊢
      rw [coherent.projection] at answered ⊢
      obtain ⟨anchored, data, encoded, written⟩ :=
        Projection.keep_eq_ok (Prod.ext answered rfl)
      rw [tables, now] at written
      exact ⟨snapshot, view.recorded, ⟨rule.trans coherent.projection, cached, by rw [history]⟩,
        anchored, data, encoded, written⟩
  · rw [run_save, if_neg unstaged] at answered
    cases answered

/-- Every save of a loaded runner that answers writes the same. -/
theorem Loaded.save_eq_ok (loaded : r.Loaded P snapshot recorded) {event : EventId}
    (answered : (ProjectionRunner.save.run (r, s)).1 = .ok event) :
    anchor? snapshot recorded = some event ∧
      ∃ data, ProjectedState.encode (fold P snapshot recorded) = .ok data ∧
        (ProjectionRunner.save.run (r, s)).2.2.tables =
          s.tables.upsert s.now P.type P.id data event := by
  obtain ⟨snapshot', recorded', after, anchored, written⟩ := loaded.coherent.save_eq_ok answered
  -- A save leaves a loaded runner as it is.
  have stays := loaded.perform s (c := .save) rfl
  rw [show (ProjectionRunner.save.run (r, s)).2.1 = r from stays] at after
  obtain rfl := Option.some.inj (after.snapshot.symm.trans loaded.snapshot)
  obtain rfl := Option.some.inj (after.fetched.symm.trans loaded.fetched)
  exact ⟨anchored, written⟩

/-! ## Courses -/

/-- The runner that calls leave. -/
abbrev course (r : ProjectionRunner E T) (calls : List (Call E × Store)) : ProjectionRunner E T :=
  Chronicle.course Call.perform r calls

variable {calls : List (Call E × Store)}

theorem Coherent.course (coherent : r.Coherent P) (calls : List (Call E × Store)) :
    (r.course calls).Coherent P :=
  course_keeps (Coherent · P) (fun _ s c coherent => (coherent.perform s c).1) coherent calls

theorem Coherent.staged_course (coherent : r.Coherent P) (calls : List (Call E × Store)) :
    (r.course calls).history.staged = r.history.staged ++ calls.flatMap (·.1.applied) :=
  Chronicle.staged_course (fun r : ProjectionRunner E T => r.history.staged) Call.applied
    (Coherent · P) (fun _ s c coherent => coherent.perform s c) coherent calls

/-- Until it is refreshed, a loaded runner stays loaded and changes only by what is
staged. -/
theorem Loaded.course (loaded : r.Loaded P snapshot recorded)
    (stay : ∀ call ∈ calls, call.1.refreshes = false) :
    r.course calls = (calls.flatMap (·.1.applied)).foldl ProjectionRunner.stage r ∧
      (r.course calls).Loaded P snapshot recorded :=
  course_eq_stage ProjectionRunner.stage Call.applied (Loaded · P snapshot recorded)
    (Call.refreshes · = false) (fun _ event loaded => loaded.stage event)
    (fun _ s _ loaded stays => loaded.perform s stays) loaded stay

end ProjectionRunner

/-! ## Validation runners -/

namespace ValidationRunner

variable {E : Type}

/-- What a call stages. -/
def Call.applied : Call E → List E
  | stage event => [event]
  | forget | events | refresh | validate | save => []

/-- The events that a runner of the validator has read. -/
structure Loaded (r : ValidationRunner E) (V : Validator E) (recorded : List (Recorded E)) :
    Prop where
  validator : r.validator = V
  fetched : r.history.fetched = some recorded

variable {r : ValidationRunner E} {V : Validator E} {recorded : List (Recorded E)}

theorem Loaded.stage (loaded : r.Loaded V recorded) (event : E) :
    (r.stage event).Loaded V recorded :=
  ⟨loaded.validator, loaded.fetched⟩

variable [DomainEvent E] {s : Store}

/-- Every call stages, forgets, loads, or does nothing to the runner. -/
theorem perform_runner (r : ValidationRunner E) (s : Store) (c : Call E) :
    (c.perform (r, s)).1 =
      match c with
      | .stage event => r.stage event
      | .forget => r.forget
      | .refresh => (events.run (r.forget, s)).2.1
      | .events | .validate => (events.run (r, s)).2.1
      | .save => if r.history.staged = [] then r else (events.run (r, s)).2.1 := by
  cases c with
  | stage event => rfl
  | forget => rfl
  | refresh => rw [Call.perform, run_refresh]
  | events => rfl
  | validate => rw [Call.perform, run_validate]
  | save => exact save_runner r s

theorem rule_events (r : ValidationRunner E) (s : Store) :
    (events.run (r, s)).2.1.validator = r.validator := by
  rw [run_events]
  split
  · rfl
  rcases (Client.streams E r.validator.streams none).run s with ⟨answer, t⟩
  cases answer <;> rfl

/-- A call keeps the rule and stages what it applies, whether it answers or fails. -/
theorem perform_spec (rule : r.validator = V) (s : Store) (c : Call E) :
    (c.perform (r, s)).1.validator = V ∧
      (c.perform (r, s)).1.history.staged = r.history.staged ++ c.applied := by
  have read {r : ValidationRunner E} (rule : r.validator = V) :
      (events.run (r, s)).2.1.validator = V ∧
        (events.run (r, s)).2.1.history.staged = r.history.staged ++ [] := by
    rw [List.append_nil]
    exact ⟨(rule_events r s).trans rule, staged_events r s⟩
  rw [perform_runner]
  cases c with
  | stage event => exact ⟨rule, rfl⟩
  | forget => exact ⟨rule, (List.append_nil _).symm⟩
  | events => exact read rule
  | refresh => exact read (r := r.forget) rule
  | validate => exact read rule
  | save =>
    dsimp only
    split
    · exact ⟨rule, (List.append_nil _).symm⟩
    · exact read rule

theorem Loaded.run_events (loaded : r.Loaded V recorded) (s : Store) :
    events.run (r, s) = (.ok ⟨recorded, r.history.staged⟩, r, s) := by
  rw [ValidationRunner.run_events, loaded.fetched]

/-- A call of a loaded runner that does not refresh it stages what it applies, and that
is all. -/
theorem Loaded.perform (loaded : r.Loaded V recorded) (s : Store) {c : Call E}
    (stays : c.refreshes = false) :
    (c.perform (r, s)).1 = c.applied.foldl ValidationRunner.stage r := by
  rw [perform_runner]
  cases c with
  | stage event => rfl
  | forget => cases stays
  | refresh => cases stays
  | events | validate =>
    dsimp only
    rw [loaded.run_events]
    rfl
  | save =>
    dsimp only
    rw [loaded.run_events, ite_self]
    rfl

/-- A runner answers with this view, whatever is in the store: what is asked of the events,
and what the rule says. -/
structure Shows (r : ValidationRunner E) (V : Validator E) (view : View E) : Prop where
  events : ∀ {α : Type} (ask : View E → α) (s : Store),
    (ask <$> ValidationRunner.events).run (r, s) = (.ok (ask view), r, s)
  validate : ∀ s : Store, ValidationRunner.validate.run (r, s) = (V.accepts view, r, s)

theorem Loaded.shows (loaded : r.Loaded V recorded) :
    r.Shows V ⟨recorded, r.history.staged⟩ where
  events ask s := by
    rw [Action.run_map, loaded.run_events]
    rfl
  validate s := by
    unfold ValidationRunner.validate
    rw [Action.run_bind, loaded.run_events]
    simp [Action.run_bind, loaded.validator]

/-- Events that a call leaves in a runner that had none, or had to forget them, were read
by the call. -/
theorem perform_loads {c : Call E} (unread : c.refreshes ∨ r.history.fetched = none)
    (fetched : (c.perform (r, s)).1.history.fetched = some recorded) :
    ((Client.streams E r.validator.streams none).run s).1 = .ok recorded := by
  have read {q : ValidationRunner E} (rule : q.validator = r.validator)
      (unread : q.history.fetched = none)
      (fetched : (events.run (q, s)).2.1.history.fetched = some recorded) :
      ((Client.streams E r.validator.streams none).run s).1 = .ok recorded := by
    rw [ValidationRunner.run_events, unread, rule] at fetched
    rcases ran : (Client.streams E r.validator.streams none).run s with ⟨answer, t⟩
    rw [ran] at fetched
    cases answer with
    | error fault => cases unread.symm.trans fetched
    | ok given => exact congrArg Except.ok (Option.some.inj fetched)
  have kept (stays : c.refreshes = false) : r.history.fetched = none := by
    simpa [stays] using unread
  rw [perform_runner] at fetched
  cases c with
  | stage event => cases (kept rfl).symm.trans fetched
  | forget => cases fetched
  | refresh => exact read (q := r.forget) rfl rfl fetched
  | events => exact read rfl (kept rfl) fetched
  | validate => exact read rfl (kept rfl) fetched
  | save =>
    dsimp only at fetched
    split at fetched
    · cases (kept rfl).symm.trans fetched
    · exact read rfl (kept rfl) fetched

/-- The runner that calls leave. -/
abbrev course (r : ValidationRunner E) (calls : List (Call E × Store)) : ValidationRunner E :=
  Chronicle.course Call.perform r calls

variable {calls : List (Call E × Store)}

theorem course_spec (rule : r.validator = V) (calls : List (Call E × Store)) :
    (r.course calls).validator = V ∧
      (r.course calls).history.staged = r.history.staged ++ calls.flatMap (·.1.applied) :=
  ⟨course_keeps (ValidationRunner.validator · = V) (fun _ s c rule => (perform_spec rule s c).1)
      rule calls,
    staged_course (fun r : ValidationRunner E => r.history.staged) Call.applied
      (ValidationRunner.validator · = V) (fun _ s c rule => perform_spec rule s c) rule calls⟩

/-- Until it is refreshed, a loaded runner stays loaded and changes only by what is
staged. -/
theorem Loaded.course (loaded : r.Loaded V recorded)
    (stay : ∀ call ∈ calls, call.1.refreshes = false) :
    r.course calls = (calls.flatMap (·.1.applied)).foldl ValidationRunner.stage r ∧
      (r.course calls).Loaded V recorded :=
  course_eq_stage ValidationRunner.stage Call.applied (Loaded · V recorded)
    (Call.refreshes · = false) (fun _ event loaded => loaded.stage event)
    (fun _ s _ loaded stays => loaded.perform s stays) loaded stay

end ValidationRunner

/-! ## Stable views -/

/-- What is known of a projection runner after some calls. -/
structure ProjectionRunner.Stable {E T : Type} [DomainEvent E] [ProjectedState T]
    (r : ProjectionRunner E T) (P : Projection E T) (calls : List (Call E × Store)) : Prop where
  /-- What was applied is staged, through refreshes and calls that failed. -/
  staged : r.history.staged = calls.flatMap (·.1.applied)
  /-- Events that a call loads are those of the streams after the snapshot, by id, that are
  in the log at that call. -/
  loads : ∀ (c : Call E) (s : Store) (recorded : List (Recorded E)), s.Reachable →
    r.history.fetched = none → (c.perform (r, s)).1.history.fetched = some recorded →
    ∃ snapshot, (c.perform (r, s)).1.snapshot = some snapshot ∧
      (ProjectionRunner.existing.run (r, s)).1 = .ok snapshot ∧
      Client.readAll E (s.tables.log.filter fun e =>
        e.isOf P.streams && snapshot.all (·.lastEvent < e.id)) = .ok recorded ∧
      recorded.Pairwise (·.id < ·.id)
  /-- Once they are loaded the runner has its snapshot too, and until it is refreshed it
  answers with both and with what was applied. It is what staging alone makes of it. -/
  stands : ∀ recorded, r.history.fetched = some recorded →
    ∃ snapshot, r.snapshot = some snapshot ∧
      ∀ later, (∀ call ∈ later, call.1.refreshes = false) →
        (r.course later).Shows P snapshot ⟨recorded, (calls ++ later).flatMap (·.1.applied)⟩ ∧
        r.course later = (later.flatMap (·.1.applied)).foldl ProjectionRunner.stage r
  /-- Once it has saved, each save that answers before the next refresh writes the same data
  under the same event. -/
  saves : ∀ (s : Store) (event : EventId), (ProjectionRunner.save.run (r, s)).1 = .ok event →
    ∃ (current : T) (data : Json), ProjectedState.encode current = .ok data ∧
      (ProjectionRunner.save.run (r, s)).2.2.tables =
        s.tables.upsert s.now P.type P.id data event ∧
      ∀ later, (∀ call ∈ later, call.1.refreshes = false) →
        ∀ (t : Store) (event' : EventId),
          (ProjectionRunner.save.run (r.course ((.save, s) :: later), t)).1 = .ok event' →
          event' = event ∧
            (ProjectionRunner.save.run (r.course ((.save, s) :: later), t)).2.2.tables =
              t.tables.upsert t.now P.type P.id data event

/-- What is known of a validation runner after some calls. -/
structure ValidationRunner.Stable {E : Type} [DomainEvent E] (r : ValidationRunner E)
    (V : Validator E) (calls : List (Call E × Store)) : Prop where
  staged : r.history.staged = calls.flatMap (·.1.applied)
  loads : ∀ (c : Call E) (s : Store) (recorded : List (Recorded E)), s.Reachable →
    (c.refreshes ∨ r.history.fetched = none) →
    (c.perform (r, s)).1.history.fetched = some recorded →
    Client.readAll E (s.tables.log.filter (StoredEvent.isOf V.streams)) = .ok recorded ∧
      recorded.Pairwise (·.id < ·.id)
  stands : ∀ recorded, r.history.fetched = some recorded →
    ∀ later, (∀ call ∈ later, call.1.refreshes = false) →
      (r.course later).Shows V ⟨recorded, (calls ++ later).flatMap (·.1.applied)⟩ ∧
      r.course later = (later.flatMap (·.1.applied)).foldl ValidationRunner.stage r

theorem ProjectionRunner.stable_course {E T : Type} [DomainEvent E] [ProjectedState T]
    (P : Projection E T) (options : RunnerOptions) (calls : List (Call E × Store)) :
    ((ofProjection P options).course calls).Stable P calls := by
  have new := coherent_ofProjection P options
  have coherent := new.course calls
  have staged := new.staged_course calls
  generalize (ofProjection P options).course calls = r at coherent staged ⊢
  refine ⟨staged, fun c s recorded reachable unread fetched => ?_, fun recorded fetched => ?_,
    fun s event answered => ?_⟩
  · obtain ⟨snapshot, loaded, origin⟩ := coherent.loads unread fetched
    have decoded := origin.decoded reachable.holds
    rw [coherent.projection] at decoded
    exact ⟨snapshot, loaded.snapshot, origin.existing, decoded,
      Client.pairwise_readAll decoded (reachable.holds.numbered.pairwise.filter _)⟩
  · obtain ⟨snapshot, loaded⟩ := coherent.loaded fetched
    refine ⟨snapshot, loaded.snapshot, fun later stay => ?_⟩
    obtain ⟨same, after⟩ := loaded.course stay
    have all : (r.course later).history.staged = (calls ++ later).flatMap (·.1.applied) := by
      rw [coherent.staged_course, staged, List.flatMap_append]
      rfl
    have shows := after.shows
    rw [all] at shows
    exact ⟨shows, same⟩
  · obtain ⟨snapshot, recorded, loaded, anchored, data, encoded, written⟩ :=
      coherent.save_eq_ok answered
    refine ⟨fold P snapshot recorded, data, encoded, written, fun later stay t event' again => ?_⟩
    have after : (r.course ((.save, s) :: later)).Loaded P snapshot recorded :=
      (loaded.course stay).2
    obtain ⟨anchored', data', encoded', written'⟩ := after.save_eq_ok again
    obtain rfl := Option.some.inj (anchored'.symm.trans anchored)
    obtain rfl := Except.ok.inj (encoded'.symm.trans encoded)
    exact ⟨rfl, written'⟩

theorem ValidationRunner.stable_course {E : Type} [DomainEvent E] (V : Validator E)
    (calls : List (Call E × Store)) : ((ofValidator V).course calls).Stable V calls := by
  have new : (ofValidator V).validator = V := rfl
  obtain ⟨rule, staged⟩ := course_spec new calls
  generalize (ofValidator V).course calls = r at rule staged ⊢
  refine ⟨staged, fun c s recorded reachable unread fetched => ?_,
    fun recorded fetched later stay => ?_⟩
  · have read := perform_loads unread fetched
    have decoded := (Client.streams_eq_ok reachable.holds (Prod.ext read rfl)).1
    rw [rule, ← filter_after reachable.holds.numbered] at decoded
    have decoded : Client.readAll E (s.tables.log.filter (StoredEvent.isOf V.streams)) =
        .ok recorded := by simpa using decoded
    exact ⟨decoded,
      Client.pairwise_readAll decoded (reachable.holds.numbered.pairwise.filter _)⟩
  · have loaded : r.Loaded V recorded := ⟨rule, fetched⟩
    obtain ⟨same, after⟩ := loaded.course stay
    have all : (r.course later).history.staged = (calls ++ later).flatMap (·.1.applied) := by
      rw [(course_spec rule later).2, staged, List.flatMap_append]
      rfl
    have shows := after.shows
    rw [all] at shows
    exact ⟨shows, same⟩

/-- Runners after any calls, each made at a store of which nothing is known: others may
have done anything in between. What a runner has staged is what was applied to it. What it
has loaded is what was in the log when it loaded it, and what it answers depends on that
and on what was applied to it, until it is refreshed. -/
theorem views_stable {E D T : Type} [DomainEvent E] [DomainEvent D] [ProjectedState T]
    (P : Projection E T) (options : RunnerOptions) (V : Validator D) :
    (∀ calls, ((ProjectionRunner.ofProjection P options).course calls).Stable P calls) ∧
      ∀ calls, ((ValidationRunner.ofValidator V).course calls).Stable V calls :=
  ⟨ProjectionRunner.stable_course P options, ValidationRunner.stable_course V⟩

/-- An event is staged, and the streams are read while they are empty. -/
def earlyRead : List (ValidationRunner.Call Draft × Store) :=
  [(.stage ⟨"T", .null⟩, Store.new default), (.events, Store.new default)]

theorem course_earlyRead :
    (ValidationRunner.ofValidator (Workshop.lenient [plainStream])).course earlyRead =
      ⟨Workshop.lenient [plainStream], some [], [⟨"T", .null⟩]⟩ := by
  rw [← Workshop.runner_oneLoaded plainStream_valid fun _ => canSelect_plainStream none,
    Workshop.oneLoaded, Workshop.runner_act, Workshop.oneStaged, Workshop.runner_act]
  rfl

/-- The state is asked for where a snapshot is stored. -/
def snapshotRead : List (ProjectionRunner.Call Draft × Store) :=
  [(.state, ProjectionRunner.snapshotOnly 5)]

theorem course_snapshotRead :
    ProjectionRunner.collector.course snapshotRead =
      { ProjectionRunner.collector with
        snapshot := some (some (ProjectionRunner.collected 5)), history := ⟨some [], []⟩ } := by
  obtain ⟨metrics, loaded⟩ := ProjectionRunner.load_snapshotOnly 5
  rw [snapshotRead, ProjectionRunner.course, course, course, ProjectionRunner.Call.perform,
    ProjectionRunner.state_eq_load, loaded]

/-- Neither runner sees the event that is appended then, nor the projection's runner that
its snapshot is not there any more. -/
theorem views_stable_after_one :
    let r := (ValidationRunner.ofValidator (Workshop.lenient [plainStream])).course earlyRead
    let p := ProjectionRunner.collector.course snapshotRead
    (View.events <$> ValidationRunner.events).run (r, Store.afterOne) =
        (.ok [⟨"T", .null⟩], r, Store.afterOne) ∧
      ProjectionRunner.existing.run (p, Store.afterOne) =
        (.ok (some (ProjectionRunner.collected 5)), p, Store.afterOne) ∧
      ProjectionRunner.state.run (p, Store.afterOne) = (.ok [.null], p, Store.afterOne) := by
  intro r p
  have fetched : r.history.fetched = some [] := by
    rw [show r = _ from course_earlyRead]
  have fetchedP : p.history.fetched = some [] := by
    rw [show p = _ from course_snapshotRead]
  have cachedP : p.snapshot = some (some (ProjectionRunner.collected 5)) := by
    rw [show p = _ from course_snapshotRead]
  obtain ⟨stableP, stable⟩ := views_stable ProjectionRunner.collector.projection ⟨true⟩
    (Workshop.lenient [plainStream])
  have stable : r.Stable (Workshop.lenient [plainStream]) earlyRead := stable earlyRead
  have stableP : p.Stable ProjectionRunner.collector.projection snapshotRead :=
    stableP snapshotRead
  clear_value r p
  obtain ⟨snapshot, cached, shows⟩ := stableP.stands [] fetchedP
  obtain rfl := Option.some.inj (cached.symm.trans cachedP)
  obtain ⟨shows, -⟩ := shows [] (by simp)
  exact ⟨(stable.stands [] fetched [] (by simp)).1.events View.events Store.afterOne,
    shows.existing Store.afterOne, shows.state Store.afterOne⟩

end Chronicle
