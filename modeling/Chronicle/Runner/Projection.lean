import Chronicle.Client
import Chronicle.History.Load

/-!
# Running projections

A projection folds the events of some streams into a state. Its runner reads
the events once, lets further events be staged to see what they would change,
and saves the state with the id of the last event folded into it.

A runner that loads what exists starts from the stored snapshot, if there is
one, and reads only the events after it. What was read stays until the runner
is refreshed.
-/

namespace Chronicle

/-- A read model: the key it is stored under, the streams it reads, and how
their events are folded. -/
structure Projection (E T : Type) where
  type : String
  id : String
  streams : List Stream
  initial : T
  fold : T → E → T
  /-- What a state has to satisfy to be saved. -/
  check : T → Except Fault Unit

structure RunnerOptions where
  loadExisting : Bool
  deriving DecidableEq

namespace RunnerOptions

def decoder : Decoder RunnerOptions :=
  ((Record.pure RunnerOptions.mk).field "load_existing" Decoder.bool
    (some false)).decoder "struct RunnerOptions"

def toJson (o : RunnerOptions) : Json := .ofMembers [("load_existing", .bool o.loadExisting)]

end RunnerOptions

/-- A projection with what was read for it. -/
structure ProjectionRunner (E T : Type) where
  projection : Projection E T
  options : RunnerOptions
  /-- The stored snapshot, or that there is none, if that was read. -/
  snapshot : Option (Option (Snapshot T))
  history : History E

namespace ProjectionRunner

variable {E T S : Type}

def ofProjection (projection : Projection E T) (options : RunnerOptions) :
    ProjectionRunner E T :=
  ⟨projection, options, none, .empty⟩

/-- Stage an event to see what it would change. It is never written. -/
def stage (r : ProjectionRunner E T) (event : E) : ProjectionRunner E T :=
  { r with history := r.history.stage event }

def forget (r : ProjectionRunner E T) : ProjectionRunner E T :=
  { r with snapshot := none, history := r.history.invalidate }

variable [ProjectedState T] [ProjectionStore S]

/-- The stored snapshot, if the runner loads what exists and there is one. -/
def existing : Action (ProjectionRunner E T × S) (Option (Snapshot T)) := do
  let (runner, _) ← get
  match runner.snapshot with
  | some snapshot => return snapshot
  | none =>
    let snapshot ←
      if runner.options.loadExisting then
        Action.onSecond
          (Client.getProjection T runner.projection.type runner.projection.id)
      else pure none
    modify fun (runner, s) => ({ runner with snapshot := some snapshot }, s)
    return snapshot

theorem run_existing (r : ProjectionRunner E T) (s : S) :
    existing.run (r, s) =
      match r.snapshot with
      | some snapshot => (.ok snapshot, r, s)
      | none =>
        if r.options.loadExisting then
          match (Client.getProjection T r.projection.type r.projection.id).run s with
          | (.ok snapshot, t) => (.ok snapshot, { r with snapshot := some snapshot }, t)
          | (.error fault, t) => (.error fault, r, t)
        else (.ok none, { r with snapshot := some none }, s) := by
  unfold existing
  rw [Action.run_bind, Action.run_get]
  cases cached : r.snapshot with
  | some snapshot => simp only [cached, Action.run_pure]
  | none =>
    simp only [cached, Action.run_bind, Action.run_ite, Action.run_onSecond]
    cases r.options.loadExisting with
    | false => rfl
    | true =>
      simp only [if_true]
      rcases (Client.getProjection T r.projection.type r.projection.id).run s with ⟨answer, t⟩
      cases answer <;> rfl

/-- The event after which events are read. A snapshot of no event is not
resumed from. -/
def resumeAfter : Action (ProjectionRunner E T × S) (Option EventId) := do
  return (← existing).map Snapshot.lastEvent |>.filter (noEvent < ·)

theorem run_resumeAfter (r : ProjectionRunner E T) (s : S) :
    resumeAfter.run (r, s) =
      ((existing.run (r, s)).1.map fun snapshot =>
          (snapshot.map Snapshot.lastEvent).filter (noEvent < ·),
        (existing.run (r, s)).2) := by
  unfold resumeAfter
  rw [Action.run_bind]
  rcases existing.run (r, s) with ⟨answer, after⟩
  cases answer <;> rfl

variable [DomainEvent E] [EventLog S]

def fetch : Action (ProjectionRunner E T × S) (List (Recorded E)) := do
  let after ← resumeAfter
  let (runner, _) ← get
  Action.onSecond (Client.streams E runner.projection.streams after)

/-- The events after the snapshot, then the staged ones. -/
def events : Action (ProjectionRunner E T × S) (View E) :=
  History.load (·.1.history) (fun (runner, s) history => ({ runner with history := history }, s))
    fetch

theorem run_events (r : ProjectionRunner E T) (s : S) :
    events.run (r, s) =
      match r.history.fetched with
      | some recorded => (.ok ⟨recorded, r.history.staged⟩, r, s)
      | none =>
        match resumeAfter.run (r, s) with
        | (.error fault, after) => (.error fault, after)
        | (.ok floor, r, s) =>
          match (Client.streams E r.projection.streams floor).run s with
          | (.ok recorded, t) =>
            (.ok ⟨recorded, r.history.staged⟩, { r with history := r.history.fill recorded }, t)
          | (.error fault, t) => (.error fault, r, t) := by
  unfold events fetch
  rw [History.run_load]
  cases fetched : r.history.fetched with
  | some recorded => simp [History.view?, fetched]
  | none =>
    simp only [History.view?, fetched, Option.map_none, Action.run_bind]
    rcases resumeAfter.run (r, s) with ⟨answer, r, s⟩
    cases answer with
    | error fault => rfl
    | ok floor =>
      simp only [Action.run_get, Action.run_onSecond]
      rcases (Client.streams E r.projection.streams floor).run s with ⟨answer, t⟩
      cases answer <;> rfl

/-- Read the snapshot anew. Events are read anew when they are next asked
for. -/
def refresh : Action (ProjectionRunner E T × S) Unit := do
  modify fun (runner, s) => (runner.forget, s)
  let _ ← existing (E := E) (T := T)

/-- What the state is folded from: the snapshot, then the events after it. -/
def load : Action (ProjectionRunner E T × S) (Option (Snapshot T) × View E) := do
  let snapshot ← existing
  let view ← events
  return (snapshot, view)

theorem run_load (r : ProjectionRunner E T) (s : S) :
    load.run (r, s) =
      match existing.run (r, s) with
      | (.error fault, after) => (.error fault, after)
      | (.ok snapshot, after) =>
        match events.run after with
        | (.error fault, after) => (.error fault, after)
        | (.ok view, after) => (.ok (snapshot, view), after) := by
  unfold load
  rw [Action.run_bind]
  rcases existing.run (r, s) with ⟨answer, after⟩
  cases answer with
  | error fault => rfl
  | ok snapshot =>
    simp only [Action.run_bind]
    rcases events.run after with ⟨answer, after⟩
    cases answer <;> rfl

/-- The state: all events folded from the snapshot or the initial state. -/
def state : Action (ProjectionRunner E T × S) T := do
  let (snapshot, view) ← load
  let (runner, _) ← get
  let start := (snapshot.map Snapshot.data).getD runner.projection.initial
  return view.reduce runner.projection.fold start

theorem run_state (r : ProjectionRunner E T) (s : S) :
    state.run (r, s) =
      match load.run (r, s) with
      | (.error fault, after) => (.error fault, after)
      | (.ok (snapshot, view), r, s) =>
        (.ok (view.reduce r.projection.fold
          ((snapshot.map Snapshot.data).getD r.projection.initial)), r, s) := by
  unfold state
  rw [Action.run_bind]
  rcases load.run (r, s) with ⟨answer, after⟩
  cases answer <;> rfl

/-- The id that the state is saved under: that of the last event read or, if
none was read, that of the snapshot. -/
def anchor : Action (ProjectionRunner E T × S) EventId := do
  let view ← events
  match view.lastId? with
  | some id => return id
  | none =>
    match ← resumeAfter with
    | some id => return id
    | none => throw .noEventsToSave

theorem run_anchor (r : ProjectionRunner E T) (s : S) :
    anchor.run (r, s) =
      match events.run (r, s) with
      | (.error fault, after) => (.error fault, after)
      | (.ok view, after) =>
        match view.lastId? with
        | some id => (.ok id, after)
        | none =>
          match resumeAfter.run after with
          | (.ok (some id), after) => (.ok id, after)
          | (.ok none, after) => (.error .noEventsToSave, after)
          | (.error fault, after) => (.error fault, after) := by
  unfold anchor
  rw [Action.run_bind]
  rcases events.run (r, s) with ⟨answer, after⟩
  cases answer with
  | error fault => rfl
  | ok view =>
    dsimp only
    cases view.lastId? with
    | some id => rfl
    | none =>
      simp only [Action.run_bind]
      rcases resumeAfter.run after with ⟨answer, after⟩
      cases answer with
      | error fault => rfl
      | ok floor => cases floor <;> rfl

/-- Save the state, if nothing is staged. -/
def save : Action (ProjectionRunner E T × S) EventId := do
  let (runner, _) ← get
  if ¬ runner.history.staged.isEmpty then throw .appliedEventsPresent
  let event ← anchor
  let current ← state
  Action.ofExcept (runner.projection.check current)
  Action.onSecond
    (Client.saveProjection runner.projection.type runner.projection.id current event)
  return event

theorem run_save (r : ProjectionRunner E T) (s : S) :
    save.run (r, s) =
      if r.history.staged = [] then
        match anchor.run (r, s) with
        | (.error fault, after) => (.error fault, after)
        | (.ok event, after) =>
          match state.run after with
          | (.error fault, after) => (.error fault, after)
          | (.ok current, after) =>
            match r.projection.check current with
            | .error fault => (.error fault, after)
            | .ok () =>
              let saved := (Client.saveProjection r.projection.type r.projection.id current
                event).run after.2
              (saved.1.map fun _ => event, after.1, saved.2)
      else (.error .appliedEventsPresent, r, s) := by
  unfold save
  rw [Action.run_bind, Action.run_get]
  by_cases unstaged : r.history.staged = []
  · simp only [unstaged, List.isEmpty_nil, not_true, if_false, if_true, Action.run_bind]
    rcases anchor.run (r, s) with ⟨answer, after⟩
    cases answer with
    | error fault => rfl
    | ok event =>
      dsimp only
      rcases state.run after with ⟨answer, r', s'⟩
      cases answer with
      | error fault => rfl
      | ok current =>
        simp only [Action.run_ofExcept]
        cases r.projection.check current with
        | error fault => rfl
        | ok =>
          simp only [Action.run_onSecond]
          rcases (Client.saveProjection r.projection.type r.projection.id current event).run s'
            with ⟨answer, t⟩
          cases answer <;> rfl
  · simp [unstaged, Action.run_bind]

end ProjectionRunner

end Chronicle
