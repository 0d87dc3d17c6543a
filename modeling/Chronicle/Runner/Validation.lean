import Chronicle.Client
import Chronicle.History.Load

/-!
# Running validators

A validator accepts or rejects staged events in view of the events of some
streams. Its runner reads those events once, checks, and appends the staged
events unless an event was written to the streams after the last one it read.
What is saved stays staged.
-/

namespace Chronicle

/-- A rule on the events of some streams. -/
structure Validator (E : Type) where
  streams : List Stream
  accepts : View E → Except Fault Unit

/-- A validator with what was read for it. -/
structure ValidationRunner (E : Type) where
  validator : Validator E
  history : History E

namespace ValidationRunner

variable {E S : Type}

def ofValidator (validator : Validator E) : ValidationRunner E := ⟨validator, .empty⟩

def stage (r : ValidationRunner E) (event : E) : ValidationRunner E :=
  { r with history := r.history.stage event }

def forget (r : ValidationRunner E) : ValidationRunner E :=
  { r with history := r.history.invalidate }

variable [DomainEvent E] [EventLog S]

def fetch : Action (ValidationRunner E × S) (List (Recorded E)) := do
  let (runner, _) ← get
  Action.onSecond (Client.streams E runner.validator.streams none)

/-- The events of the streams, then the staged ones. -/
def events : Action (ValidationRunner E × S) (View E) :=
  History.load (·.1.history) (fun (runner, s) history => ({ runner with history := history }, s))
    fetch

theorem run_events (r : ValidationRunner E) (s : S) :
    events.run (r, s) =
      match r.history.fetched with
      | some recorded => (.ok ⟨recorded, r.history.staged⟩, r, s)
      | none =>
        match (Client.streams E r.validator.streams none).run s with
        | (.ok recorded, t) =>
          (.ok ⟨recorded, r.history.staged⟩, { r with history := r.history.fill recorded }, t)
        | (.error fault, t) => (.error fault, r, t) := by
  unfold events fetch
  rw [History.run_load]
  cases fetched : r.history.fetched with
  | some recorded => simp [History.view?, fetched]
  | none =>
    simp only [History.view?, fetched, Option.map_none, Action.run_bind, Action.run_get,
      Action.run_onSecond]
    rcases (Client.streams E r.validator.streams none).run s with ⟨answer, t⟩
    cases answer <;> rfl

def refresh : Action (ValidationRunner E × S) Unit := do
  modify fun (runner, s) => (runner.forget, s)
  let _ ← events (E := E)

def validate : Action (ValidationRunner E × S) Unit := do
  let view ← events
  let (runner, _) ← get
  Action.ofExcept (runner.validator.accepts view)

/-- Check the staged events and append them, unless an event was written to
the streams in between. Without staged events nothing is read or written. -/
def save : Action (ValidationRunner E × S) (List (Recorded E)) := do
  let (runner, _) ← get
  if runner.history.staged.isEmpty then return []
  let view ← events
  Action.ofExcept (runner.validator.accepts view)
  let floor := view.lastId?.getD noEvent
  Action.onSecond (Client.appendIfNoNewer runner.history.staged floor runner.validator.streams)

/-- With something staged, a runner first loads the events. -/
theorem run_save (r : ValidationRunner E) (s : S) :
    save.run (r, s) =
      if r.history.staged = [] then (.ok [], r, s)
      else match events.run (r, s) with
      | (.error fault, after) => (.error fault, after)
      | (.ok view, after) =>
        match r.validator.accepts view with
        | .error fault => (.error fault, after)
        | .ok () =>
          let written := (Client.appendIfNoNewer r.history.staged (view.lastId?.getD noEvent)
            r.validator.streams).run after.2
          (written.1, after.1, written.2) := by
  unfold save
  rw [Action.run_bind, Action.run_get]
  by_cases none : r.history.staged = []
  · simp [none]
  · simp only [none, List.isEmpty_iff, if_false, Action.run_bind]
    rcases events.run (r, s) with ⟨answer, after⟩
    cases answer with
    | error fault => rfl
    | ok view =>
      simp only [Action.run_ofExcept]
      cases r.validator.accepts view with
      | error fault => rfl
      | ok => exact Action.run_onSecond ..

end ValidationRunner

end Chronicle
