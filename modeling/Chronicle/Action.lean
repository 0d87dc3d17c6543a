import Chronicle.Fault

/-!
# Actions

An action on a state answers or fails, and leaves a state either way: what an
operation did before it failed stays done unless the operation undoes it.
-/

namespace Chronicle

/-- An operation on a state that may fail. -/
abbrev Action (S : Type) := EStateM Fault S

namespace Action

/-- What does not touch the state. -/
def ofExcept {S α : Type} : Except Fault α → Action S α
  | .ok a => pure a
  | .error fault => throw fault

/-- The same action on the first of two states. -/
def onFirst {R S α : Type} (act : Action R α) : Action (R × S) α := fun (r, s) =>
  match act r with
  | .ok a r => .ok a (r, s)
  | .error fault r => .error fault (r, s)

/-- The same action on the second of two states. -/
def onSecond {R S α : Type} (act : Action S α) : Action (R × S) α := fun (r, s) =>
  match act s with
  | .ok a s => .ok a (r, s)
  | .error fault s => .error fault (r, s)

/-- The answer and the state that an action leaves. -/
def run {S α : Type} (act : Action S α) (s : S) : Except Fault α × S :=
  match act s with
  | .ok a s => (.ok a, s)
  | .error fault s => (.error fault, s)

variable {R S α β : Type}

@[simp]
theorem run_pure (a : α) (s : S) : run (pure a) s = (.ok a, s) := rfl

@[simp]
theorem run_throw (fault : Fault) (s : S) :
    run (throw fault : Action S α) s = (.error fault, s) := rfl

theorem run_bind (act : Action S α) (next : α → Action S β) (s : S) :
    run (act >>= next) s =
      match run act s with
      | (.ok a, s) => run (next a) s
      | (.error fault, s) => (.error fault, s) := by
  cases result : act s <;> simp [run, bind, EStateM.bind, result]

@[simp]
theorem run_get (s : S) : run (get : Action S S) s = (.ok s, s) := rfl

@[simp]
theorem run_modify (f : S → S) (s : S) : run (modify f : Action S Unit) s = (.ok (), f s) := rfl

@[simp]
theorem run_set (s t : S) : run (set t : Action S PUnit) s = (.ok (), t) := rfl

theorem run_map (f : α → β) (act : Action S α) (s : S) :
    run (f <$> act) s = ((run act s).1.map f, (run act s).2) := by
  cases result : act s <;> simp [run, Functor.map, EStateM.map, result, Except.map]

theorem run_ite (c : Prop) [Decidable c] (act other : Action S α) (s : S) :
    run (if c then act else other) s = if c then run act s else run other s :=
  apply_ite (run · s) c act other

@[simp]
theorem run_ofExcept (result : Except Fault α) (s : S) :
    run (ofExcept result) s = (result, s) := by
  cases result <;> rfl

theorem run_onSecond (act : Action S α) (r : R) (s : S) :
    run (onSecond act) (r, s) = ((run act s).1, r, (run act s).2) := by
  cases result : act s <;> simp [run, onSecond, result]

end Action

end Chronicle
