import Chronicle.History.Basic

/-!
# Loading a history

A history is kept in some part of a state. It is loaded by an action on that
state which fetches its events, and which is run only when nothing was fetched
yet.
-/

namespace Chronicle

namespace History

variable {E R : Type}

/-- Load the history that a state holds, fetching its events if that was not
done yet. -/
def load (history : R → History E) (put : R → History E → R)
    (fetch : Action R (List (Recorded E))) : Action R (View E) := do
  match (history (← get)).view? with
  | some view => return view
  | none =>
    let recorded ← fetch
    modify fun r => put r ((history r).fill recorded)
    return ⟨recorded, (history (← get)).staged⟩

/-- A loaded history shows what it has; another one fetches. -/
theorem run_load (history : R → History E) (put : R → History E → R)
    (fetch : Action R (List (Recorded E))) (r : R) :
    (load history put fetch).run r =
      match (history r).view? with
      | some view => (.ok view, r)
      | none =>
        match fetch.run r with
        | (.ok recorded, r) =>
          let filled := put r ((history r).fill recorded)
          (.ok ⟨recorded, (history filled).staged⟩, filled)
        | (.error fault, r) => (.error fault, r) := by
  unfold load
  rw [Action.run_bind, Action.run_get]
  cases shown : (history r).view? with
  | some view => simp only [shown, Action.run_pure]
  | none =>
    simp only [shown, Action.run_bind]
    rcases fetch.run r with ⟨answer, after⟩
    cases answer <;> rfl

end History

end Chronicle
