import Chronicle.History.Basic

/-!
# Loads under way

Several loads of one history can be under way together. Of those that find it
not loaded, one fetches and the others wait. When its fetch succeeds, all of
them answer with what it gave; when it fails, that load alone fails and the one
that has waited longest fetches in its turn.

Events are staged, and fetched ones forgotten, only while no load is under way.
-/

namespace Chronicle

/-- A history with the loads under way, each with its number. -/
structure Flight (E : Type) where
  history : History E
  /-- The load that fetches. -/
  fetching : Option Nat
  /-- The loads that wait, the longest first. -/
  waiting : List Nat
  /-- How many fetches were started. -/
  started : Nat
  /-- The loads that have answered, with their answers. -/
  answers : List (Nat × Except Fault (View E))

namespace Flight

variable {E : Type}

/-- No load is under way. -/
def idle (h : History E) : Flight E := ⟨h, none, [], 0, []⟩

def answer (f : Flight E) (n : Nat) (result : Except Fault (View E)) : Flight E :=
  { f with answers := f.answers ++ [(n, result)] }

/-- Load `n` starts to fetch. -/
def start (f : Flight E) (n : Nat) : Flight E :=
  { f with fetching := some n, started := f.started + 1 }

/-- Load `n` begins. -/
def enter (f : Flight E) (n : Nat) : Flight E :=
  match f.history.view? with
  | some view => f.answer n (.ok view)
  | none => if f.fetching.isNone then f.start n else { f with waiting := f.waiting ++ [n] }

/-- All waiting loads answer with what the history now shows. -/
def release (f : Flight E) (view : View E) : Flight E :=
  f.waiting.foldl (fun f n => f.answer n (.ok view)) { f with waiting := [] }

/-- The longest waiting load fetches in its turn. -/
def promote (f : Flight E) : Flight E :=
  match f.waiting with
  | [] => { f with fetching := none }
  | n :: rest => { f with waiting := rest }.start n

/-- The fetch under way ends with a result. -/
def complete (f : Flight E) (result : Except Fault (List (Recorded E))) : Flight E :=
  match f.fetching with
  | none => f
  | some n =>
    match result with
    | .ok recorded =>
      let view : View E := ⟨recorded, f.history.staged⟩
      { f with history := f.history.fill recorded, fetching := none }.answer n (.ok view)
        |>.release view
    | .error fault => (f.answer n (.error fault)).promote

/-- The fetch under way ends as its load's own fetch does. -/
def settle (results : List (Except Fault (List (Recorded E)))) (f : Flight E) : Flight E :=
  match f.fetching.bind (results[·]?) with
  | some result => f.complete result
  | none => f

/-- Loads that begin together, each with the result its fetch would have. -/
def loadAll (h : History E) (results : List (Except Fault (List (Recorded E)))) : Flight E :=
  let entered := (List.range results.length).foldl enter (idle h)
  results.foldl (fun f _ => f.settle results) entered

/-- The answer of load `n`. -/
def answer? (f : Flight E) (n : Nat) : Option (Except Fault (View E)) :=
  (f.answers.find? (·.1 = n)).map (·.2)

end Flight

end Chronicle
