import Chronicle.Action
import Chronicle.Event.Basic

/-!
# Histories

A history holds the events of some streams, fetched at most once, and after
them events that are staged in memory. A failed fetch leaves it as it was, so
that the next load fetches again. Forgetting what was fetched keeps what is
staged.
-/

namespace Chronicle

/-- Fetched events, if a fetch succeeded, and staged events. -/
structure History (E : Type) where
  fetched : Option (List (Recorded E))
  staged : List E

/-- What a loaded history shows: fetched events, then staged ones. -/
structure View (E : Type) where
  recorded : List (Recorded E)
  staged : List E

namespace View

variable {E : Type}

def events (v : View E) : List E := v.recorded.map Recorded.event ++ v.staged

def size (v : View E) : Nat := v.recorded.length + v.staged.length

def isEmpty (v : View E) : Bool := v.size = 0

def lastId? (v : View E) : Option EventId := v.recorded.getLast?.map Recorded.id

def reduce {α : Type} (v : View E) (step : α → E → α) (start : α) : α :=
  v.events.foldl step start

/-- Fold the fetched events only. -/
def reduceRecorded {α : Type} (v : View E) (step : α → E → α) (start : α) : α :=
  (v.recorded.map Recorded.event).foldl step start

end View

namespace History

variable {E : Type}

/-- Nothing is fetched and nothing staged. -/
def empty : History E := ⟨none, []⟩

/-- Add an event after those already staged. -/
def stage (h : History E) (event : E) : History E := { h with staged := h.staged ++ [event] }

def invalidate (h : History E) : History E := { h with fetched := none }

/-- What the history shows, if it is loaded. -/
def view? (h : History E) : Option (View E) := h.fetched.map fun recorded => ⟨recorded, h.staged⟩

/-- Keep what a fetch gave. -/
def fill (h : History E) (recorded : List (Recorded E)) : History E :=
  { h with fetched := some recorded }

@[simp]
theorem view?_stage (h : History E) (event : E) :
    (h.stage event).view? = h.view?.map fun v => { v with staged := v.staged ++ [event] } := by
  cases fetched : h.fetched <;> simp [view?, stage, fetched]

@[simp]
theorem view?_fill (h : History E) (recorded : List (Recorded E)) :
    (h.fill recorded).view? = some ⟨recorded, h.staged⟩ := rfl

@[simp]
theorem view?_invalidate (h : History E) : h.invalidate.view? = none := rfl

end History

end Chronicle
