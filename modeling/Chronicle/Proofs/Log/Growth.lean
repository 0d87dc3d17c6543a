import Chronicle.Proofs.Log.Guard

/-!
# How a log grows

Whatever a store is asked to do, its event table gains drafts at the end, under
the ids that follow the last one, or stays as it is (`Store.Grows`). If it held
a log before, it then holds one that begins with it (`Grows.holds`).

A guarded append and a plain one are alike in what they leave (`Store.Appends`):
either the drafts after everything else, and then the answer are their rows as they
are read back, or nothing new.
-/

namespace Chronicle

namespace Store

/-- The event table gains drafts of some kind at its end, or stays. -/
def Grows (P : Draft → Prop) (s t : Store) : Prop :=
  ∃ drafts : List Draft, (∀ draft ∈ drafts, draft.data.Legible ∧ P draft) ∧
    t.tables.events = (s.tables.push (Draft.numbered s.now s.tables.lastId drafts)).events

section Growth

variable {P Q : Draft → Prop} {s t u : Store} {log : List StoredEvent}

theorem grows_of_events (same : t.tables.events = s.tables.events) : Grows P s t :=
  ⟨[], by simp, by rw [same]; exact congrArg Tables.events (Tables.push_nil _).symm⟩

theorem grows_of_keeps {α : Type} {act : Action Store α} (keeps : Action.Keeps content act)
    (s : Store) : Grows P s (act.run s).2 :=
  grows_of_events (congrArg (·.1.events) (keeps s))

namespace Grows

theorem imp (grows : Grows P s t) (weaker : ∀ draft, P draft → Q draft) : Grows Q s t := by
  obtain ⟨drafts, fit, added⟩ := grows
  refine ⟨drafts, fun draft present => ?_, added⟩
  obtain ⟨legible, kind⟩ := fit draft present
  exact ⟨legible, weaker draft kind⟩

/-- What was only read before does not matter. -/
theorem of_content (grows : Grows P t u) (same : t.content = s.content) : Grows P s u := by
  obtain ⟨tables, -, now⟩ := content_eq_iff.1 same
  rwa [Grows, ← tables, ← now]

/-- A log grows at its end, by events of the kind. -/
theorem holds (grows : Grows P s t) (holds : s.tables.Holds log) :
    ∃ more, t.tables.Holds (log ++ more) ∧ ∀ event ∈ more, P ⟨event.type, event.data⟩ := by
  obtain ⟨drafts, fit, added⟩ := grows
  have grown := holds.push_numbered s.now fun draft present => (fit draft present).1
  refine ⟨_, grown.of_events added, fun event present => ?_⟩
  obtain ⟨draft, inDrafts, type, data⟩ := Draft.mem_numbered present
  rw [type, data]
  exact (fit draft inDrafts).2

end Grows

theorem Change.grows {now : Instant} {c : Call} {before after : Tables}
    (change : Change now c before after) :
    ∃ drafts : List Draft, (∀ draft ∈ drafts, draft.data.Legible ∧ True) ∧
      after.events = (before.push (Draft.numbered now before.lastId drafts)).events := by
  have stays : before.events = (before.push (Draft.numbered now before.lastId [])).events :=
    congrArg Tables.events (Tables.push_nil before).symm
  cases change with
  | nothing => exact ⟨[], by simp, stays⟩
  | appended drafts legible =>
    exact ⟨drafts, fun draft present => ⟨legible draft present, trivial⟩, rfl⟩
  | put => exact ⟨[], by simp, stays⟩
  | schema events => exact ⟨[], by simp, events.trans stays⟩

/-- A call adds events at the end of the table, or leaves it. -/
theorem grows_perform (c : Call) (s : Store) : Grows (fun _ => True) s (c.perform s) :=
  (leaves_perform c s).1.grows

end Growth

/-! ## Appends -/

/-- The drafts are written after everything else and the answer is their rows as they
are read back, or there is a fault and that is counted at most. -/
def Appended (drafts : List Draft) (s : Store) : Except Fault (List StoredEvent) × Store → Prop
  | (.ok rows, t) =>
      rows = (Draft.numbered s.now s.tables.lastId drafts).map StoredEvent.reread ∧
      t.tables = s.tables.push (Draft.numbered s.now s.tables.lastId drafts) ∧
      ∀ draft ∈ drafts, draft.data.Legible
  | (.error _, t) => t.content = s.content

/-- The action does so on every store. -/
def Appends (drafts : List Draft) (act : Action Store (List StoredEvent)) : Prop :=
  ∀ s, Appended drafts s (act.run s)

section Appends

variable {drafts : List Draft} {act : Action Store (List StoredEvent)} {s t : Store}

theorem Appends.of_ok (appends : Appends drafts act) {rows : List StoredEvent}
    (answered : act.run s = (.ok rows, t)) :
    rows = (Draft.numbered s.now s.tables.lastId drafts).map StoredEvent.reread ∧
      t.tables = s.tables.push (Draft.numbered s.now s.tables.lastId drafts) ∧
      ∀ draft ∈ drafts, draft.data.Legible := by
  have appended := appends s
  rwa [answered] at appended

theorem Appends.of_error (appends : Appends drafts act) {fault : Fault}
    (failed : act.run s = (.error fault, t)) : t.content = s.content := by
  have appended := appends s
  rwa [failed] at appended

theorem appended_nothing (s : Store) : Appended [] s (.ok [], s) :=
  ⟨rfl, (Tables.push_nil _).symm, by simp⟩

theorem appended_insertAll (drafts : List Draft) (s : Store)
    (counted : List StoredEvent → Metrics) :
    Appended drafts s (match Tables.insertAll s.now drafts s.tables with
      | .ok (events, tables) => (.ok events, { s with tables := tables, metrics := counted events })
      | .error fault => (.error fault, s)) := by
  cases written : Tables.insertAll s.now drafts s.tables with
  | error fault => rfl
  | ok inserted => exact Tables.insertAll_eq_ok written

theorem appends_appendBatch (drafts : List Draft) : Appends drafts (appendBatch drafts) := by
  intro s
  rw [run_appendBatch]
  split
  · subst drafts
    exact appended_nothing s
  split
  · rfl
  · exact appended_insertAll ..

theorem appends_appendIfNoNewer (drafts : List Draft) (floor : EventId) (specs : List Stream) :
    Appends drafts (appendIfNoNewer drafts floor specs) := by
  intro s
  rw [run_appendIfNoNewer]
  cases Selection.compile specs with
  | error fault => rfl
  | ok selection =>
    dsimp only
    split
    · subst drafts
      exact appended_nothing s
    -- The lock, the statement and the guard can each refuse it.
    split
    · rfl
    split
    · rfl
    split
    · rfl
    · exact appended_insertAll ..

end Appends

end Store

end Chronicle
