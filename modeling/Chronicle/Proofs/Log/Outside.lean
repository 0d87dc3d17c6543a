import Chronicle.Proofs.Log.Guard
import Chronicle.Store.Intervention

/-!
# Databases that others write to

Other programs may put rows of any kind into a database, so its event table need not hold
a log. What still holds is that event ids grow from row to row (`Tables.Ordered`): in every
store that comes from a new one by calls, crashes and interventions from outside
(`Store.Arises.ordered`).
-/

namespace Chronicle

/-- The row can be read. -/
def EventRow.Readable (row : EventRow) : Prop := ∃ event, row.read = .ok event

theorem EventRow.id_of_read {row : EventRow} {event : StoredEvent} (reads : row.read = .ok event) :
    event.id = row.id := by
  unfold read at reads
  split at reads
  · obtain rfl := Except.ok.inj reads
    rfl
  · cases reads

namespace Tables

/-- Event ids grow from row to row. -/
def Ordered (t : Tables) : Prop := t.events.Pairwise (·.id < ·.id)

variable {t u : Tables}

theorem Holds.ordered {log : List StoredEvent} (holds : t.Holds log) : t.Ordered := by
  show t.events.Pairwise (·.id < ·.id)
  rw [holds.rows, List.pairwise_map]
  exact holds.numbered.pairwise

namespace Ordered

theorem of_events (ordered : t.Ordered) (events : u.events = t.events) : u.Ordered := by
  show u.events.Pairwise (·.id < ·.id)
  rw [events]
  exact ordered

theorem le_lastId (ordered : t.Ordered) {row : EventRow} (present : row ∈ t.events) :
    row.id ≤ t.lastId := by
  unfold lastId
  rcases List.eq_nil_or_concat t.events with none | ⟨front, last, split⟩
  · rw [none] at present
    cases present
  · rw [Ordered, split, List.concat_eq_append] at ordered
    rw [split, List.concat_eq_append] at present
    rw [split, List.concat_eq_append, List.getLast?_concat, Option.map_some, Option.getD_some]
    rcases List.mem_append.1 present with inFront | isLast
    · exact Int.le_of_lt ((List.pairwise_append.1 ordered).2.2 row inFront last (by simp))
    · rw [List.mem_singleton.1 isLast]

/-- Rows with growing ids after the last one keep the order. -/
theorem append (ordered : t.Ordered) {rows : List EventRow} (grows : rows.Pairwise (·.id < ·.id))
    (after : ∀ row ∈ rows, t.lastId < row.id) :
    Ordered { t with events := t.events ++ rows } := by
  refine List.pairwise_append.2 ⟨ordered, grows, fun row present new inRows => ?_⟩
  exact Int.lt_of_le_of_lt (ordered.le_lastId present) (after new inRows)

theorem push_numbered (ordered : t.Ordered) (now : Instant) (drafts : List Draft) :
    (t.push (Draft.numbered now t.lastId drafts)).Ordered := by
  have numbered := Draft.consecutive_numbered now t.lastId drafts
  refine ordered.append (List.pairwise_map.2 numbered.pairwise) fun row present => ?_
  obtain ⟨event, inDrafts, rfl⟩ := List.mem_map.1 present
  exact (numbered.bounds inDrafts).1

theorem insertRow (ordered : t.Ordered) {type : String} {data : Payload} {created updated : Stamp}
    {row : EventRow} (written : t.insertRow type data created updated = .ok (row, u)) :
    u.Ordered := by
  obtain ⟨rfl, rfl⟩ := insertRow_eq_ok written
  exact ordered.append (List.pairwise_singleton ..) fun new isNew => by
    rw [List.mem_singleton.1 isNew]
    exact Int.lt_succ _

end Ordered

end Tables

namespace Store

variable {s t : Store}

theorem Change.ordered {now : Instant} {c : Call} {t u : Tables} (change : Change now c t u)
    (ordered : t.Ordered) : u.Ordered := by
  cases change with
  | nothing => exact ordered
  | appended drafts => exact ordered.push_numbered now drafts
  | put => exact ordered.of_events rfl
  | schema events => exact ordered.of_events events

theorem Step.ordered (step : Step s t) (ordered : s.tables.Ordered) : t.tables.Ordered := by
  cases step with
  | call c => exact (leaves_perform c s).1.ordered ordered
  | meanwhile => exact ordered

/-- A change to a database that does not go through the library. -/
inductive Intervention : Action Store Unit → Prop
  | setVersion (version : Int) : Intervention (setVersion version)
  | dropVersion : Intervention dropVersion
  | refuseType (type : String) : Intervention (refuseType type)
  | writeEvent (type text created updated : String) :
    Intervention (writeEvent type text created updated)
  | writeProjection (type id text : String) (event : EventId) (created updated : String) :
    Intervention (writeProjection type id text event created updated)
  | poison : Intervention poison

/-- A change of the tables that keeps their order keeps that of a store. -/
theorem ordered_intervene {change : Tables → Except Fault Tables} (ordered : s.tables.Ordered)
    (keeps : ∀ u, change s.tables = .ok u → u.Ordered) :
    ((intervene change).run s).2.tables.Ordered := by
  unfold intervene
  simp only [Action.run_bind, run_lock, Action.run_get, Action.run_ofExcept]
  cases s.poisoned with
  | true => exact ordered
  | false =>
    cases changed : change s.tables with
    | error fault => simpa [changed] using ordered
    | ok u => simpa [changed] using keeps u changed

theorem Intervention.ordered {act : Action Store Unit} (outside : Intervention act)
    (ordered : s.tables.Ordered) : (act.run s).2.tables.Ordered := by
  cases outside with
  | setVersion version =>
    refine ordered_intervene ordered fun u changed => ?_
    obtain rfl := Except.ok.inj changed
    exact ordered.of_events rfl
  | dropVersion =>
    refine ordered_intervene ordered fun u changed => ?_
    obtain rfl := Except.ok.inj changed
    exact ordered.of_events rfl
  | refuseType type =>
    refine ordered_intervene ordered fun u changed => ?_
    obtain rfl := Except.ok.inj changed
    exact ordered.of_events rfl
  | writeEvent type text created updated =>
    refine ordered_intervene ordered fun u changed => ?_
    cases given : readPayload text with
    | error fault => simp [given, bind, Except.bind] at changed
    | ok data =>
      cases written : s.tables.insertRow type data (.verbatim created) (.verbatim updated) with
      | error fault => simp [given, written, bind, Except.bind] at changed
      | ok pair =>
        simp only [given, written, bind, Except.bind, pure, Except.pure, Except.ok.injEq] at changed
        exact changed ▸ ordered.insertRow written
  | writeProjection type id text event created updated =>
    refine ordered_intervene ordered fun u changed => ?_
    cases given : readPayload text with
    | error fault => simp [given, bind, Except.bind] at changed
    | ok data =>
      simp only [given, bind, Except.bind, pure, Except.pure] at changed
      split at changed
      · cases changed
      · obtain rfl := Except.ok.inj changed
        exact ordered.of_events rfl
  | poison => exact ordered

/-- The stores that come from new ones, with other programs at work on the database. -/
inductive Arises : Store → Prop
  | new (now : Instant) : Arises (new now)
  | step {s t : Store} (arises : Arises s) (step : Step s t) : Arises t
  | outside {s : Store} {act : Action Store Unit} (arises : Arises s)
    (outside : Intervention act) : Arises (act.run s).2

theorem Arises.ordered (arises : s.Arises) : s.tables.Ordered := by
  induction arises with
  | new now => exact (holds_new now).ordered
  | step _ step ih => exact step.ordered ih
  | outside _ outside ih => exact outside.ordered ih

theorem Reachable.arises (reachable : s.Reachable) : s.Arises := by
  induction reachable with
  | new now => exact .new now
  | step _ step ih => exact ih.step step
  | crash _ ih => exact ih.outside .poison

end Store

end Chronicle
