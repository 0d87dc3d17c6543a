import Chronicle.Proofs.Json.Rereading
import Chronicle.Store.Log
import Mathlib.Data.List.Basic

/-!
# Logs

The event table as a list of events, as they were written. The library writes only rows
that it can read back, and gives each the id that follows the last one, so a table that
nothing else writes to holds a log: events numbered from one without a gap, each
with a payload that is not nested too deeply to be read (`Tables.Holds`). Queries look
at what was written; reads give it as it is read back (`StoredEvent.reread`), which can
differ in the floats of the payload.

Appending adds drafts to the log in their order, all (`Tables.insertAll_of_storable`)
or none (`Tables.insertAll_eq_ok`).
-/

namespace Chronicle

/-! ## Events as rows -/

/-- An event as the row it is kept in. -/
def StoredEvent.row (event : StoredEvent) : EventRow :=
  ⟨event.id, event.type, .value event.data, .instant event.created, .instant event.updated⟩

/-- The payload is not nested too deeply to be read. -/
def Json.Legible (data : Json) : Prop := data.depth ≤ Payload.readDepth

instance (data : Json) : Decidable data.Legible := inferInstanceAs (Decidable (_ ≤ _))

theorem Json.Legible.isStorable {data : Json} (legible : data.Legible) :
    (Payload.value data).isStorable :=
  decide_eq_true (Nat.le_trans legible (by decide))

theorem Json.Legible.toJson? {data : Json} (legible : data.Legible) :
    (Payload.value data).toJson? = some data.reread :=
  (if_neg (Nat.not_lt.2 legible)).trans data.reread?_eq

/-- An event as its row is read. -/
def StoredEvent.reread (event : StoredEvent) : StoredEvent :=
  { event with data := event.data.reread }

@[simp]
theorem StoredEvent.id_reread (event : StoredEvent) : event.reread.id = event.id := rfl

@[simp]
theorem StoredEvent.type_reread (event : StoredEvent) : event.reread.type = event.type := rfl

theorem map_reread_of_exact {events : List StoredEvent}
    (exact : ∀ event ∈ events, event.data.reread = event.data) :
    events.map StoredEvent.reread = events := by
  refine (List.map_congr_left fun event present => ?_).trans (List.map_id events)
  rw [StoredEvent.reread, exact event present]
  rfl

theorem StoredEvent.read_row_eq (event : StoredEvent) :
    event.row.read = if event.data.Legible then .ok event.reread else .error unreadable := by
  unfold EventRow.read
  by_cases deep : Payload.readDepth < event.data.depth
  · simp [row, Payload.toJson?, Payload.depth, Json.Legible, deep, Nat.not_le.2 deep]
  · simp [row, Payload.toJson?, Payload.depth, Json.Legible, Stamp.read?, deep,
      Nat.not_lt.1 deep, Json.reread?_eq, reread]

theorem StoredEvent.read_row {event : StoredEvent} (legible : event.data.Legible) :
    event.row.read = .ok event.reread := by
  rw [read_row_eq, if_pos legible]

theorem mapM_read_map_row {events : List StoredEvent}
    (legible : ∀ event ∈ events, event.data.Legible) :
    (events.map StoredEvent.row).mapM EventRow.read = .ok (events.map StoredEvent.reread) := by
  induction events with
  | nil => rfl
  | cons event rest ih =>
    have first := StoredEvent.read_row (legible event List.mem_cons_self)
    have others := ih fun e inRest => legible e (List.mem_cons_of_mem _ inRest)
    simp [first, others, bind, Except.bind, pure, Except.pure]

/-- The event that a row of the library was written for. -/
def EventRow.event? (row : EventRow) : Option StoredEvent :=
  match row.data, row.created, row.updated with
  | .value data, .instant created, .instant updated =>
    some ⟨row.id, row.type, data, created, updated⟩
  | _, _, _ => none

/-! ## Numbering -/

theorem noEvent_le (n : Nat) : noEvent ≤ (n : EventId) := Int.natCast_nonneg n

/-- Every event has the id that follows the one before it, and the first the
one that follows `last`. -/
def Consecutive : EventId → List StoredEvent → Prop
  | _, [] => True
  | last, event :: rest => event.id = last + 1 ∧ Consecutive (last + 1) rest

theorem consecutive_append {last : EventId} {log more : List StoredEvent} :
    Consecutive last (log ++ more) ↔
      Consecutive last log ∧ Consecutive (last + log.length) more := by
  induction log generalizing last with
  | nil => simp [Consecutive]
  | cons event rest ih =>
    simp only [List.cons_append, Consecutive, ih, List.length_cons, Int.natCast_add,
      Int.cast_ofNat_Int]
    rw [and_assoc, show last + 1 + (rest.length : Int) = last + (rest.length + 1) by lia]

namespace Consecutive

variable {last : EventId} {log : List StoredEvent}

theorem bounds (numbered : Consecutive last log) {event : StoredEvent} (present : event ∈ log) :
    last < event.id ∧ event.id ≤ last + log.length := by
  induction log generalizing last with
  | nil => simp at present
  | cons head rest ih =>
    obtain ⟨first, others⟩ := numbered
    rcases List.mem_cons.1 present with rfl | inRest
    · simp only [List.length_cons]
      lia
    · have := ih others inRest
      simp only [List.length_cons]
      lia

theorem le_length (numbered : Consecutive noEvent log) {event : StoredEvent}
    (present : event ∈ log) : event.id ≤ log.length := by
  have upTo := (numbered.bounds present).2
  rwa [noEvent, Int.zero_add] at upTo

/-- An id says where its event stands. -/
theorem id_eq (numbered : Consecutive last log) {k : Nat} {event : StoredEvent}
    (found : log[k]? = some event) : event.id = last + k + 1 := by
  induction log generalizing last k with
  | nil => simp at found
  | cons head rest ih =>
    obtain ⟨first, others⟩ := numbered
    cases k with
    | zero =>
      obtain rfl : head = event := by simpa using found
      simpa using first
    | succ k =>
      have later := ih others (k := k) (by simpa using found)
      lia

theorem pairwise (numbered : Consecutive last log) : log.Pairwise (·.id < ·.id) := by
  induction log generalizing last with
  | nil => exact .nil
  | cons head rest ih =>
    obtain ⟨first, others⟩ := numbered
    refine List.pairwise_cons.2 ⟨fun event inRest => ?_, ih others⟩
    have := (bounds others inRest).1
    lia

/-- The last id, or where the numbering started. -/
theorem lastId (numbered : Consecutive last log) :
    (log.getLast?.map StoredEvent.id).getD last = last + log.length := by
  induction log generalizing last with
  | nil => simp
  | cons head rest ih =>
    obtain ⟨first, others⟩ := numbered
    have rest_last := ih others
    rw [List.getLast?_cons, Option.map_some, Option.getD_some, List.length_cons]
    cases ends : rest.getLast? with
    | none =>
      rw [ends] at rest_last
      simp only [Option.map_none, Option.getD_none] at rest_last ⊢
      lia
    | some final =>
      rw [ends] at rest_last
      simp only [Option.map_some, Option.getD_some] at rest_last ⊢
      lia

end Consecutive

namespace Draft

/-- A draft as an event with an id, written at an instant. -/
def stored (draft : Draft) (id : EventId) (now : Instant) : StoredEvent :=
  ⟨id, draft.type, draft.data, now, now⟩

/-- Drafts as events, the first with the id that follows `last`. -/
def numbered (now : Instant) : EventId → List Draft → List StoredEvent
  | _, [] => []
  | last, draft :: drafts => draft.stored (last + 1) now :: numbered now (last + 1) drafts

theorem consecutive_numbered (now : Instant) (last : EventId) (drafts : List Draft) :
    Consecutive last (numbered now last drafts) := by
  induction drafts generalizing last with
  | nil => trivial
  | cons draft drafts ih => exact ⟨rfl, ih (last + 1)⟩

/-- Numbering changes neither types nor payloads. -/
theorem map_numbered {α : Type} (f : String → Json → α) (now : Instant) (last : EventId)
    (drafts : List Draft) :
    (numbered now last drafts).map (fun event => f event.type event.data) =
      drafts.map fun draft => f draft.type draft.data := by
  induction drafts generalizing last with
  | nil => rfl
  | cons draft drafts ih => simp [numbered, stored, ih]

theorem length_numbered (now : Instant) (last : EventId) (drafts : List Draft) :
    (numbered now last drafts).length = drafts.length := by
  simpa using congrArg List.length (map_numbered Prod.mk now last drafts)

theorem mem_numbered {now : Instant} {last : EventId} {drafts : List Draft} {event : StoredEvent}
    (present : event ∈ numbered now last drafts) :
    ∃ draft ∈ drafts, event.type = draft.type ∧ event.data = draft.data := by
  have inImage : (event.type, event.data) ∈ drafts.map fun draft => (draft.type, draft.data) := by
    rw [← map_numbered Prod.mk now last]
    exact List.mem_map_of_mem present
  obtain ⟨draft, inDrafts, same⟩ := List.mem_map.1 inImage
  simp only [Prod.mk.injEq] at same
  exact ⟨draft, inDrafts, same.1.symm, same.2.symm⟩

theorem exists_numbered {now : Instant} {last : EventId} {drafts : List Draft} {draft : Draft}
    (present : draft ∈ drafts) :
    ∃ event ∈ numbered now last drafts, event.type = draft.type ∧ event.data = draft.data := by
  have inImage : (draft.type, draft.data) ∈
      (numbered now last drafts).map fun event => (event.type, event.data) := by
    rw [map_numbered Prod.mk now last]
    exact List.mem_map_of_mem present
  obtain ⟨event, inEvents, same⟩ := List.mem_map.1 inImage
  simp only [Prod.mk.injEq] at same
  exact ⟨event, inEvents, same.1, same.2⟩

end Draft

/-! ## Tables that hold a log -/

namespace Tables

/-- The events that were written by the library, as they were written. -/
def log (t : Tables) : List StoredEvent := t.events.filterMap EventRow.event?

/-- The tables after some events were added. -/
def push (t : Tables) (events : List StoredEvent) : Tables :=
  { t with events := t.events ++ events.map StoredEvent.row }

/-- The event table holds nothing but a log. -/
structure Holds (t : Tables) (log : List StoredEvent) : Prop where
  rows : t.events = log.map StoredEvent.row
  numbered : Consecutive noEvent log
  legible : ∀ event ∈ log, event.data.Legible

namespace Holds

variable {t : Tables} {log : List StoredEvent}

/-- The log is what was written. -/
theorem log_eq (holds : t.Holds log) : t.log = log := by
  rw [Tables.log, holds.rows, List.filterMap_map]
  exact List.filterMap_some

theorem lastId_eq (holds : t.Holds log) : t.lastId = log.length := by
  have byLog := holds.numbered.lastId
  rw [Tables.lastId, holds.rows, List.getLast?_map, Option.map_map,
    show EventRow.id ∘ StoredEvent.row = StoredEvent.id from rfl, byLog]
  simp [noEvent]

/-- Only the event table matters. -/
theorem of_events {u : Tables} (holds : t.Holds log) (events : u.events = t.events) :
    u.Holds log :=
  ⟨events.trans holds.rows, holds.numbered, holds.legible⟩

theorem push (holds : t.Holds log) {events : List StoredEvent}
    (numbered : Consecutive t.lastId events) (legible : ∀ event ∈ events, event.data.Legible) :
    (t.push events).Holds (log ++ events) where
  rows := by simp [Tables.push, holds.rows]
  numbered := by
    rw [holds.lastId_eq] at numbered
    exact consecutive_append.2 ⟨holds.numbered, by simpa [noEvent] using numbered⟩
  legible := List.forall_mem_append.2 ⟨holds.legible, legible⟩

/-- Drafts that are written follow the log. -/
theorem push_numbered (holds : t.Holds log) (now : Instant) {drafts : List Draft}
    (legible : ∀ draft ∈ drafts, draft.data.Legible) :
    (t.push (Draft.numbered now t.lastId drafts)).Holds
      (log ++ Draft.numbered now t.lastId drafts) := by
  refine holds.push (Draft.consecutive_numbered ..) fun row written => ?_
  obtain ⟨draft, inDrafts, -, data⟩ := Draft.mem_numbered written
  exact data ▸ legible draft inDrafts

end Holds

/-! ## Writing drafts -/

theorem lastId_push_singleton (t : Tables) (event : StoredEvent) :
    (t.push [event]).lastId = event.id := by
  simp [push, lastId, StoredEvent.row]

theorem push_push (t : Tables) (events more : List StoredEvent) :
    (t.push events).push more = t.push (events ++ more) := by
  simp [push]

theorem push_nil (t : Tables) : t.push [] = t := by simp [push]

/-- A draft is written when its type is not barred and its payload can be
written and read. -/
theorem insert_of_storable {t : Tables} {now : Instant} {draft : Draft} (unbarred : t.barred = [])
    (legible : draft.data.Legible) :
    t.insert now draft =
      .ok ((draft.stored (t.lastId + 1) now).reread,
        t.push [draft.stored (t.lastId + 1) now]) := by
  have storable := legible.isStorable
  have reads : (draft.stored (t.lastId + 1) now).row.read =
      .ok (draft.stored (t.lastId + 1) now).reread := StoredEvent.read_row legible
  rw [StoredEvent.row, Draft.stored] at reads
  simp [insert, insertRow, storable, unbarred, bind, Except.bind, pure, Except.pure, reads, push,
    Draft.stored, StoredEvent.row]

theorem insertAll_of_storable {now : Instant} {drafts : List Draft} {t : Tables}
    (unbarred : t.barred = []) (legible : ∀ draft ∈ drafts, draft.data.Legible) :
    insertAll now drafts t =
      .ok ((Draft.numbered now t.lastId drafts).map StoredEvent.reread,
        t.push (Draft.numbered now t.lastId drafts)) := by
  induction drafts generalizing t with
  | nil => simp [insertAll, Draft.numbered, push_nil]
  | cons draft drafts ih =>
    have first : t.insert now draft = .ok _ :=
      insert_of_storable unbarred (legible draft List.mem_cons_self)
    have rest := ih (t := t.push [draft.stored (t.lastId + 1) now]) unbarred
      fun d inRest => legible d (List.mem_cons_of_mem _ inRest)
    rw [lastId_push_singleton] at rest
    simp only [insertAll, first, rest, bind, Except.bind, pure, Except.pure, push_push]
    rfl

/-- What was written are the drafts in their order, after all that was there, and it is
given as it is read back. -/
theorem insertAll_eq_ok {now : Instant} {drafts : List Draft} {t after : Tables}
    {events : List StoredEvent} (written : insertAll now drafts t = .ok (events, after)) :
    events = (Draft.numbered now t.lastId drafts).map StoredEvent.reread ∧
      after = t.push (Draft.numbered now t.lastId drafts) ∧
      ∀ draft ∈ drafts, draft.data.Legible := by
  induction drafts generalizing t after events with
  | nil =>
    simp only [insertAll, Except.ok.injEq, Prod.mk.injEq] at written
    obtain ⟨rfl, rfl⟩ := written
    simp [Draft.numbered, push_nil]
  | cons draft drafts ih =>
    simp only [insertAll, bind, Except.bind, pure, Except.pure] at written
    split at written
    · simp at written
    rename_i pair inserted
    obtain ⟨event, grown⟩ := pair
    -- The row was read back when it was written, so its payload is legible.
    obtain ⟨row, rfl, reads, rfl⟩ := insert_eq_ok inserted
    have same : (draft.stored (t.lastId + 1) now).row.read = .ok event := reads
    rw [StoredEvent.read_row_eq] at same
    split at same
    · rename_i legible
      obtain rfl := Except.ok.inj same
      split at written
      · simp at written
      rename_i pair rest
      obtain ⟨later, last⟩ := pair
      simp only [Except.ok.injEq, Prod.mk.injEq] at written
      obtain ⟨rfl, rfl⟩ := written
      obtain ⟨rfl, rfl, legibleRest⟩ := ih (t := t.push [draft.stored (t.lastId + 1) now]) rest
      refine ⟨?_, ?_, ?_⟩
      · rw [lastId_push_singleton]
        rfl
      · rw [lastId_push_singleton]
        exact push_push ..
      · exact List.forall_mem_cons.2 ⟨legible, legibleRest⟩
    · simp at same

end Tables

end Chronicle
