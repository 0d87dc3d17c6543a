import Chronicle.Proofs.Runner.Reads
import Chronicle.Runner.Projection

/-!
# States as folds of a log

A state is folded to an event when it is the fold of exactly the events of the
projection's streams up to that event, which is one of them
(`Projection.FoldedTo`). Such a state stays so whatever is written later
(`FoldedTo.grow`), and folding what a read after the event gives leads to another
one (`FoldedTo.extend`). The row of the projection is stored well when its data
are a state that is folded to the row's event (`Projection.Stored`).
-/

namespace Chronicle

/-- The state can be written, and is read back as it was. -/
def ProjectedState.Lasting {T : Type} [ProjectedState T] (state : T) : Prop :=
  ∃ data, ProjectedState.encode state = .ok data ∧ data.Legible ∧
    ProjectedState.ofJson data.reread = .ok state

namespace Projection

variable {E T : Type}

/-- Fold recorded events into a state. -/
def foldAll (P : Projection E T) (state : T) (recorded : List (Recorded E)) : T :=
  (recorded.map Recorded.event).foldl P.fold state

theorem foldAll_append (P : Projection E T) (state : T) (front back : List (Recorded E)) :
    P.foldAll state (front ++ back) = P.foldAll (P.foldAll state front) back := by
  simp [foldAll]

/-- The streams are valid and name no field with a NUL. -/
def Readable (P : Projection E T) : Prop :=
  (∀ spec ∈ P.streams, spec.Valid) ∧ ¬ (Selection.ofStreams P.streams).SpellsNul

variable {P : Projection E T}

theorem readable_of_canSelect {after : Option EventId} (valid : ∀ spec ∈ P.streams, spec.Valid)
    (prepared : P.streams ≠ [] → Statement.canSelect (.ofStreams P.streams) after) :
    P.Readable :=
  ⟨valid, Selection.not_spellsNul_of_canSelect prepared⟩

/-- Every state that folding leads to can be written and is read back. -/
def Survives [ProjectedState T] (P : Projection E T) : Prop :=
  ∀ events : List E, ProjectedState.Lasting (events.foldl P.fold P.initial)

/-- The data of a state and its last event as the row they are kept in. -/
def row (P : Projection E T) (data : Json) (event : EventId) (created updated : Instant) :
    ProjectionRow :=
  ⟨P.type, P.id, .value data, event, .instant created, .instant updated⟩

theorem read_row {data : Json} (legible : data.Legible) (event : EventId)
    (created updated : Instant) :
    (P.row data event created updated).read =
      .ok ⟨P.type, P.id, data.reread, event, created, updated⟩ := by
  simp [row, ProjectionRow.read, legible.toJson?, Stamp.read?]

/-! ## Folding up to an event -/

variable [DomainEvent E] {log more : List StoredEvent} {event : EventId} {state : T}

/-- The state is the fold of the events of the streams up to one of them. -/
structure FoldedTo (P : Projection E T) (log : List StoredEvent) (event : EventId) (state : T) :
    Prop where
  readable : P.Readable
  ends : (stretch P.streams noEvent event log).getLast?.map StoredEvent.id = some event
  folded : ∃ recorded, Client.readAll E (stretch P.streams noEvent event log) = .ok recorded ∧
    state = P.foldAll P.initial recorded

namespace FoldedTo

theorem bounds (folded : P.FoldedTo log event state) (numbered : Consecutive noEvent log) :
    noEvent < event ∧ event ≤ log.length := by
  obtain ⟨last, ends, rfl⟩ := Option.map_eq_some_iff.1 folded.ends
  obtain ⟨inLog, -, above, -⟩ := mem_stretch.1 (List.mem_of_getLast? ends)
  exact ⟨above, numbered.le_length inLog⟩

/-- What is written later changes nothing. -/
theorem grow (folded : P.FoldedTo log event state) (numbered : Consecutive noEvent (log ++ more)) :
    P.FoldedTo (log ++ more) event state := by
  have upTo := (folded.bounds (consecutive_append.1 numbered).1).2
  have same : stretch P.streams noEvent event (log ++ more) = stretch P.streams noEvent event log :=
    stretch_grow numbered upTo
  obtain ⟨readable, ends, fold⟩ := folded
  exact ⟨readable, by rwa [same], by rwa [same]⟩

/-- A fold from the start. -/
theorem of_read (readable : P.Readable) (numbered : Consecutive noEvent log) {high : EventId}
    {recorded : List (Recorded E)}
    (decoded : Client.readAll E (stretch P.streams noEvent high log) = .ok recorded)
    (ends : recorded.getLast?.map Recorded.id = some event) :
    P.FoldedTo log event (P.foldAll P.initial recorded) := by
  rw [Client.lastId_readAll decoded] at ends
  obtain ⟨last, isLast, rfl⟩ := Option.map_eq_some_iff.1 ends
  obtain ⟨-, -, -, same⟩ := stretch_after_last numbered.pairwise isLast
  exact ⟨readable, by rw [same, isLast]; rfl, recorded, by rw [same]; exact decoded, rfl⟩

/-- Folding what a read after the event gives, up to the last event that it
gives. -/
theorem extend (folded : P.FoldedTo log event state) (numbered : Consecutive noEvent log)
    {high : EventId} (reaches : event ≤ high) {recorded : List (Recorded E)}
    (decoded : Client.readAll E (stretch P.streams event high log) = .ok recorded) :
    P.FoldedTo log ((recorded.getLast?.map Recorded.id).getD event)
      (P.foldAll state recorded) := by
  obtain ⟨above, -⟩ := folded.bounds numbered
  obtain ⟨front, decodedFront, rfl⟩ := folded.folded
  -- The events up to the one it is folded to and those after it make one stretch.
  have whole :
      Client.readAll E (stretch P.streams noEvent high log) = .ok (front ++ recorded) := by
    rw [stretch_split numbered.pairwise (Int.le_of_lt above) reaches]
    exact Client.readAll_append.2 ⟨front, recorded, decodedFront, decoded, rfl⟩
  rw [← foldAll_append]
  refine of_read folded.readable numbered whole ?_
  have ends := (Client.lastId_readAll decodedFront).trans folded.ends
  rw [List.getLast?_append]
  cases last : recorded.getLast? with
  | none => simpa using ends
  | some final => rfl

/-- With a state that is folded to an event, the events after it are all that is
left to read. -/
theorem resumed (folded : P.FoldedTo log event state)
    {s : Store} (holds : s.tables.Holds log) (sound : s.poisoned = false)
    (fits : Statement.selectFits (.ofStreams P.streams) (some event)) :
    ∃ front, front.getLast?.map Recorded.id = some event ∧ state = P.foldAll P.initial front ∧
      ((Client.streams E P.streams none).run s).1 =
        ((Client.streams E P.streams (some event)).run s).1.map (front ++ ·) := by
  obtain ⟨above, within⟩ := folded.bounds holds.numbered
  obtain ⟨front, decoded, same⟩ := folded.folded
  have ends := (Client.lastId_readAll decoded).trans folded.ends
  refine ⟨front, ends, same, ?_⟩
  obtain ⟨valid, clean⟩ := folded.readable
  have canWhole := (Statement.canSelect_iff (.ofStreams P.streams) none).2
    ⟨clean, Statement.selectFits_of_floor fits⟩
  have canRest := (Statement.canSelect_iff (.ofStreams P.streams) (some event)).2 ⟨clean, fits⟩
  have whole : ((Client.streams E P.streams none).run s).1 = _ :=
    Client.run_streams_of_holds holds sound valid fun _ => canWhole
  have rest : ((Client.streams E P.streams (some event)).run s).1 = _ :=
    Client.run_streams_of_holds holds sound valid fun _ => canRest
  rw [whole, rest, Option.getD_none, Option.getD_some,
    stretch_split holds.numbered.pairwise (Int.le_of_lt above) within]
  exact Client.readAll_append_of_ok decoded

end FoldedTo

/-! ## Folds in the table -/

variable [ProjectedState T]

/-- What is written of a state that folding leads to is read back as the state. -/
theorem FoldedTo.returns (folded : P.FoldedTo log event state) (survives : P.Survives)
    {data : Json} (encoded : ProjectedState.encode state = .ok data) :
    data.Legible ∧ ProjectedState.ofJson data.reread = .ok state := by
  obtain ⟨recorded, -, rfl⟩ := folded.folded
  obtain ⟨written, encoded', legible, returns⟩ := survives (recorded.map Recorded.event)
  obtain rfl := Except.ok.inj (encoded'.symm.trans encoded)
  exact ⟨legible, returns⟩

/-- The row of the projection, if there is one, holds the data of a state and the event
that it is folded to. -/
def Stored (P : Projection E T) (t : Tables) (log : List StoredEvent) : Prop :=
  ∀ row, t.projection? P.type P.id = some row →
    ∃ state data event created updated, ProjectedState.encode state = .ok data ∧
      row = P.row data event created updated ∧ P.FoldedTo log event state

variable {t u : Tables}

theorem Stored.grow (stored : P.Stored t log) (numbered : Consecutive noEvent (log ++ more))
    (same : u.projection? P.type P.id = t.projection? P.type P.id) :
    P.Stored u (log ++ more) := by
  intro row found
  rw [same] at found
  obtain ⟨state, data, event, created, updated, encoded, sameRow, folded⟩ := stored row found
  exact ⟨state, data, event, created, updated, encoded, sameRow, folded.grow numbered⟩

theorem Stored.upsert (stored : P.Stored t log) (now : Instant) {data : Json}
    (encoded : ProjectedState.encode state = .ok data) (folded : P.FoldedTo log event state) :
    P.Stored (t.upsert now P.type P.id data event) log := by
  intro row found
  unfold Tables.projection? Tables.upsert at found
  rw [Tables.find?_putProjection, if_pos (by simp [ProjectionRow.hasKey])] at found
  obtain rfl := Option.some.inj found
  cases before : t.projection? P.type P.id with
  | none => exact ⟨state, data, event, now, now, encoded, rfl, folded⟩
  | some row =>
    obtain ⟨_, _, _, created, _, -, rfl, -⟩ := stored row before
    exact ⟨state, data, event, created, now, encoded, rfl, folded⟩

end Projection

end Chronicle
