import Chronicle.Proofs.Query.Names
import Chronicle.Proofs.Runner.Effects
import Chronicle.Proofs.Todo.Codec
import Chronicle.Proofs.Todo.Items
import Chronicle.Todo.Rules

/-!
# The history of a list

Rows that were written in canonical form and read as to-do events are selected by the
streams of a list as the events say: by their list, their type and their item
(`StoredEvent.Shows`). What the projection of a list reads in a log is the history of
the list (`Todo.Tells`). Its validators read parts of that history, and each runner
answers what its rule says of its part (`Todo.Tells.run_state`,
`Todo.Tells.decode_adding`, `Todo.Tells.decode_item`).
-/

namespace Chronicle

namespace Todo.Event

/-- The event is folded into the state of a list. -/
def concerns (list : String) : Event → Bool
  | listCreated _ owner _ | itemAdded owner _ _ | itemRemoved _ owner _
  | itemCompleted _ owner _ | itemMarkedIncomplete _ owner _ => owner = list
  | _ => false

/-- An event of a list has no float, so that it comes back as it was. -/
theorem back_of_concerns {e : Event} {list : String} (about : e.concerns list) :
    e.Finite ∧ e.reread = e := by
  cases e <;> first | exact ⟨trivial, rfl⟩ | cases about

/-- The item that an event adds, removes, completes or reopens. -/
def item? : Event → Option String
  | itemAdded _ item _ | itemRemoved _ _ item | itemCompleted _ _ item
  | itemMarkedIncomplete _ _ item => some item
  | _ => none

end Todo.Event

namespace Todo

/-- Every event of the history fits what came before it. -/
inductive Throughout (fits : List Event → Event → Prop) : List Event → Prop
  | nil : Throughout fits []
  | snoc {history : List Event} {e : Event} (kept : Throughout fits history)
    (fit : fits history e) : Throughout fits (history ++ [e])

variable {fits : List Event → Event → Prop} {front rest : List Event} {e : Event}

theorem throughout_append_singleton :
    Throughout fits (front ++ [e]) ↔ Throughout fits front ∧ fits front e := by
  constructor
  · intro kept
    generalize grown : front ++ [e] = history at kept
    cases kept with
    | nil => simp at grown
    | snoc kept fit =>
      obtain ⟨rfl, same⟩ := List.append_inj' grown rfl
      obtain rfl := List.singleton_inj.1 same
      exact ⟨kept, fit⟩
  · rintro ⟨kept, fit⟩
    exact kept.snoc fit

theorem Throughout.of_append (kept : Throughout fits (front ++ rest)) : Throughout fits front := by
  induction rest using List.reverseRecOn with
  | nil => rwa [List.append_nil] at kept
  | append_singleton rest e ih =>
    rw [← List.append_assoc, throughout_append_singleton] at kept
    exact ih kept.1

theorem Throughout.append (kept : Throughout fits front)
    (any : ∀ e ∈ rest, ∀ before, fits before e) : Throughout fits (front ++ rest) := by
  induction rest using List.reverseRecOn with
  | nil => rwa [List.append_nil]
  | append_singleton rest e ih =>
    obtain ⟨earlier, last⟩ := List.forall_mem_append.1 any
    rw [← List.append_assoc]
    exact (ih earlier).snoc (last e (List.mem_singleton_self e) _)

theorem Throughout.fit_of_append (kept : Throughout fits (front ++ e :: rest)) : fits front e := by
  rw [List.append_cons] at kept
  exact (throughout_append_singleton.1 kept.of_append).2

theorem throughout_iff : Throughout fits front ↔
    ∀ n (within : n < front.length), fits (front.take n) front[n] := by
  constructor
  · intro kept n within
    rw [← List.take_append_drop n front, List.drop_eq_getElem_cons within] at kept
    exact kept.fit_of_append
  · intro all
    induction front using List.reverseRecOn with
    | nil => exact .nil
    | append_singleton front e ih =>
      have last := all front.length (by simp)
      rw [List.take_left, List.getElem_concat_length rfl] at last
      refine (ih fun n within => ?_).snoc last
      have earlier := all n (by rw [List.length_append]; exact Nat.lt_add_right 1 within)
      rwa [List.take_append_of_le_length within.le, List.getElem_append_left within] at earlier

instance [∀ before e, Decidable (fits before e)] : Decidable (Throughout fits front) :=
  decidable_of_iff _ throughout_iff.symm

end Todo

open Todo

/-! ## Rows -/

/-- The row is in canonical form and is read as the event. -/
structure StoredEvent.Shows (row : StoredEvent) (e : Event) : Prop where
  canonical : row.data.Canonical
  reads : DomainEvent.ofRaw row.type row.data.reread = .ok e

namespace Todo

variable {list item owner x : String} {types : List String} {data : Json}

/-- A condition that asks for a text asks for the member that has it. -/
theorem holds_text {name v w : String} (plain : IsPlain name) (canonical : data.Canonical)
    (present : data.member? name = some (.string v)) :
    ((Condition.compare .eq (.text w)).test name).holds (.value data) = decide (v = w) := by
  rw [Bool.eq_iff_iff, decide_eq_true_eq, eq_comm (a := v)]
  exact (decidedByMember plain).text data v w canonical present

theorem has_listStream {type : String} (canonical : data.Canonical)
    (owned : data.reread.member? "listId" = some (.string owner)) :
    (listStream types list).has type data = (types.contains type && decide (owner = list)) := by
  have tests : (listStream types list).tests =
      [(Condition.compare .eq (.text list)).test "listId"] := rfl
  rw [Stream.has, tests, holdsAll, List.all_cons, List.all_nil, Bool.and_true,
    holds_text (by decide) canonical (Json.member?_of_reread owned)]
  rfl

theorem has_itemStream {type : String} (canonical : data.Canonical)
    (owned : data.reread.member? "listId" = some (.string owner))
    (about : data.reread.member? "itemId" = some (.string x)) :
    (itemStream list item).has type data =
      ((itemStream list item).types.contains type &&
        (decide (owner = list) && decide (x = item))) := by
  have tests : (itemStream list item).tests =
      [(Condition.compare .eq (.text list)).test "listId",
        (Condition.compare .eq (.text item)).test "itemId"] := rfl
  rw [Stream.has, tests, holdsAll, List.all_cons, List.all_cons, List.all_nil, Bool.and_true,
    holds_text (by decide) canonical (Json.member?_of_reread owned),
    holds_text (by decide) canonical (Json.member?_of_reread about)]

/-- A stream of fewer types with more tests has less. -/
theorem has_of_within {s t : Stream} {type : String} (fewer : s.types ⊆ t.types)
    (more : t.tests ⊆ s.tests) (has : s.has type data) : t.has type data := by
  rw [Stream.has, Bool.and_eq_true, List.contains_iff_mem, holdsAll, List.all_eq_true] at has ⊢
  exact ⟨fewer has.1, fun test present => has.2 test (more present)⟩

theorem has_of_type {s : Stream} {type : String} (other : type ∉ s.types) :
    s.has type data = false := by
  rw [Stream.has, List.contains_eq_mem, decide_eq_false other, Bool.false_and]

end Todo

namespace StoredEvent.Shows

variable {row : StoredEvent} {e : Event} {list item : String}

theorem shown (shows : row.Shows e) :
    e.type = row.type ∧ e.Shown fun name => row.data.reread.member? name :=
  (Event.ofRaw_iff (Json.canonical_reread shows.canonical)).1 shows.reads

theorem isOf_projection (shows : row.Shows e) :
    row.isOf (listProjection list).streams = e.concerns list := by
  obtain ⟨typed, shown⟩ := shows.shown
  rw [isOf, listProjection, List.any_cons, List.any_nil, Bool.or_false, ← typed]
  cases e
  case listDeleted | itemCompletionSet | itemPrioritySet | sample =>
    exact has_of_type (by simp [Event.type, listStream])
  case listCreated => rw [has_listStream shows.canonical shown.2.1]; rfl
  case itemAdded => rw [has_listStream shows.canonical shown.1]; rfl
  all_goals rw [has_listStream shows.canonical shown.2.1]; rfl

theorem isOf_adding (shows : row.Shows e) :
    row.isOf (addItem list).streams = (e.concerns list && e.item?.isSome) := by
  obtain ⟨typed, shown⟩ := shows.shown
  rw [isOf, addItem, List.any_cons, List.any_nil, Bool.or_false, ← typed]
  cases e
  case listCreated | listDeleted | itemCompletionSet | itemPrioritySet | sample =>
    rw [has_of_type (by simp [Event.type, listStream])]
    simp [Event.item?]
  case itemAdded =>
    rw [has_listStream shows.canonical shown.1]
    simp [Event.type, Event.concerns, Event.item?]
  all_goals
    rw [has_listStream shows.canonical shown.2.1]
    simp [Event.type, Event.concerns, Event.item?]

theorem isOf_item (shows : row.Shows e) :
    row.isOf [itemStream list item] = (e.concerns list && decide (e.item? = some item)) := by
  obtain ⟨typed, shown⟩ := shows.shown
  rw [isOf, List.any_cons, List.any_nil, Bool.or_false, ← typed]
  cases e
  case listCreated | listDeleted | itemCompletionSet | itemPrioritySet | sample =>
    rw [has_of_type (by simp [Event.type, itemStream])]
    simp [Event.item?]
  case itemAdded =>
    rw [has_itemStream shows.canonical shown.1 shown.2.1]
    simp [Event.type, itemStream, Event.concerns, Event.item?]
  all_goals
    rw [has_itemStream shows.canonical shown.2.1 shown.2.2]
    simp [Event.type, itemStream, Event.concerns, Event.item?]

/-- What an event is written as shows it, if it comes back as it was. -/
theorem numbered {now : Instant} {id : EventId} (finite : e.Finite) (same : e.reread = e) :
    (Draft.stored ⟨e.type, e.data⟩ id now).Shows e :=
  ⟨e.canonical_data, (Event.ofRaw_reread finite).trans (congrArg Except.ok same)⟩

end StoredEvent.Shows

/-- Rows that show events decode to them. -/
theorem Client.readAll_of_shows {rows : List StoredEvent} {events : List Event}
    (shown : List.Forall₂ StoredEvent.Shows rows events) :
    ∃ recorded : List (Recorded Event),
      readAll Event rows = .ok recorded ∧ recorded.map Recorded.event = events := by
  induction shown with
  | nil => exact ⟨[], rfl, rfl⟩
  | @cons row e rows events first _ ih =>
    obtain ⟨recorded, decoded, rfl⟩ := ih
    refine ⟨⟨row.id, e, row.created, row.updated⟩ :: recorded,
      readAll_cons.2 ⟨_, _, ?_, decoded, rfl⟩, rfl⟩
    rw [Recorded.decode, StoredEvent.reread, first.reads]
    rfl

/-! ## The history of a list -/

namespace Todo

/-- What the projection of a list reads in the log shows these events, in order. -/
def Tells (log : List StoredEvent) (list : String) (history : List Event) : Prop :=
  List.Forall₂ StoredEvent.Shows (log.filter (StoredEvent.isOf (listProjection list).streams))
    history

namespace Tells

variable {log more : List StoredEvent} {list : String} {history events : List Event}

theorem empty (list : String) : Tells [] list [] := List.Forall₂.nil

theorem append (tells : Tells log list history) (shown : Tells more list events) :
    Tells (log ++ more) list (history ++ events) := by
  rw [Tells, List.filter_append]
  exact List.rel_append tells shown

theorem unique (tells : Tells log list history) (others : Tells log list events) :
    history = events := by
  refine List.right_unique_forall₂' (fun row e e' shows shows' => ?_) tells others
  exact Except.ok.inj (shows.reads.symm.trans shows'.reads)

/-- The events of a history are about the list. -/
theorem concerns (tells : Tells log list history) : ∀ e ∈ history, e.concerns list := by
  have selected : ∀ row ∈ log.filter (StoredEvent.isOf (listProjection list).streams),
      row.isOf (listProjection list).streams := fun row present => (List.mem_filter.1 present).2
  unfold Tells at tells
  generalize log.filter (StoredEvent.isOf (listProjection list).streams) = rows at tells selected
  induction tells with
  | nil => simp
  | cons first _ ih =>
    obtain ⟨selectedFirst, others⟩ := List.forall_mem_cons.1 selected
    exact List.forall_mem_cons.2 ⟨first.isOf_projection ▸ selectedFirst, ih others⟩

/-- Streams within those of the list give the part of its history that they select. -/
theorem decode_within (tells : Tells log list history) {specs : List Stream} {part : Event → Bool}
    (within : ∀ row : StoredEvent, row.isOf specs → row.isOf (listProjection list).streams)
    (selects : ∀ (row : StoredEvent) (e : Event), row.Shows e →
      row.isOf specs = (e.concerns list && part e)) :
    ∃ recorded : List (Recorded Event),
      Client.readAll Event (log.filter (StoredEvent.isOf specs)) = .ok recorded ∧
        recorded.map Recorded.event = history.filter part := by
  have inside : log.filter (StoredEvent.isOf specs) =
      (log.filter (StoredEvent.isOf (listProjection list).streams)).filter
        (StoredEvent.isOf specs) := by
    rw [List.filter_filter]
    refine List.filter_congr fun row _ => ?_
    cases selected : row.isOf specs with
    | false => rfl
    | true => exact (within row selected).symm
  have parts : history.filter part = history.filter fun e => e.concerns list && part e :=
    List.filter_congr fun e present => by rw [tells.concerns e present, Bool.true_and]
  rw [inside, parts]
  refine Client.readAll_of_shows (List.rel_filter (fun row e shows => ?_) tells)
  exact iff_of_eq (congrArg (· = true) (selects row e shows))

theorem decode_projection (tells : Tells log list history) :
    ∃ recorded : List (Recorded Event),
      Client.readAll Event (log.filter (StoredEvent.isOf (listProjection list).streams)) =
        .ok recorded ∧ recorded.map Recorded.event = history :=
  Client.readAll_of_shows tells

/-- The events that count towards the limit of a list. -/
theorem decode_adding (tells : Tells log list history) :
    ∃ recorded : List (Recorded Event),
      Client.readAll Event (log.filter (StoredEvent.isOf (addItem list).streams)) =
        .ok recorded ∧ recorded.map Recorded.event = history.filter (·.item?.isSome) := by
  refine tells.decode_within (fun row selected => ?_) fun row e shows => shows.isOf_adding
  rw [StoredEvent.isOf, addItem, List.any_cons, List.any_nil, Bool.or_false] at selected
  rw [StoredEvent.isOf, listProjection, List.any_cons, List.any_nil, Bool.or_false]
  refine has_of_within ?_ ?_ selected
  · simp [listStream]
  · exact List.Subset.refl (listStream _ list).tests

/-- The events of one item. -/
theorem decode_item (tells : Tells log list history) (item : String) :
    ∃ recorded : List (Recorded Event),
      Client.readAll Event (log.filter (StoredEvent.isOf [itemStream list item])) =
        .ok recorded ∧ recorded.map Recorded.event = history.filter (·.item? = some item) := by
  refine tells.decode_within (fun row selected => ?_) fun row e shows => shows.isOf_item
  rw [StoredEvent.isOf, List.any_cons, List.any_nil, Bool.or_false] at selected
  rw [StoredEvent.isOf, listProjection, List.any_cons, List.any_nil, Bool.or_false]
  refine has_of_within ?_ (List.subset_append_left (listStream _ list).tests [_]) selected
  simp [listStream, itemStream]

end Tells

end Todo

/-! ## What fresh runners answer -/

section Fresh

variable {E T : Type} [DomainEvent E] {s : Store} {log : List StoredEvent}
  {recorded : List (Recorded E)}

/-- A client that reads valid streams from the start gets all that is decoded. -/
theorem Client.run_streams_from_start {specs : List Stream} (holds : s.tables.Holds log)
    (sound : s.poisoned = false) (valid : ∀ spec ∈ specs, spec.Valid)
    (prepared : Statement.canSelect (.ofStreams specs) none)
    (decoded : readAll E (log.filter (StoredEvent.isOf specs)) = .ok recorded) :
    ((streams E specs none).run s).1 = .ok recorded := by
  rw [run_streams_of_holds holds sound valid fun _ => prepared, ← filter_after holds.numbered]
  simpa using decoded

/-- A projection runner that starts from nothing folds all that it reads. -/
theorem ProjectionRunner.run_state_fresh [ProjectedState T] {P : Projection E T}
    (answered : ((Client.streams E P.streams none).run s).1 = .ok recorded) :
    (state.run (ofProjection P ⟨false⟩, s)).1 =
      .ok ((recorded.map Recorded.event).foldl P.fold P.initial) := by
  rw [run_state, run_load, existing_full]
  dsimp only
  rw [run_events_cached rfl rfl]
  dsimp only [floor, Option.map_none, Option.filter_none]
  rcases ran : (Client.streams E P.streams none).run s with ⟨answer, t⟩
  obtain rfl : answer = .ok recorded := by rw [ran] at answered; exact answered
  simp [View.reduce, View.events, History.empty]

/-- A validation runner with one event staged sees it after all that it reads. -/
theorem ValidationRunner.run_events_fresh {V : Validator E} {e : E}
    (answered : ((Client.streams E V.streams none).run s).1 = .ok recorded) :
    (events.run ((ofValidator V).stage e, s)).1 = .ok ⟨recorded, [e]⟩ := by
  rw [run_events]
  dsimp only [ofValidator, stage, History.stage, History.empty]
  rcases ran : (Client.streams E V.streams none).run s with ⟨answer, t⟩
  obtain rfl : answer = .ok recorded := by rw [ran] at answered; exact answered
  rfl

/-- It judges the event by that. -/
theorem ValidationRunner.run_validate_fresh {V : Validator E} {e : E}
    (answered : ((Client.streams E V.streams none).run s).1 = .ok recorded) :
    (validate.run ((ofValidator V).stage e, s)).1 = V.accepts ⟨recorded, [e]⟩ := by
  have loaded := run_events_fresh (e := e) answered
  unfold validate
  rw [Action.run_bind]
  rcases ran : events.run ((ofValidator V).stage e, s) with ⟨answer, r, t⟩
  obtain rfl : answer = .ok ⟨recorded, [e]⟩ := by rw [ran] at loaded; exact loaded
  have rule : r.validator = V := (events_again ran).2.1
  simp [Action.run_bind, rule]

end Fresh

namespace Todo

/-- A stream that asks for texts in fields with valid names is valid. -/
theorem valid_of_texts (types : List String) (texts : List (String × String))
    (named : ∀ t ∈ texts, Filter.checkName t.1 = .ok ()) :
    (Stream.mk types (some (.build
      (texts.map fun t => (t.1, .compare .eq (.text t.2)))))).Valid := by
  intro filter given
  obtain rfl := Option.some.inj given
  refine Filter.valid_build fun call present => ?_
  obtain ⟨t, inTexts, rfl⟩ := List.mem_map.1 present
  exact ⟨named t inTexts, rfl⟩

theorem valid_listStream (types : List String) (list : String) : (listStream types list).Valid :=
  valid_of_texts types [("listId", list)] (by simp [Filter.checkName])

theorem valid_itemStream (list item : String) : (itemStream list item).Valid :=
  valid_of_texts (itemStream list item).types [("listId", list), ("itemId", item)]
    (by simp [Filter.checkName])

theorem not_hasNul_ids : ¬ HasNul "listId" ∧ ¬ HasNul "itemId" := by decide

/-- A stream without a NUL in a name can be read when its statement fits. -/
theorem canSelect_of_clean {spec : Stream} (clean : ¬ spec.SpellsNul)
    (fits : Statement.selectFits (.ofStreams [spec]) none) :
    Statement.canSelect (.ofStreams [spec]) none := by
  refine (Statement.canSelect_iff _ _).2 ⟨?_, fits⟩
  rw [Selection.spellsNul_ofStreams]
  rintro ⟨spec, present, spells⟩
  obtain rfl := List.mem_singleton.1 present
  exact clean spells

theorem not_spellsNul_listStream (types : List String) (list : String) :
    ¬ (listStream types list).SpellsNul := by
  rintro ⟨-, filter, given, entry, present, nul⟩
  obtain rfl := Option.some.inj given
  obtain rfl : entry = ("listId", .compare .eq (.text list)) := List.mem_singleton.1 present
  exact not_hasNul_ids.1 nul

theorem canSelect_projection (list : String) :
    Statement.canSelect (.ofStreams (listProjection list).streams) none :=
  canSelect_of_clean (not_spellsNul_listStream _ list) rfl

theorem canSelect_adding (list : String) :
    Statement.canSelect (.ofStreams (addItem list).streams) none :=
  canSelect_of_clean (not_spellsNul_listStream _ list) rfl

theorem canSelect_item (list item : String) :
    Statement.canSelect (.ofStreams [itemStream list item]) none := by
  refine canSelect_of_clean ?_ rfl
  rintro ⟨-, filter, given, entry, present, nul⟩
  obtain rfl := Option.some.inj given
  rcases List.mem_cons.1 present with rfl | second
  · exact not_hasNul_ids.1 nul
  · obtain rfl : entry = ("itemId", .compare .eq (.text item)) := List.mem_singleton.1 second
    exact not_hasNul_ids.2 nul

namespace Tells

variable {s : Store} {log : List StoredEvent} {list : String} {history : List Event}

/-- The state of a list is its history folded. -/
theorem run_state (tells : Tells log list history) (holds : s.tables.Holds log)
    (sound : s.poisoned = false) :
    (ProjectionRunner.state.run
      (ProjectionRunner.ofProjection (E := Event) (listProjection list) ⟨false⟩, s)).1 =
      .ok (ListState.after list history) := by
  obtain ⟨recorded, decoded, rfl⟩ := tells.decode_projection
  exact ProjectionRunner.run_state_fresh (Client.run_streams_from_start holds sound
    (List.forall_mem_singleton.2 (valid_listStream _ list)) (canSelect_projection list) decoded)

/-- A rule on one item sees the part of the history that is about it. -/
theorem run_validate (tells : Tells log list history) (holds : s.tables.Holds log)
    (sound : s.poisoned = false) {V : Validator Event} {item : String}
    (reads : V.streams = [itemStream list item]) (e : Event) :
    ∃ recorded : List (Recorded Event),
      recorded.map Recorded.event = history.filter (·.item? = some item) ∧
        (ValidationRunner.validate.run ((ValidationRunner.ofValidator V).stage e, s)).1 =
          V.accepts ⟨recorded, [e]⟩ := by
  obtain ⟨recorded, decoded, events⟩ := tells.decode_item item
  refine ⟨recorded, events, ValidationRunner.run_validate_fresh ?_⟩
  rw [reads]
  exact Client.run_streams_from_start holds sound
    (List.forall_mem_singleton.2 (valid_itemStream list item)) (canSelect_item list item) decoded

end Tells

/-! ## Histories that are written -/

section Batches

variable {s : Store} {log : List StoredEvent} {events : List Event}

theorem mapM_toDraft (events : List Event) :
    events.mapM DomainEvent.toDraft = .ok (events.map fun e => ⟨e.type, e.data⟩) := by
  induction events with
  | nil => rfl
  | cons e events ih =>
    rw [List.mapM_cons, e.toDraft_eq, ih]
    rfl

/-- What events are written as shows them, if they come back as they were. -/
theorem shows_numbered (back : ∀ e ∈ events, e.Finite ∧ e.reread = e) (now : Instant)
    (last : EventId) :
    List.Forall₂ StoredEvent.Shows
      (Draft.numbered now last (events.map fun e => ⟨e.type, e.data⟩)) events := by
  induction events generalizing last with
  | nil => exact .nil
  | cons e events ih =>
    obtain ⟨⟨finite, same⟩, others⟩ := List.forall_mem_cons.1 back
    exact .cons (.numbered finite same) (ih others (last + 1))

/-- Rows that show events tell the history of a list by those that concern it. -/
theorem tells_of_shows (shown : List.Forall₂ StoredEvent.Shows log events) (list : String) :
    Tells log list (events.filter (·.concerns list)) :=
  List.rel_filter (fun _ _ shows => iff_of_eq (congrArg (· = true) shows.isOf_projection)) shown

/-- A store in service appends what events are written as. -/
theorem run_appendBatch_of_events (events : List Event) (holds : s.tables.Holds log)
    (service : s.InService) :
    ∃ t, (Store.appendBatch (events.map fun e => ⟨e.type, e.data⟩)).run s =
        (.ok ((Draft.numbered s.now s.tables.lastId
          (events.map fun e => ⟨e.type, e.data⟩)).map StoredEvent.reread), t) ∧
      t.tables.Holds
        (log ++ Draft.numbered s.now s.tables.lastId (events.map fun e => ⟨e.type, e.data⟩)) ∧
      t.InService := by
  have legible : ∀ draft ∈ events.map fun e => Draft.mk e.type e.data, draft.data.Legible :=
    List.forall_mem_map.2 fun e _ => e.legible_data
  obtain ⟨t, ran, grown, inService⟩ := Store.appendBatch_of_service service legible
  refine ⟨t, ran, ?_, inService⟩
  rw [grown]
  exact holds.push_numbered s.now legible

/-- A store in service takes a batch of events, and its rows show them. -/
theorem perform_appendBatch (back : ∀ e ∈ events, e.Finite ∧ e.reread = e)
    (holds : s.tables.Holds log) (service : s.InService) :
    ∃ rows, ((Client.Write.appendBatch events).perform s).tables.Holds (log ++ rows) ∧
      ((Client.Write.appendBatch events).perform s).InService ∧
      List.Forall₂ StoredEvent.Shows rows events := by
  obtain ⟨drafts, encoded, -⟩ :=
    Client.encode_of_lasting fun e present => Event.lasting (back e present).1 (back e present).2
  obtain rfl : events.map (fun e => ⟨e.type, e.data⟩) = drafts := by
    have split := (Client.encode_eq_ok.1 encoded).1
    rw [mapM_toDraft] at split
    exact Except.ok.inj split
  obtain ⟨t, ran, grown, inService⟩ := run_appendBatch_of_events events holds service
  have asked (drafts : List Draft) :
      (Client.Write.appendBatch events).request drafts = Store.appendBatch drafts := rfl
  have left : (Client.Write.appendBatch events).perform s = t := by
    rw [Client.Write.perform, Client.Write.run_action, Client.Write.checked, encoded]
    dsimp only
    rw [Client.Write.run_ask, asked, ran]
  rw [left]
  exact ⟨_, grown, inService, shows_numbered back s.now s.tables.lastId⟩

/-- A new store that a client has written some events to. -/
def storeOf (events : List Event) : Store :=
  (Client.Write.appendBatch events).perform (Store.new default)

theorem storeOf_tells (events : List Event) (list : String)
    (about : ∀ e ∈ events, e.concerns list) :
    ∃ log, (storeOf events).tables.Holds log ∧ (storeOf events).InService ∧
      Tells log list events := by
  obtain ⟨log, holds, service, shown⟩ :=
    perform_appendBatch (fun e present => Event.back_of_concerns (about e present))
      (Store.holds_new default) (Store.inService_new default)
  rw [List.nil_append] at holds
  refine ⟨log, holds, service, ?_⟩
  have tells := tells_of_shows shown list
  rwa [List.filter_eq_self.2 about] at tells

end Batches

end Todo

end Chronicle
