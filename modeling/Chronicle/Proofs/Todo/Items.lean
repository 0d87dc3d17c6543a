import Chronicle.Todo.ListState
import Mathlib.Data.List.Induction
import Mathlib.Data.List.Nodup

/-!
# Where the items of a list are

An event moves the items of one id between the three lists of a list's state, and
what it leaves there is told by the ids that were there before
(`ListState.mem_incomplete_apply` and the two after it). From this follows what holds
after any events, in whatever order and however often they come: every id that was
added is in some list and no other id is, each entry was added as it stands, and no id
is removed twice (`ListState.items_conserved`).
-/

namespace Chronicle.Todo

/-! ## Ids of items -/

namespace ListState

def ids (items : List Item) : List String := items.map Item.id

variable {x y : String} {items : List Item} {item : Item}

theorem mem_ids : x ∈ ids items ↔ ∃ item ∈ items, item.id = x := List.mem_map

@[simp]
theorem ids_append (items others : List Item) : ids (items ++ others) = ids items ++ ids others :=
  List.map_append

theorem ids_without (x : String) (items : List Item) :
    ids (without x items) = (ids items).filter (· ≠ x) := by
  rw [ids, ids, without, List.filter_map]
  rfl

theorem mem_ids_without : y ∈ ids (without x items) ↔ y ∈ ids items ∧ y ≠ x := by
  rw [ids_without, List.mem_filter, decide_eq_true_eq]

theorem mem_of_mem_without (kept : item ∈ without x items) : item ∈ items :=
  List.mem_of_mem_filter kept

theorem find?_isSome : (find? x items).isSome ↔ x ∈ ids items := by
  simp [find?, mem_ids]

theorem find?_eq_none : find? x items = none ↔ x ∉ ids items := by
  rw [← find?_isSome, Option.not_isSome_iff_eq_none]

theorem mem_of_find? (found : find? x items = some item) : item ∈ items ∧ item.id = x :=
  ⟨List.mem_of_find?_eq_some found, by simpa using List.find?_some found⟩

/-- What is found under an id has it. -/
theorem mem_ids_find? : y ∈ ids (find? x items).toList ↔ y = x ∧ x ∈ ids items := by
  cases found : find? x items with
  | none => exact ⟨nofun, fun both => absurd both.2 (find?_eq_none.1 found)⟩
  | some item =>
    obtain ⟨present, rfl⟩ := mem_of_find? found
    rw [and_iff_left (mem_ids.2 ⟨item, present, rfl⟩)]
    exact List.mem_singleton

/-- The same where two lists are looked through. -/
theorem mem_ids_or {others : List Item} :
    y ∈ ids ((find? x items).or (find? x others)).toList ↔
      y = x ∧ (x ∈ ids items ∨ x ∈ ids others) := by
  cases found : find? x items with
  | none => rw [Option.none_or, mem_ids_find?, or_iff_right (find?_eq_none.1 found)]
  | some item =>
    have present : x ∈ ids items := find?_isSome.1 (by rw [found]; rfl)
    rw [Option.some_or, ← found, mem_ids_find?, and_iff_left present, and_iff_left (.inl present)]

theorem mem_of_mem_find? (found : item ∈ (find? x items).toList) : item ∈ items :=
  (mem_of_find? (Option.mem_toList.1 found)).1

theorem mem_of_mem_or {others : List Item}
    (found : item ∈ ((find? x items).or (find? x others)).toList) :
    item ∈ items ∨ item ∈ others := by
  rcases Option.or_eq_some_iff.1 (Option.mem_toList.1 found) with found | ⟨-, found⟩
  · exact .inl (mem_of_find? found).1
  · exact .inr (mem_of_find? found).1

section AddNew

variable (new : Option Item)

theorem mem_ids_addNew :
    y ∈ ids (new.toList.foldl addNew items) ↔ y ∈ ids items ∨ y ∈ ids new.toList := by
  cases new with
  | none => simp [ids]
  | some item =>
    rw [Option.toList_some, List.foldl_cons, List.foldl_nil, addNew]
    split
    · rename_i there
      have present := find?_isSome.1 there
      simp only [ids, List.map_cons, List.map_nil, List.mem_singleton]
      exact ⟨.inl, fun either => either.elim id fun same => same ▸ present⟩
    · rw [ids_append, List.mem_append]

theorem nodup_addNew (nodup : (ids items).Nodup) : (ids (new.toList.foldl addNew items)).Nodup := by
  cases new with
  | none => exact nodup
  | some item =>
    rw [Option.toList_some, List.foldl_cons, List.foldl_nil, addNew]
    split
    · exact nodup
    · rename_i absent
      rw [find?_isSome] at absent
      rw [ids_append]
      exact nodup.append (List.nodup_singleton _) (by simpa [ids] using absent)

theorem mem_of_mem_addNew (present : item ∈ new.toList.foldl addNew items) :
    item ∈ items ∨ item ∈ new.toList := by
  cases new with
  | none => exact .inl present
  | some added =>
    rw [Option.toList_some, List.foldl_cons, List.foldl_nil, addNew] at present
    split at present
    · exact .inl present
    · exact List.mem_append.1 present

end AddNew

/-! ## One event -/

variable {s : ListState} (e : Event)

theorem mem_incomplete_apply : y ∈ ids (s.apply e).incomplete ↔
    match e with
    | .itemAdded _ x _ => y ∈ ids s.incomplete ∨ y = x
    | .itemCompleted _ _ x | .itemRemoved _ _ x => y ∈ ids s.incomplete ∧ y ≠ x
    | .itemMarkedIncomplete _ _ x => y ∈ ids s.incomplete ∨ y = x ∧ x ∈ ids s.completed
    | _ => y ∈ ids s.incomplete := by
  cases e
  case itemAdded list x title => simp [apply, ids]
  case itemCompleted tenant list x => exact mem_ids_without
  case itemRemoved tenant list x => exact mem_ids_without
  case itemMarkedIncomplete tenant list x =>
    simp only [apply, mem_ids_addNew, mem_ids_find?]
  all_goals rfl

theorem mem_completed_apply : y ∈ ids (s.apply e).completed ↔
    match e with
    | .itemCompleted _ _ x => y ∈ ids s.completed ∨ y = x ∧ x ∈ ids s.incomplete
    | .itemMarkedIncomplete _ _ x | .itemRemoved _ _ x => y ∈ ids s.completed ∧ y ≠ x
    | _ => y ∈ ids s.completed := by
  cases e
  case itemCompleted tenant list x =>
    simp only [apply, ids_append, List.mem_append, mem_ids_find?]
  case itemMarkedIncomplete tenant list x => exact mem_ids_without
  case itemRemoved tenant list x => exact mem_ids_without
  all_goals rfl

theorem mem_removed_apply : y ∈ ids (s.apply e).removed ↔
    match e with
    | .itemRemoved _ _ x =>
      y ∈ ids s.removed ∨ y = x ∧ (x ∈ ids s.completed ∨ x ∈ ids s.incomplete)
    | _ => y ∈ ids s.removed := by
  cases e
  case itemRemoved tenant list x =>
    simp only [apply, mem_ids_addNew, mem_ids_or]
  all_goals rfl

theorem nodup_removed_apply (nodup : (ids s.removed).Nodup) : (ids (s.apply e).removed).Nodup := by
  cases e
  case itemRemoved tenant list x => exact nodup_addNew _ nodup
  all_goals exact nodup

/-- All entries, wherever they are. -/
def entries (s : ListState) : List Item := s.incomplete ++ s.completed ++ s.removed

/-- An event leaves the ids that are there and brings in the one that it adds. -/
theorem mem_ids_entries : y ∈ ids (s.apply e).entries ↔
    y ∈ ids s.entries ∨ ∃ owner title, e = .itemAdded owner y title := by
  simp only [entries, ids_append, List.mem_append, mem_incomplete_apply, mem_completed_apply,
    mem_removed_apply]
  cases e
  case itemAdded list x title =>
    simp only [Event.itemAdded.injEq, exists_and_left, exists_eq', eq_comm (a := x)]
    tauto
  case itemCompleted tenant list x => grind
  case itemMarkedIncomplete tenant list x => grind
  case itemRemoved tenant list x => grind
  all_goals simp

/-- An entry was there before, or is the one that is added. -/
theorem mem_entries (present : item ∈ (s.apply e).entries) :
    item ∈ s.entries ∨ ∃ owner, e = .itemAdded owner item.id item.text := by
  simp only [entries, List.mem_append] at present ⊢
  cases e
  case itemAdded list x title =>
    rcases present with (old | old) | old
    · rcases List.mem_append.1 old with old | new
      · exact .inl (.inl (.inl old))
      · obtain rfl := List.mem_singleton.1 new
        exact .inr ⟨list, rfl⟩
    · exact .inl (.inl (.inr old))
    · exact .inl (.inr old)
  case itemCompleted tenant list x =>
    rcases present with (kept | old) | old
    · exact .inl (.inl (.inl (mem_of_mem_without kept)))
    · rcases List.mem_append.1 old with old | moved
      · exact .inl (.inl (.inr old))
      · exact .inl (.inl (.inl (mem_of_mem_find? moved)))
    · exact .inl (.inr old)
  case itemMarkedIncomplete tenant list x =>
    rcases present with (old | kept) | old
    · rcases mem_of_mem_addNew _ old with old | moved
      · exact .inl (.inl (.inl old))
      · exact .inl (.inl (.inr (mem_of_mem_find? moved)))
    · exact .inl (.inl (.inr (mem_of_mem_without kept)))
    · exact .inl (.inr old)
  case itemRemoved tenant list x =>
    rcases present with (kept | kept) | old
    · exact .inl (.inl (.inl (mem_of_mem_without kept)))
    · exact .inl (.inl (.inr (mem_of_mem_without kept)))
    · rcases mem_of_mem_addNew _ old with old | moved
      · exact .inl (.inr old)
      · exact .inl (.inl (mem_of_mem_or moved).symm)
  all_goals exact .inl present

/-! ## Any events -/

/-- The state of a list after some events. -/
def after (list : String) (events : List Event) : ListState :=
  events.foldl (listProjection list).fold (listProjection list).initial

theorem after_append (list : String) (events : List Event) (e : Event) :
    after list (events ++ [e]) = (after list events).apply e := by
  rw [after, List.foldl_append]
  rfl

theorem mem_ids_after {list : String} {events : List Event} :
    x ∈ ids (after list events).entries ↔
      ∃ owner title, Event.itemAdded owner x title ∈ events := by
  induction events using List.reverseRecOn with
  | nil => simp [after, listProjection, initial, entries, ids]
  | append_singleton events e ih =>
    rw [after_append, mem_ids_entries, ih]
    simp only [List.mem_append, List.mem_singleton, exists_or, eq_comm (a := e)]

theorem mem_after {list : String} {events : List Event}
    (present : item ∈ (after list events).entries) :
    ∃ owner, Event.itemAdded owner item.id item.text ∈ events := by
  induction events using List.reverseRecOn with
  | nil => simp [after, listProjection, initial, entries] at present
  | append_singleton events e ih =>
    rw [after_append] at present
    rcases mem_entries e present with old | ⟨owner, rfl⟩
    · obtain ⟨owner, added⟩ := ih old
      exact ⟨owner, List.mem_append_left _ added⟩
    · exact ⟨owner, List.mem_append_right _ (List.mem_singleton_self _)⟩

theorem nodup_removed_after (list : String) (events : List Event) :
    (ids (after list events).removed).Nodup := by
  induction events using List.reverseRecOn with
  | nil => exact .nil
  | append_singleton events e ih =>
    rw [after_append]
    exact nodup_removed_apply e ih

/-- Whatever events a list's projection folds, the ids in its three lists together are
those of the items that were added, each entry is an item as it was added, and no id is
removed twice. Directly after an item is completed its id is not incomplete, after it is
reopened not completed, and after it is removed neither. -/
theorem items_conserved (list : String) (events : List Event) :
    (∀ x, x ∈ ids (after list events).entries ↔
        ∃ owner title, Event.itemAdded owner x title ∈ events) ∧
      (ids (after list events).removed).Nodup ∧
      (∀ item ∈ (after list events).entries,
        ∃ owner, Event.itemAdded owner item.id item.text ∈ events) ∧
      ∀ tenant owner x,
        x ∉ ids (after list (events ++ [.itemCompleted tenant owner x])).incomplete ∧
          x ∉ ids (after list (events ++ [.itemMarkedIncomplete tenant owner x])).completed ∧
          x ∉ ids (after list (events ++ [.itemRemoved tenant owner x])).incomplete ∧
          x ∉ ids (after list (events ++ [.itemRemoved tenant owner x])).completed := by
  refine ⟨fun x => mem_ids_after, nodup_removed_after list events, fun item => mem_after, ?_⟩
  intro tenant owner x
  have gone (items : List Item) : x ∉ ids (without x items) := fun present =>
    (mem_ids_without.1 present).2 rfl
  simp only [after_append]
  exact ⟨gone _, gone _, gone _, gone _⟩

/-- An item that is completed and added again is still there as it was first added. -/
theorem items_conserved_twice :
    ⟨"x", "first"⟩ ∈ (after "l" [.itemAdded "l" "x" "first", .itemCompleted "t" "l" "x",
        .itemAdded "l" "x" "second"]).entries ∧
      ∃ owner, Event.itemAdded owner "x" "first" ∈
        [Event.itemAdded "l" "x" "first", .itemCompleted "t" "l" "x",
          .itemAdded "l" "x" "second"] :=
  have there : ⟨"x", "first"⟩ ∈ (after "l" [.itemAdded "l" "x" "first",
      .itemCompleted "t" "l" "x", .itemAdded "l" "x" "second"]).entries := by decide
  ⟨there, (items_conserved "l" _).2.2.1 _ there⟩

end ListState

end Chronicle.Todo
