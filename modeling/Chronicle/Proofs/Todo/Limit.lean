import Chronicle.Proofs.Runner.Repetition
import Chronicle.Proofs.Todo.Agreement
import Mathlib.Data.Finset.Card

/-!
# The limit of a list

The rule on additions counts ids as it folds a history (`counted`), and the read model
keeps items. In a history whose events were saved under the rules, both have the same
ids (`mem_counted`), so after an addition at most three different items are incomplete.
But no rule counts when an item is reopened, and the count then keeps one entry of its
id where the read model keeps all. So each reopening can put one more item on the
list (`counted_le`), and the limit holds as long as reopenings leave room
(`incomplete_le`).

Runners of the rules work on one store (`GuardedStep`). Their runs give just the
histories that the rules admit (`exists_guarded`), and for what they give the limit is
as told (`limit_of_guarded`). It can be exceeded (`limit_exceeded`).
-/

namespace Chronicle.Todo

variable {list x : String} {history front rest : List Event} {e : Event}

/-! ## The count of the rule -/

/-- The ids that the rule on additions counts. -/
def counted (history : List Event) : List String := history.foldl countIncomplete []

theorem counted_append (e : Event) :
    counted (history ++ [e]) = countIncomplete (counted history) e := by
  rw [counted, List.foldl_append]
  rfl

/-- Events without an item do not count. -/
theorem foldl_countIncomplete_items (history : List Event) (counted : List String) :
    (history.filter (·.item?.isSome)).foldl countIncomplete counted =
      history.foldl countIncomplete counted := by
  induction history generalizing counted with
  | nil => rfl
  | cons e history ih =>
    rw [List.filter_cons]
    split
    · rw [List.foldl_cons, List.foldl_cons, ih]
    · rw [List.foldl_cons, ih]
      cases e <;> simp_all [Event.item?, countIncomplete]

namespace Event

/-- What the rules ask of an event after a history. -/
def Admitted (history : List Event) : Event → Prop
  | itemAdded owner x title => (counted (history ++ [itemAdded owner x title])).length ≤ 3
  | itemCompleted _ _ x => presentIn history x ∧ completionIn history x = some .incomplete
  | itemMarkedIncomplete _ _ x => presentIn history x ∧ completionIn history x = some .complete
  | _ => True

instance : Decidable (e.Admitted history) :=
  match e with
  | itemAdded .. => inferInstanceAs (Decidable (_ ≤ 3))
  | itemCompleted .. | itemMarkedIncomplete .. => inferInstanceAs (Decidable (_ ∧ _))
  | listCreated .. | listDeleted .. | itemRemoved .. | itemCompletionSet ..
  | itemPrioritySet .. | sample .. => isTrue trivial

def reopens : Event → Bool
  | itemMarkedIncomplete .. => true
  | _ => false

end Event

/-- An admitted history has the same ids incomplete for the rule and the read model. -/
theorem mem_counted (list : String) (kept : Throughout Event.Admitted history) :
    x ∈ counted history ↔ x ∈ ListState.ids (ListState.after list history).incomplete := by
  induction kept with
  | nil => simp [counted, ListState.after, listProjection, ListState.initial, ListState.ids]
  | @snoc history e kept admitted ih =>
    rw [counted_append, ListState.after_append, ListState.mem_incomplete_apply]
    cases e with
    | itemAdded owner y title => simp [countIncomplete, ih]
    | itemRemoved tenant owner y => simp [countIncomplete, ih]
    | itemCompleted tenant owner y => simp [countIncomplete, ih]
    | itemMarkedIncomplete tenant owner y =>
      -- A reopened item was in one of the lists.
      have there := (reopenable_iff list).1 admitted
      simp only [countIncomplete, List.mem_append, List.mem_filter, List.mem_singleton, ih]
      grind
    | _ => exact ih

/-- Other events than additions add one to the count at most, when they reopen. -/
theorem length_countIncomplete (counted : List String)
    (other : ∀ owner x title, e ≠ .itemAdded owner x title) :
    (countIncomplete counted e).length ≤ counted.length + if e.reopens then 1 else 0 := by
  have fewer (x : String) : (counted.filter (· ≠ x)).length ≤ counted.length :=
    List.length_filter_le ..
  cases e with
  | itemAdded owner x title => exact absurd rfl (other owner x title)
  | itemRemoved tenant owner x => exact fewer x
  | itemCompleted tenant owner x => exact fewer x
  | itemMarkedIncomplete tenant owner x =>
    rw [countIncomplete, List.length_append]
    exact Nat.add_le_add_right (fewer x) 1
  | _ => exact Nat.le_refl _

/-- From an addition on, the count is three and one for each reopening at most. -/
theorem counted_le {owner title : String}
    (kept : Throughout Event.Admitted (front ++ .itemAdded owner x title :: rest)) :
    (counted (front ++ .itemAdded owner x title :: rest)).length ≤
      3 + rest.countP Event.reopens := by
  induction rest using List.reverseRecOn with
  | nil => exact kept.fit_of_append
  | append_singleton rest e ih =>
    rw [← List.cons_append, ← List.append_assoc] at kept ⊢
    obtain ⟨before, admitted⟩ := throughout_append_singleton.1 kept
    rw [List.countP_append, List.countP_singleton]
    by_cases adds : ∃ owner y title, e = .itemAdded owner y title
    · obtain ⟨owner, y, title, rfl⟩ := adds
      exact Nat.le_add_right_of_le admitted
    · push Not at adds
      let reopened := if e.reopens then 1 else 0
      calc (counted (front ++ .itemAdded owner x title :: rest ++ [e])).length
        _ ≤ (counted (front ++ .itemAdded owner x title :: rest)).length + reopened := by
          rw [counted_append]
          exact length_countIncomplete _ adds
        _ ≤ 3 + rest.countP Event.reopens + reopened := Nat.add_le_add_right (ih before) _
        _ = 3 + (rest.countP Event.reopens + reopened) := Nat.add_assoc ..

/-! ## The items of the read model -/

/-- To take out what stands once and put it at the end is to move it. -/
theorem perm_filter_append {counted : List String} (once : counted.count x = 1) :
    (counted.filter (· ≠ x) ++ [x]).Perm counted := by
  refine List.perm_iff_count.2 fun y => ?_
  rw [List.count_append, List.count_singleton]
  by_cases moved : y = x
  · subst moved
    have out : y ∉ counted.filter (· ≠ y) := by simp
    rw [List.count_eq_zero_of_not_mem out, once]
    simp
  · have stays : (counted.filter (· ≠ x)).count y = counted.count y :=
      List.count_filter (by simpa using moved)
    rw [stays, if_neg (by simpa using Ne.symm moved), Nat.add_zero]

namespace ListState

variable {s : ListState}

theorem length_without_le (x : String) (items : List Item) :
    (without x items).length ≤ items.length := List.length_filter_le ..

/-- Reopening the item leaves three at most: fewer are incomplete, or it is one of them
and has no second entry. -/
def Room (s : ListState) (x : String) : Prop :=
  (x ∉ ids s.incomplete ∧ s.incomplete.length < 3) ∨ (ids s.incomplete).count x = 1

/-- A reopened item that is incomplete stays where it is. -/
theorem incomplete_reopened_of_mem (held : x ∈ ids s.incomplete) (tenant owner : String) :
    (s.apply (.itemMarkedIncomplete tenant owner x)).incomplete = s.incomplete := by
  show (find? x s.completed).toList.foldl addNew s.incomplete = _
  cases found : find? x s.completed with
  | none => rfl
  | some item =>
    obtain ⟨-, rfl⟩ := mem_of_find? found
    exact if_pos (find?_isSome.2 held)

/-- One that is completed moves to the end. -/
theorem ids_reopened_of_completed (absent : x ∉ ids s.incomplete) (done : x ∈ ids s.completed)
    (tenant owner : String) :
    ids (s.apply (.itemMarkedIncomplete tenant owner x)).incomplete = ids s.incomplete ++ [x] := by
  show ids ((find? x s.completed).toList.foldl addNew s.incomplete) = _
  cases found : find? x s.completed with
  | none => exact absurd done (find?_eq_none.1 found)
  | some item =>
    obtain ⟨-, rfl⟩ := mem_of_find? found
    have new : addNew s.incomplete item = s.incomplete ++ [item] :=
      if_neg fun held => absent (find?_isSome.1 held)
    rw [Option.toList_some, List.foldl_cons, List.foldl_nil, new, ids_append]
    rfl

end ListState

/-- A reopening finds room on the list. -/
def Event.Roomy (list : String) (history : List Event) : Event → Prop
  | .itemMarkedIncomplete _ _ x => (ListState.after list history).Room x
  | _ => True

instance {s : ListState} : Decidable (s.Room x) := inferInstanceAs (Decidable (_ ∨ _))

instance : Decidable (e.Roomy list history) :=
  match e with
  | .itemMarkedIncomplete .. => inferInstanceAs (Decidable (ListState.Room _ _))
  | .listCreated .. | .listDeleted .. | .itemAdded .. | .itemRemoved .. | .itemCompleted ..
  | .itemCompletionSet .. | .itemPrioritySet .. | .sample .. => isTrue trivial

/-- What a reopening that finds room does to the incomplete items. -/
theorem reopened_of_room {tenant owner : String}
    (admitted : (Event.itemMarkedIncomplete tenant owner x).Admitted history)
    (room : (ListState.after list history).Room x) :
    let items := (ListState.after list history).incomplete
    let left :=
      (ListState.after list (history ++ [.itemMarkedIncomplete tenant owner x])).incomplete
    (x ∉ ListState.ids items ∧ items.length < 3 ∧
      ListState.ids left = ListState.ids items ++ [x]) ∨
    (ListState.ids items).count x = 1 ∧ left = items := by
  intro items left
  have after : left = (ListState.apply _ (.itemMarkedIncomplete tenant owner x)).incomplete :=
    congrArg ListState.incomplete (ListState.after_append ..)
  rw [after]
  rcases room with ⟨absent, less⟩ | once
  · have done : x ∈ ListState.ids (ListState.after list history).completed :=
      ((reopenable_iff list).1 admitted).resolve_right fun held => absent held.1
    exact .inl ⟨absent, less, ListState.ids_reopened_of_completed absent done tenant owner⟩
  · have held : x ∈ ListState.ids items := List.count_pos_iff.1 (once ▸ Nat.one_pos)
    exact .inr ⟨once, ListState.incomplete_reopened_of_mem held tenant owner⟩

/-- When reopenings find room the rule counts every entry of the read model. -/
theorem perm_counted (kept : Throughout Event.Admitted history)
    (roomy : Throughout (Event.Roomy list) history) :
    (counted history).Perm (ListState.ids (ListState.after list history).incomplete) := by
  induction history using List.reverseRecOn with
  | nil => exact .nil
  | append_singleton history e ih =>
    obtain ⟨before, admitted⟩ := throughout_append_singleton.1 kept
    obtain ⟨found, room⟩ := throughout_append_singleton.1 roomy
    have same := ih before found
    rw [counted_append]
    cases e with
    | itemMarkedIncomplete tenant owner x =>
      rw [countIncomplete]
      rcases reopened_of_room admitted room with ⟨absent, -, moved⟩ | ⟨once, stays⟩
      · have others : (counted history).filter (· ≠ x) = counted history :=
          List.filter_eq_self.2 fun y present =>
            decide_eq_true fun is => absent (is ▸ same.mem_iff.1 present)
        rw [others, moved]
        exact same.append_right [x]
      · rw [stays]
        exact (perm_filter_append (same.count_eq x ▸ once)).trans same
    | itemAdded owner x title =>
      rw [ListState.after_append, ListState.apply, ListState.ids_append]
      exact same.append_right [x]
    | itemRemoved tenant owner x | itemCompleted tenant owner x =>
      rw [ListState.after_append, ListState.apply, ListState.ids_without]
      exact same.filter _
    | _ =>
      rw [ListState.after_append]
      exact same

/-- When reopenings find room the limit holds. -/
theorem incomplete_le (kept : Throughout Event.Admitted history)
    (roomy : Throughout (Event.Roomy list) history) :
    (ListState.after list history).incomplete.length ≤ 3 := by
  induction history using List.reverseRecOn with
  | nil => exact Nat.zero_le 3
  | append_singleton history e ih =>
    obtain ⟨before, admitted⟩ := throughout_append_singleton.1 kept
    obtain ⟨found, room⟩ := throughout_append_singleton.1 roomy
    have few := ih before found
    cases e with
    | itemAdded owner x title =>
      have same := (perm_counted kept roomy).length_eq
      rw [ListState.ids, List.length_map] at same
      exact same ▸ admitted
    | itemMarkedIncomplete tenant owner x =>
      rcases reopened_of_room admitted room with ⟨-, less, moved⟩ | ⟨-, stays⟩
      · have grown := congrArg List.length moved
        rw [List.length_append, ListState.ids, ListState.ids, List.length_map, List.length_map]
          at grown
        rw [grown]
        exact less
      · rw [stays]
        exact few
    | itemRemoved tenant owner x | itemCompleted tenant owner x =>
      rw [ListState.after_append]
      exact (ListState.length_without_le ..).trans few
    | _ =>
      rw [ListState.after_append]
      exact few

/-! ## Saves under the rules -/

namespace Event

/-- The rule that an event of the list is to be saved under, if it has one. -/
def rule? (list : String) : Event → Option (Validator Event)
  | itemAdded .. => some (addItem list)
  | itemCompleted _ _ x => some (completeItem list x)
  | itemMarkedIncomplete _ _ x => some (reopenItem list x)
  | _ => none

theorem admitted_of_free (free : e.rule? list = none) : e.Admitted history := by
  cases e with
  | itemAdded | itemCompleted | itemMarkedIncomplete => cases free
  | _ => trivial

variable {V : Validator Event}

/-- The streams of a rule can be read, and one event can be saved under it. -/
theorem rule_fits (ruled : e.rule? list = some V) :
    (∀ spec ∈ V.streams, spec.Valid) ∧ Statement.canSelect (.ofStreams V.streams) none ∧
      Statement.guardFits 1 (.ofStreams V.streams) := by
  have ofItem (x : String) : (∀ spec ∈ [itemStream list x], spec.Valid) ∧
      Statement.canSelect (.ofStreams [itemStream list x]) none ∧
      Statement.guardFits 1 (.ofStreams [itemStream list x]) :=
    ⟨List.forall_mem_singleton.2 (valid_itemStream list x), canSelect_item list x, rfl⟩
  cases e with
  | itemAdded =>
    obtain rfl := Option.some.inj ruled
    exact ⟨List.forall_mem_singleton.2 (valid_listStream _ list), canSelect_adding list, rfl⟩
  | itemCompleted tenant owner x =>
    obtain rfl := Option.some.inj ruled
    rw [streams_completeItem]
    exact ofItem x
  | itemMarkedIncomplete tenant owner x =>
    obtain rfl := Option.some.inj ruled
    rw [streams_reopenItem]
    exact ofItem x
  | _ => cases ruled

/-- A rule judges its event by the history of the list. -/
theorem rule_accepts {log : List StoredEvent} (ruled : e.rule? list = some V)
    (tells : Tells log list history) :
    ∃ recorded : List (Recorded Event),
      Client.readAll Event (log.filter (StoredEvent.isOf V.streams)) = .ok recorded ∧
        (V.accepts ⟨recorded, [e]⟩ = .ok () ↔ e.Admitted history) := by
  cases e with
  | itemAdded owner x title =>
    obtain rfl := Option.some.inj ruled
    obtain ⟨recorded, decoded, events⟩ := tells.decode_adding
    have count : (View.mk recorded [.itemAdded owner x title]).reduce countIncomplete [] =
        counted (history ++ [.itemAdded owner x title]) := by
      rw [View.reduce, View.events, events, List.foldl_append, foldl_countIncomplete_items,
        counted, List.foldl_append]
    refine ⟨recorded, decoded, ?_⟩
    rw [addItem, Admitted]
    dsimp only
    rw [count]
    split_ifs with full
    · simp [reject, full]
    · simp [Nat.le_of_not_lt full]
  | itemCompleted tenant owner x =>
    obtain rfl := Option.some.inj ruled
    obtain ⟨recorded, decoded, events⟩ := tells.decode_item x
    rw [streams_completeItem]
    refine ⟨recorded, decoded, ?_⟩
    rw [completeItem_accepts events, guards_eq_ok]
    rfl
  | itemMarkedIncomplete tenant owner x =>
    obtain rfl := Option.some.inj ruled
    obtain ⟨recorded, decoded, events⟩ := tells.decode_item x
    rw [streams_reopenItem]
    refine ⟨recorded, decoded, ?_⟩
    rw [reopenItem_accepts _ events, guards_eq_ok]
    rfl
  | _ => cases ruled

end Event

section Runs

variable {ι : Type} [DecidableEq ι] {w w' : Workshop ι Event} {i : ι}

/-- Every event of the list that has a rule is saved under it, and alone. Others are
written in any way. -/
inductive GuardedStep (list : String) : Workshop ι Event → Workshop ι Event → Prop
  | other {w w' : Workshop ι Event} (step : Workshop.Step w w') {events : List Event}
    (tells : Tells (w'.store.tables.log.drop w.store.tables.log.length) list events)
    (free : ∀ e ∈ events, e.rule? list = none) : GuardedStep list w w'
  | save (w : Workshop ι Event) (i : ι) {e : Event} (about : e.concerns list)
    (ruled : e.rule? list = some (w.runner i).validator)
    (staged : (w.runner i).history.staged = [e]) : GuardedStep list w (w.act i .save)

theorem GuardedStep.step (guarded : GuardedStep list w w') : Workshop.Step w w' := by
  cases guarded with
  | other step => exact step
  | save i => exact .act w i .save

theorem tells_numbered (about : e.concerns list) (now : Instant) (last : EventId) :
    Tells (Draft.numbered now last [⟨e.type, e.data⟩]) list [e] := by
  have back : ∀ e' ∈ [e], e'.Finite ∧ e'.reread = e' :=
    List.forall_mem_singleton.2 (Event.back_of_concerns about)
  have shown := tells_of_shows (shows_numbered back now last) list
  rwa [List.filter_eq_self.2 (List.forall_mem_singleton.2 about)] at shown

/-- A save that writes adds its event to the history. -/
theorem tells_save (sound : w.Sound w.store.tables.log)
    (tells : Tells w.store.tables.log list history) (about : e.concerns list)
    (staged : (w.runner i).history.staged = [e]) {recorded : List (Recorded Event)}
    {drafts : List Draft} (wrote : w.Wrote i recorded drafts) :
    Tells (w.act i .save).store.tables.log list (history ++ [e]) := by
  have split := (Client.encode_eq_ok.1 wrote.encoded).1
  rw [staged, mapM_toDraft] at split
  obtain rfl := Except.ok.inj split
  rw [sound.log_act, wrote.added]
  exact tells.append (tells_numbered about ..)

/-- It does so only if the rule admits the event. -/
theorem admitted_of_save (tells : Tells w.store.tables.log list history)
    (ruled : e.rule? list = some (w.runner i).validator)
    (staged : (w.runner i).history.staged = [e]) {recorded : List (Recorded Event)}
    {drafts : List Draft} (wrote : w.Wrote i recorded drafts) : e.Admitted history := by
  obtain ⟨recorded', decoded', judged⟩ := Event.rule_accepts ruled tells
  obtain rfl : recorded' = recorded := Except.ok.inj (decoded'.symm.trans wrote.complete)
  have accepted := wrote.accepted
  rw [staged] at accepted
  exact judged.1 accepted

/-- A step keeps the history of the list admitted. -/
theorem GuardedStep.keeps (guarded : GuardedStep list w w') (sound : w.Sound w.store.tables.log)
    (tells : Tells w.store.tables.log list history) (kept : Throughout Event.Admitted history) :
    ∃ history, Tells w'.store.tables.log list history ∧ Throughout Event.Admitted history := by
  cases guarded with
  | other step added free =>
    obtain ⟨more, grown⟩ := step.sound sound
    rw [grown.holds.log_eq, List.drop_left] at added
    rw [grown.holds.log_eq]
    exact ⟨_, tells.append added,
      kept.append fun e present _ => Event.admitted_of_free (free e present)⟩
  | save i about ruled staged =>
    rcases sound.added_cases i .save with nothing | ⟨-, -, recorded, drafts, wrote⟩
    · refine ⟨history, ?_, kept⟩
      rwa [sound.log_act, nothing, List.append_nil]
    · exact ⟨_, tells_save sound tells about staged wrote,
        kept.snoc (admitted_of_save tells ruled staged wrote)⟩

theorem tells_of_guarded {now : Instant} {validator : ι → Validator Event}
    (run : Relation.ReflTransGen (GuardedStep list) (.start now validator) w) :
    w.Sound w.store.tables.log ∧
      ∃ history, Tells w.store.tables.log list history ∧ Throughout Event.Admitted history := by
  have steps : Workshop.Steps (.start now validator) w := run.lift id fun _ _ => GuardedStep.step
  refine ⟨steps.sound, ?_⟩
  clear steps
  induction run with
  | refl =>
    have none : (Workshop.start now validator).store.tables.log = [] :=
      (Workshop.sound_start now validator).holds.log_eq
    exact ⟨[], none ▸ Tells.empty list, .nil⟩
  | tail run step ih =>
    obtain ⟨history, tells, kept⟩ := ih
    have steps : Workshop.Steps (.start now validator) _ := run.lift id fun _ _ => GuardedStep.step
    exact step.keeps steps.sound tells kept

/-! ## Every admitted history -/

/-- Nothing but a save is bound to a rule, since nothing else is written. -/
theorem GuardedStep.of_call (w : Workshop ι Event) (i : ι) {c : ValidationRunner.Call Event}
    (reads : c ≠ .save) : GuardedStep list w (w.act i c) := by
  have same : (w.act i c).store.tables = w.store.tables :=
    congrArg Prod.fst (ValidationRunner.content_perform _ _ reads)
  have nothing : Tells ((w.act i c).store.tables.log.drop w.store.tables.log.length) list [] := by
    rw [same, List.drop_length]
    exact Tells.empty list
  exact .other (.act w i c) nothing (by simp)

/-- An event without a rule can be appended. -/
theorem guarded_append (sound : w.Sound w.store.tables.log)
    (tells : Tells w.store.tables.log list history) (about : e.concerns list)
    (free : e.rule? list = none) :
    ∃ t, GuardedStep list w { w with store := t } ∧ Tells t.tables.log list (history ++ [e]) := by
  obtain ⟨t, ran, grown, -⟩ := run_appendBatch_of_events [e] sound.holds sound.service
  rw [List.map_singleton] at ran grown
  have step : Store.Step w.store t := by
    have call := Store.Step.call w.store (.appendBatch [⟨e.type, e.data⟩])
    rwa [Store.Call.perform, ran] at call
  have added := tells_numbered about w.store.now w.store.tables.lastId
  refine ⟨t, .other (.elsewhere w step) ?_ (List.forall_mem_singleton.2 free), ?_⟩
  · rw [grown.log_eq, List.drop_left]
    exact added
  · rw [grown.log_eq]
    exact tells.append added

/-- The runner has staged the event and read its streams. -/
def readied (w : Workshop ι Event) (i : ι) (e : Event) : Workshop ι Event :=
  (w.act i (.stage e)).act i .refresh

/-- If it has done nothing before, it can save what its rule admits. -/
theorem readied_spec (sound : w.Sound w.store.tables.log)
    (tells : Tells w.store.tables.log list history) (about : e.concerns list)
    {V : Validator Event} (ruled : e.rule? list = some V) (fresh : w.runner i = .ofValidator V) :
    (∃ recorded, (readied w i e).runner i = ⟨V, some recorded, [e]⟩) ∧
      (readied w i e).store.tables = w.store.tables ∧
      (e.Admitted history → ∃ saved, ((readied w i e).saving i).1 = .ok saved) := by
  obtain ⟨recorded, decoded, judged⟩ := Event.rule_accepts ruled tells
  obtain ⟨valid, prepared, fits⟩ := Event.rule_fits ruled
  have runner : (w.act i (.stage e)).runner i = (ValidationRunner.ofValidator V).stage e := by
    rw [Workshop.runner_act, fresh]
    rfl
  have loads : (ValidationRunner.events.run
      (((w.act i (.stage e)).runner i).forget, (w.act i (.stage e)).store)).1 =
        .ok ⟨recorded, [e]⟩ := by
    rw [runner]
    exact ValidationRunner.run_events_fresh
      (Client.run_streams_from_start sound.holds sound.service.sound valid prepared decoded)
  have staged := sound.after_act i (.stage e)
  obtain ⟨refreshed, kept, -⟩ := staged.refreshed loads
  rw [runner] at refreshed
  refine ⟨⟨recorded, refreshed⟩, congrArg Prod.fst kept, fun admitted => ?_⟩
  obtain ⟨finite, same⟩ := Event.back_of_concerns about
  have lasting := List.forall_mem_singleton.2 (Event.lasting finite same)
  obtain ⟨saved, answered, -⟩ := staged.saves_again loads
    (by rw [runner]; exact List.cons_ne_nil _ _) (by rw [runner]; exact lasting)
    (by rw [runner]; exact judged.2 admitted) (by rw [runner]; exact fits)
  exact ⟨saved, answered⟩

theorem guarded_save (sound : w.Sound w.store.tables.log)
    (tells : Tells w.store.tables.log list history) (about : e.concerns list)
    {V : Validator Event} (ruled : e.rule? list = some V) (admitted : e.Admitted history)
    (fresh : w.runner i = .ofValidator V) :
    Relation.ReflTransGen (GuardedStep list) w ((readied w i e).act i .save) ∧
      Tells ((readied w i e).act i .save).store.tables.log list (history ++ [e]) ∧
      ∀ j, j ≠ i → ((readied w i e).act i .save).runner j = w.runner j := by
  obtain ⟨⟨recorded, runner⟩, same, saves⟩ := readied_spec sound tells about ruled fresh
  obtain ⟨saved, answered⟩ := saves admitted
  have alone : ((readied w i e).runner i).history.staged = [e] := by rw [runner]
  have readies : Relation.ReflTransGen (GuardedStep list) w (readied w i e) :=
    .tail (.single (.of_call w i (c := .stage e) nofun)) (.of_call _ i (c := .refresh) nofun)
  have sound' : (readied w i e).Sound (readied w i e).store.tables.log :=
    (sound.after_act i (.stage e)).after_act i .refresh
  refine ⟨readies.tail (.save _ i about (by rw [runner]; exact ruled) alone), ?_, fun j other => ?_⟩
  · rcases sound'.save_cases (by rw [alone]; exact List.cons_ne_nil _ _) with
      ⟨⟨fault, failed⟩, -⟩ | ⟨recorded', drafts, wrote⟩
    · cases answered.symm.trans failed
    · exact tells_save sound' (by rwa [same]) about alone wrote
  · rw [Workshop.runner_act_of_ne other, readied, Workshop.runner_act_of_ne other,
      Workshop.runner_act_of_ne other]

end Runs

/-- Guarded runs give every history of the list that the rules admit. -/
theorem exists_guarded (list : String) (history : List Event)
    (about : ∀ e ∈ history, e.concerns list) (kept : Throughout Event.Admitted history) :
    ∃ (validator : ℕ → Validator Event) (w : Workshop ℕ Event),
      Relation.ReflTransGen (GuardedStep list) (.start default validator) w ∧
        Tells w.store.tables.log list history := by
  -- There is one runner for each event, under its rule.
  let validator (i : ℕ) : Validator Event :=
    ((history[i]?).bind (Event.rule? list)).getD (addItem list)
  suffices written : ∀ front rest, history = front ++ rest → ∃ w : Workshop ℕ Event,
      Relation.ReflTransGen (GuardedStep list) (.start default validator) w ∧
        Tells w.store.tables.log list front ∧
        ∀ i, front.length ≤ i → w.runner i = .ofValidator (validator i) by
    obtain ⟨w, run, tells, -⟩ := written history [] (List.append_nil _).symm
    exact ⟨validator, w, run, tells⟩
  intro front
  induction front using List.reverseRecOn with
  | nil =>
    intro rest _
    have none : (Workshop.start default validator).store.tables.log = [] :=
      (Workshop.sound_start default validator).holds.log_eq
    exact ⟨_, .refl, none ▸ Tells.empty list, fun i _ => rfl⟩
  | append_singleton front e ih =>
    intro rest grown
    rw [List.append_assoc, List.singleton_append] at grown
    obtain ⟨w, run, tells, fresh⟩ := ih _ grown
    have sound := (tells_of_guarded run).1
    have concerned : e.concerns list := about e (grown ▸ List.mem_append_right _ (by simp))
    have admitted : e.Admitted front := (grown ▸ kept).fit_of_append
    have here : history[front.length]? = some e := by simp [grown]
    cases ruled : e.rule? list with
    | none =>
      obtain ⟨t, step, told⟩ := guarded_append sound tells concerned ruled
      refine ⟨_, run.tail step, told, fun i later => fresh i ?_⟩
      rw [List.length_append] at later
      exact Nat.le_of_add_right_le later
    | some V =>
      have own : validator front.length = V := by simp [validator, here, ruled]
      obtain ⟨steps, told, others⟩ := guarded_save sound tells concerned ruled admitted
        (own ▸ fresh front.length (Nat.le_refl _))
      refine ⟨_, run.trans steps, told, fun i later => ?_⟩
      rw [List.length_append] at later
      rw [others i (Nat.ne_of_gt later), fresh i (Nat.le_of_succ_le later)]

/-! ## The limit -/

/-- Any number of runners of the rules on one store, in any order, with anything in
between that writes no addition, completion or reopening of the list. The state of the
list is then its history folded, and the rule on additions counts just the ids that are
incomplete in that state. From an addition on, the different ones are no more than three
and one for each reopening since. While every reopening finds room, no more than three
items are incomplete. -/
theorem limit_of_guarded {ι : Type} [DecidableEq ι] {w : Workshop ι Event} {now : Instant}
    {validator : ι → Validator Event}
    (run : Relation.ReflTransGen (GuardedStep list) (.start now validator) w) :
    ∃ history, Tells w.store.tables.log list history ∧
      showing list w.store = .ok (ListState.after list history) ∧
      (∀ x, x ∈ counted history ↔
        x ∈ ListState.ids (ListState.after list history).incomplete) ∧
      (∀ front owner x title rest, history = front ++ .itemAdded owner x title :: rest →
        (ListState.ids (ListState.after list history).incomplete).toFinset.card ≤
          3 + rest.countP Event.reopens) ∧
      (Throughout (Event.Roomy list) history →
        (ListState.after list history).incomplete.length ≤ 3) := by
  obtain ⟨sound, history, tells, kept⟩ := tells_of_guarded run
  have same (x : String) := mem_counted (x := x) list kept
  refine ⟨history, tells, showing_eq tells sound.holds sound.service, same, ?_,
    incomplete_le kept⟩
  rintro front owner x title rest rfl
  calc (ListState.ids _).toFinset.card
    _ ≤ (counted (front ++ .itemAdded owner x title :: rest)).toFinset.card :=
      Finset.card_le_card fun y present =>
        List.mem_toFinset.2 ((same y).2 (List.mem_toFinset.1 present))
    _ ≤ (counted (front ++ .itemAdded owner x title :: rest)).length := List.toFinset_card_le _
    _ ≤ 3 + rest.countP Event.reopens := counted_le kept

/-- An item is added, completed and reopened, and there was room for it. -/
theorem limit_of_guarded_reopened :
    let history : List Event := [.itemAdded "l" "a" "A", .itemCompleted "t" "l" "a",
      .itemMarkedIncomplete "t" "l" "a"]
    ∃ (validator : ℕ → Validator Event) (w : Workshop ℕ Event),
      Relation.ReflTransGen (GuardedStep "l") (.start default validator) w ∧
        Tells w.store.tables.log "l" history ∧
        (ListState.after "l" history).incomplete.length ≤ 3 := by
  intro history
  obtain ⟨validator, w, run, tells⟩ := exists_guarded "l" history (by decide) (by decide)
  obtain ⟨history', tells', -, -, -, limited⟩ := limit_of_guarded run
  obtain rfl := tells.unique tells'
  exact ⟨validator, w, run, tells, limited (by decide)⟩

/-- A guarded run leads to a store that shows the list in this state. -/
def Attained (list : String) (state : ListState) : Prop :=
  ∃ (validator : ℕ → Validator Event) (w : Workshop ℕ Event),
    Relation.ReflTransGen (GuardedStep list) (.start default validator) w ∧
      showing list w.store = .ok state

theorem attained_after (about : ∀ e ∈ history, e.concerns list)
    (kept : Throughout Event.Admitted history) :
    Attained list (ListState.after list history) := by
  obtain ⟨validator, w, run, tells⟩ := exists_guarded list history about kept
  have sound := (tells_of_guarded run).1
  exact ⟨validator, w, run, showing_eq tells sound.holds sound.service⟩

/-- Four items are incomplete after a completed one is reopened while three are left.
They are also after one is reopened that stands twice, since it counts once from then
on. -/
theorem limit_exceeded :
    Attained "l" ⟨"l", "", [⟨"b", "B"⟩, ⟨"c", "C"⟩, ⟨"d", "D"⟩, ⟨"a", "A"⟩], [], []⟩ ∧
      Attained "l" ⟨"l", "", [⟨"x", "X"⟩, ⟨"x", "X"⟩, ⟨"y", "Y"⟩, ⟨"z", "Z"⟩], [], []⟩ := by
  constructor
  · let history : List Event := [.itemAdded "l" "a" "A", .itemAdded "l" "b" "B",
      .itemAdded "l" "c" "C", .itemCompleted "t" "l" "a", .itemAdded "l" "d" "D",
      .itemMarkedIncomplete "t" "l" "a"]
    have state : ListState.after "l" history =
        ⟨"l", "", [⟨"b", "B"⟩, ⟨"c", "C"⟩, ⟨"d", "D"⟩, ⟨"a", "A"⟩], [], []⟩ := by decide
    exact state ▸ attained_after (by decide) (by decide)
  · let history : List Event := [.itemAdded "l" "x" "X", .itemCompleted "t" "l" "x",
      .itemAdded "l" "x" "X", .itemAdded "l" "x" "X", .itemMarkedIncomplete "t" "l" "x",
      .itemAdded "l" "y" "Y", .itemAdded "l" "z" "Z"]
    have state : ListState.after "l" history =
        ⟨"l", "", [⟨"x", "X"⟩, ⟨"x", "X"⟩, ⟨"y", "Y"⟩, ⟨"z", "Z"⟩], [], []⟩ := by decide
    exact state ▸ attained_after (by decide) (by decide)

end Chronicle.Todo
