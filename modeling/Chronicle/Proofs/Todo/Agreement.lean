import Chronicle.Proofs.Todo.Histories

/-!
# What the rules and the read model make of an item

The rules on an item fold what a history says of it twice, into whether it is there
(`presentIn`) and whether it is done (`completionIn`), while the read model moves it
between lists. An item is there for the rules when the read model has it as incomplete
or completed (`presentIn_iff`). It is done for them when the read model has it as
completed, but also when it was completed and added again since (`Stale`), since an
addition does not undo what is known and a removal does not forget it. So an item can be
completed when it is incomplete and not stale, and reopened when it is completed or
stale (`completion_agrees`).

In a history where items are added only while they are absent, a stale item was removed
before it was added again, and there the two disagree
(`completion_disagrees_readded`).
-/

namespace Chronicle.Todo

variable {list x : String} {history front rest : List Event} (e : Event)

/-! ## The folds of the rules -/

/-- Whether the rules on an item take it to be there. -/
def presentIn (history : List Event) (x : String) : Bool :=
  (history.filter (·.item? = some x)).foldl presence false

/-- Whether they take it to be done. -/
def completionIn (history : List Event) (x : String) : Option Completion :=
  (history.filter (·.item? = some x)).foldl completion none

theorem presentIn_append : presentIn (history ++ [e]) x =
    if e.item? = some x then presence (presentIn history x) e else presentIn history x := by
  rw [presentIn, List.filter_append, List.foldl_append]
  split <;> simp [*, presentIn]

theorem completionIn_append : completionIn (history ++ [e]) x =
    if e.item? = some x then completion (completionIn history x) e
    else completionIn history x := by
  rw [completionIn, List.filter_append, List.foldl_append]
  split <;> simp [*, completionIn]

/-- The item is there for the rules when the read model has it. -/
theorem presentIn_iff (list : String) : presentIn history x ↔
    x ∈ ListState.ids (ListState.after list history).incomplete ∨
      x ∈ ListState.ids (ListState.after list history).completed := by
  induction history using List.reverseRecOn with
  | nil => simp [presentIn, ListState.after, listProjection, ListState.initial, ListState.ids]
  | append_singleton history e ih =>
    rw [presentIn_append, ListState.after_append, ListState.mem_incomplete_apply,
      ListState.mem_completed_apply]
    cases e <;> simp only [Event.item?, presence, Option.some.injEq, reduceCtorEq, if_false]
    all_goals grind

/-- What the rules take to be there is done or not. -/
theorem completionIn_of_presentIn (present : presentIn history x) :
    completionIn history x ≠ none := by
  induction history using List.reverseRecOn with
  | nil => cases present
  | append_singleton history e ih =>
    rw [presentIn_append] at present
    rw [completionIn_append]
    split at present
    · rw [if_pos ‹_›]
      cases e <;> simp_all [presence, completion, Event.item?]
    · rw [if_neg ‹_›]
      exact ih present

/-- What the read model has as completed is done. -/
theorem completionIn_of_completed
    (done : x ∈ ListState.ids (ListState.after list history).completed) :
    completionIn history x = some .complete := by
  induction history using List.reverseRecOn with
  | nil => simp [ListState.after, listProjection, ListState.initial, ListState.ids] at done
  | append_singleton history e ih =>
    rw [ListState.after_append, ListState.mem_completed_apply] at done
    rw [completionIn_append]
    cases e <;>
      simp only [Event.item?, completion, Option.some.injEq, reduceCtorEq, if_false] at done ⊢
    all_goals grind

/-! ## Items that are added again -/

/-- The event completes or reopens the item. -/
def Event.settles (x : String) : Event → Bool
  | .itemCompleted _ _ item | .itemMarkedIncomplete _ _ item => item = x
  | _ => false

/-- The item was completed and added after that, and since its completion it was neither
completed nor reopened. -/
def Stale (history : List Event) (x : String) : Prop :=
  ∃ front tenant owner rest, history = front ++ .itemCompleted tenant owner x :: rest ∧
    (∀ e ∈ rest, ¬ e.settles x) ∧ ∃ owner title, .itemAdded owner x title ∈ rest

/-- Only a completion or a reopening of an item changes what is known of it. -/
theorem completion_of_quiet {status : Completion} (quiet : ¬ e.settles x)
    (about : e.item? = some x) : completion (some status) e = some status := by
  cases e with
  | itemAdded | itemRemoved => rfl
  | itemCompleted tenant owner y | itemMarkedIncomplete tenant owner y =>
    exact absurd (decide_eq_true (Option.some.inj about)) quiet
  | _ => cases about

/-- So an item that is done stays done until then. -/
theorem completionIn_of_unsettled (unsettled : ∀ e ∈ rest, ¬ e.settles x)
    (done : completionIn front x = some .complete) :
    completionIn (front ++ rest) x = some .complete := by
  induction rest using List.reverseRecOn with
  | nil => rwa [List.append_nil]
  | append_singleton rest e ih =>
    obtain ⟨before, last⟩ := List.forall_mem_append.1 unsettled
    rw [← List.append_assoc, completionIn_append, ih before]
    split
    · exact completion_of_quiet e (last e (List.mem_singleton_self e)) ‹_›
    · rfl

theorem Stale.completionIn (stale : Stale history x) : completionIn history x = some .complete := by
  obtain ⟨front, tenant, owner, rest, rfl, unsettled, -⟩ := stale
  have done : Todo.completionIn (front ++ [.itemCompleted tenant owner x]) x = some .complete := by
    rw [completionIn_append]
    simp [Event.item?, completion]
  have still := completionIn_of_unsettled unsettled done
  rwa [List.append_assoc] at still

/-- An item that is done after an event that does not settle it was done before. -/
theorem completionIn_before (quiet : ¬ e.settles x)
    (done : completionIn (history ++ [e]) x = some .complete) :
    completionIn history x = some .complete := by
  rw [completionIn_append] at done
  split at done
  · rename_i about
    cases before : completionIn history x with
    | some status =>
      rw [before, completion_of_quiet e quiet about] at done
      exact done
    | none =>
      -- Of what was not known nothing is done by an addition or a removal.
      rw [before] at done
      cases e with
      | itemCompleted tenant owner y =>
        exact absurd (decide_eq_true (Option.some.inj about)) quiet
      | _ => cases done
  · exact done

/-- What is done was completed, and not completed or reopened since. -/
theorem last_completion (done : completionIn history x = some .complete) :
    ∃ front tenant owner rest, history = front ++ .itemCompleted tenant owner x :: rest ∧
      ∀ e ∈ rest, ¬ e.settles x := by
  induction history using List.reverseRecOn with
  | nil => cases done
  | append_singleton history e ih =>
    by_cases settles : e.settles x
    · rw [completionIn_append] at done
      cases e
      case itemCompleted tenant owner y =>
        obtain rfl : y = x := by simpa [Event.settles] using settles
        exact ⟨history, tenant, owner, [], rfl, by simp⟩
      case itemMarkedIncomplete tenant owner y =>
        obtain rfl : y = x := by simpa [Event.settles] using settles
        simp [Event.item?, completion] at done
      all_goals simp [Event.settles] at settles
    · obtain ⟨front, tenant, owner, rest, rfl, unsettled⟩ := ih (completionIn_before e settles done)
      refine ⟨front, tenant, owner, rest ++ [e], by simp, ?_⟩
      exact List.forall_mem_append.2 ⟨unsettled, by simpa using settles⟩

theorem Stale.append (stale : Stale history x) (quiet : ¬ e.settles x) :
    Stale (history ++ [e]) x := by
  obtain ⟨front, tenant, owner, rest, rfl, unsettled, by_owner, title, added⟩ := stale
  refine ⟨front, tenant, owner, rest ++ [e], by simp, ?_, by_owner, title,
    List.mem_append_left _ added⟩
  exact List.forall_mem_append.2 ⟨unsettled, by simpa using quiet⟩

/-- An item that is incomplete after an event that does not settle it was so before, or
the event adds it. -/
theorem incomplete_before (quiet : ¬ e.settles x)
    (incomplete : x ∈ ListState.ids (ListState.after list (history ++ [e])).incomplete) :
    x ∈ ListState.ids (ListState.after list history).incomplete ∨
      ∃ owner title, e = .itemAdded owner x title := by
  rw [ListState.after_append, ListState.mem_incomplete_apply] at incomplete
  cases e with
  | itemAdded owner y title =>
    rcases incomplete with held | rfl
    · exact .inl held
    · exact .inr ⟨owner, title, rfl⟩
  | itemMarkedIncomplete tenant owner y =>
    rcases incomplete with held | ⟨rfl, -⟩
    · exact .inl held
    · exact absurd (decide_eq_true rfl) quiet
  | itemCompleted => exact .inl incomplete.1
  | itemRemoved => exact .inl incomplete.1
  | _ => exact .inl incomplete

/-- An incomplete item that is done for the rules is stale. -/
theorem stale_of_incomplete
    (incomplete : x ∈ ListState.ids (ListState.after list history).incomplete)
    (done : completionIn history x = some .complete) : Stale history x := by
  induction history using List.reverseRecOn with
  | nil => cases done
  | append_singleton history e ih =>
    by_cases settles : e.settles x
    · -- A completion takes the item away, and a reopened one is not done.
      rw [ListState.after_append, ListState.mem_incomplete_apply] at incomplete
      rw [completionIn_append] at done
      cases e <;> simp_all [Event.settles, Event.item?, completion]
    · have before := completionIn_before e settles done
      rcases incomplete_before e settles incomplete with held | ⟨owner, title, rfl⟩
      · exact (ih held before).append e settles
      · obtain ⟨front, tenant, by_owner, rest, rfl, unsettled⟩ := last_completion before
        refine ⟨front, tenant, by_owner, rest ++ [.itemAdded owner x title], by simp, ?_, owner,
          title, by simp⟩
        exact List.forall_mem_append.2 ⟨unsettled, by simp [Event.settles]⟩

/-- An item that can be completed is incomplete and not stale. -/
theorem completable_iff (list : String) :
    presentIn history x ∧ completionIn history x = some .incomplete ↔
    x ∈ ListState.ids (ListState.after list history).incomplete ∧ ¬ Stale history x := by
  constructor
  · rintro ⟨present, undone⟩
    have fresh : ¬ Stale history x := fun stale => by
      rw [stale.completionIn] at undone
      cases undone
    rcases (presentIn_iff list).1 present with incomplete | completed
    · exact ⟨incomplete, fresh⟩
    · rw [completionIn_of_completed completed] at undone
      cases undone
  · rintro ⟨incomplete, fresh⟩
    have present : presentIn history x := (presentIn_iff list).2 (.inl incomplete)
    refine ⟨present, ?_⟩
    cases known : completionIn history x with
    | none => exact absurd known (completionIn_of_presentIn present)
    | some status =>
      cases status with
      | complete => exact absurd (stale_of_incomplete incomplete known) fresh
      | incomplete => rfl

/-- An item that can be reopened is completed, or incomplete and stale. -/
theorem reopenable_iff (list : String) :
    presentIn history x ∧ completionIn history x = some .complete ↔
    x ∈ ListState.ids (ListState.after list history).completed ∨
      x ∈ ListState.ids (ListState.after list history).incomplete ∧ Stale history x := by
  constructor
  · rintro ⟨present, done⟩
    rcases (presentIn_iff list).1 present with incomplete | completed
    · exact .inr ⟨incomplete, stale_of_incomplete incomplete done⟩
    · exact .inl completed
  · rintro (completed | ⟨incomplete, stale⟩)
    · exact ⟨(presentIn_iff list).2 (.inr completed), completionIn_of_completed completed⟩
    · exact ⟨(presentIn_iff list).2 (.inl incomplete), stale.completionIn⟩

/-! ## Histories without repeated additions -/

/-- The item was added, and not removed since. -/
def Present (history : List Event) (x : String) : Prop :=
  ∃ front owner title rest, history = front ++ .itemAdded owner x title :: rest ∧
    ∀ tenant owner, .itemRemoved tenant owner x ∉ rest

theorem present_append : Present (history ++ [e]) x ↔
    (∃ owner title, e = .itemAdded owner x title) ∨
      Present history x ∧ ∀ tenant owner, e ≠ .itemRemoved tenant owner x := by
  constructor
  · rintro ⟨front, owner, title, rest, split, unremoved⟩
    rcases List.eq_nil_or_concat rest with rfl | ⟨rest, last, rfl⟩
    · obtain ⟨-, same⟩ := List.append_inj' split rfl
      exact .inl ⟨owner, title, List.singleton_inj.1 same⟩
    · rw [List.concat_eq_append] at split unremoved
      rw [← List.cons_append, ← List.append_assoc] at split
      obtain ⟨rfl, same⟩ := List.append_inj' split rfl
      obtain rfl := List.singleton_inj.1 same
      refine .inr ⟨⟨front, owner, title, rest, rfl, fun tenant owner present => ?_⟩,
        fun tenant owner removes => ?_⟩
      · exact unremoved tenant owner (List.mem_append_left _ present)
      · exact unremoved tenant owner (removes ▸ List.mem_append_right _ (by simp))
  · rintro (⟨owner, title, rfl⟩ | ⟨⟨front, owner, title, rest, rfl, unremoved⟩, quiet⟩)
    · exact ⟨history, owner, title, [], rfl, by simp⟩
    · refine ⟨front, owner, title, rest ++ [e], by simp, fun tenant owner present => ?_⟩
      rcases List.mem_append.1 present with earlier | last
      · exact unremoved tenant owner earlier
      · exact quiet tenant owner (List.mem_singleton.1 last).symm

/-- The rules take an item to be there when it is present. -/
theorem present_iff : Present history x ↔ presentIn history x := by
  induction history using List.reverseRecOn with
  | nil => simp [Present, presentIn]
  | append_singleton history e ih =>
    rw [present_append, ih, presentIn_append]
    cases e <;> simp [Event.item?, presence]
    all_goals grind

/-- An item is added while it is absent, and completed, reopened or removed while it is
present. -/
def Event.Fitting (history : List Event) : Event → Prop
  | .itemAdded _ x _ => ¬ Present history x
  | .itemRemoved _ _ x | .itemCompleted _ _ x | .itemMarkedIncomplete _ _ x => Present history x
  | _ => True

abbrev WellKept : List Event → Prop := Throughout Event.Fitting

instance : Decidable (Present history x) := decidable_of_iff _ present_iff.symm

instance : Decidable (e.Fitting history) :=
  match e with
  | .itemAdded .. => inferInstanceAs (Decidable (¬ _))
  | .itemRemoved .. | .itemCompleted .. | .itemMarkedIncomplete .. =>
    inferInstanceAs (Decidable (Present _ _))
  | .listCreated .. | .listDeleted .. | .itemCompletionSet .. | .itemPrioritySet ..
  | .sample .. => isTrue trivial

/-- In a well-kept history a stale item was removed after it was completed. -/
theorem Stale.removed (stale : Stale history x) (kept : WellKept history) :
    ∃ front tenant owner rest, history = front ++ .itemCompleted tenant owner x :: rest ∧
      ∃ tenant owner, .itemRemoved tenant owner x ∈ rest := by
  obtain ⟨front, tenant, owner, rest, rfl, -, by_owner, title, added⟩ := stale
  refine ⟨front, tenant, owner, rest, rfl, ?_⟩
  obtain ⟨before, later, rfl⟩ := List.append_of_mem added
  have there : Present front x := kept.fit_of_append
  have gone : ¬ Present (front ++ .itemCompleted tenant owner x :: before) x := by
    rw [← List.cons_append, ← List.append_assoc] at kept
    exact kept.fit_of_append
  by_contra unremoved
  -- The addition that made the item present still does.
  obtain ⟨start, adder, name, since, rfl, none⟩ := there
  refine gone ⟨start, adder, name, since ++ .itemCompleted tenant owner x :: before, by simp, ?_⟩
  intro remover removed_by present
  rcases List.mem_append.1 present with early | late
  · exact none remover removed_by early
  · rcases List.mem_cons.1 late with other | inBefore
    · cases other
    · exact unremoved ⟨remover, removed_by, List.mem_append_left _ inBefore⟩

/-! ## Validation -/

section Rules

variable {recorded : List (Recorded Event)} (staged : List Event)

theorem streams_completeItem (list x : String) :
    (completeItem list x).streams = [itemStream list x] := rfl

theorem streams_reopenItem (list x : String) :
    (reopenItem list x).streams = [itemStream list x] := rfl

/-- The rule on a completion, where a completion alone is staged. -/
theorem completeItem_accepts
    (events : recorded.map Recorded.event = history.filter (·.item? = some x))
    (tenant owner : String) :
    (completeItem list x).accepts ⟨recorded, [.itemCompleted tenant owner x]⟩ =
      if ¬ presentIn history x then reject "Item is not present in list"
      else if completionIn history x ≠ some .incomplete then reject "Item is not incomplete"
      else .ok () := by
  have there : (View.mk recorded [Event.itemCompleted tenant owner x]).reduce presence false =
      presentIn history x := by
    rw [View.reduce, View.events, events, List.foldl_append]
    rfl
  have known : (View.mk recorded [Event.itemCompleted tenant owner x]).reduceRecorded completion
      none = completionIn history x := by
    rw [View.reduceRecorded, events]
    rfl
  rw [completeItem]
  dsimp only
  rw [there, known]

/-- The rule on a reopening, whatever is staged. -/
theorem reopenItem_accepts
    (events : recorded.map Recorded.event = history.filter (·.item? = some x)) :
    (reopenItem list x).accepts ⟨recorded, staged⟩ =
      if ¬ presentIn history x then reject "Item is not present in list"
      else if completionIn history x ≠ some .complete then reject "Item is not complete"
      else .ok () := by
  have there : (View.mk recorded staged).reduceRecorded presence false = presentIn history x := by
    rw [View.reduceRecorded, events]
    rfl
  have known : (View.mk recorded staged).reduceRecorded completion none =
      completionIn history x := by
    rw [View.reduceRecorded, events]
    rfl
  rw [reopenItem]
  dsimp only
  rw [there, known]

end Rules

theorem guards_eq_ok {p q : Prop} [Decidable p] [Decidable q] {first second : String} :
    (if ¬ p then reject first else if ¬ q then reject second else .ok ()) = .ok () ↔ p ∧ q := by
  split_ifs <;> simp_all [reject]

section Store

variable {s : Store} {log : List StoredEvent}

/-- What a fresh runner of a rule answers with one event staged. -/
def validating (V : Validator Event) (e : Event) (s : Store) : Except Fault Unit :=
  (ValidationRunner.validate.run ((ValidationRunner.ofValidator V).stage e, s)).1

/-- The state of a list that a fresh runner answers. -/
def showing (list : String) (s : Store) : Except Fault ListState :=
  (ProjectionRunner.state.run
    (ProjectionRunner.ofProjection (E := Event) (listProjection list) ⟨false⟩, s)).1

theorem validating_completeItem (tells : Tells log list history) (holds : s.tables.Holds log)
    (service : s.InService) (x tenant : String) :
    validating (completeItem list x) (.itemCompleted tenant list x) s =
      if ¬ presentIn history x then reject "Item is not present in list"
      else if completionIn history x ≠ some .incomplete then reject "Item is not incomplete"
      else .ok () := by
  obtain ⟨recorded, events, answered⟩ := tells.run_validate (V := completeItem list x) holds
    service.sound (streams_completeItem list x) (.itemCompleted tenant list x)
  exact answered.trans (completeItem_accepts events tenant list)

theorem validating_reopenItem (tells : Tells log list history) (holds : s.tables.Holds log)
    (service : s.InService) (x tenant : String) :
    validating (reopenItem list x) (.itemMarkedIncomplete tenant list x) s =
      if ¬ presentIn history x then reject "Item is not present in list"
      else if completionIn history x ≠ some .complete then reject "Item is not complete"
      else .ok () := by
  obtain ⟨recorded, events, answered⟩ := tells.run_validate (V := reopenItem list x) holds
    service.sound (streams_reopenItem list x) (.itemMarkedIncomplete tenant list x)
  exact answered.trans (reopenItem_accepts _ events)

theorem showing_eq (tells : Tells log list history) (holds : s.tables.Holds log)
    (service : s.InService) : showing list s = .ok (ListState.after list history) :=
  tells.run_state holds service.sound

/-- On a store whose log tells the history of a list, the state of the list is answered,
and for every item: a completion of it passes its rule exactly when the item is
incomplete in that state and not stale, and a reopening exactly when it is completed, or
incomplete and stale. So rules and state agree on items that are not stale, and in a
history where items are added only while they are absent, and completed, reopened and
removed only while they are present, those that are were removed after a completion and
added again. -/
theorem completion_agrees (holds : s.tables.Holds log) (service : s.InService)
    (tells : Tells log list history) :
    ∃ state, showing list s = .ok state ∧ ∀ x tenant,
      (validating (completeItem list x) (.itemCompleted tenant list x) s = .ok () ↔
        x ∈ ListState.ids state.incomplete ∧ ¬ Stale history x) ∧
      (validating (reopenItem list x) (.itemMarkedIncomplete tenant list x) s = .ok () ↔
        x ∈ ListState.ids state.completed ∨ x ∈ ListState.ids state.incomplete ∧ Stale history x) ∧
      (WellKept history → Stale history x →
        ∃ front tenant owner rest, history = front ++ .itemCompleted tenant owner x :: rest ∧
          ∃ tenant owner, .itemRemoved tenant owner x ∈ rest) := by
  refine ⟨ListState.after list history, showing_eq tells holds service, fun x tenant => ?_⟩
  refine ⟨?_, ?_, fun kept stale => stale.removed kept⟩
  · rw [validating_completeItem tells holds service, guards_eq_ok]
    exact completable_iff list
  · rw [validating_reopenItem tells holds service, guards_eq_ok]
    exact reopenable_iff list

/-- Of two items the one that is left can be completed and the completed one reopened. -/
theorem completion_agrees_two :
    let history : List Event :=
      [.itemAdded "l" "x" "a", .itemAdded "l" "y" "b", .itemCompleted "t" "l" "x"]
    ∃ log, (storeOf history).tables.Holds log ∧ (storeOf history).InService ∧
      Tells log "l" history ∧
      validating (completeItem "l" "y") (.itemCompleted "t" "l" "y") (storeOf history) = .ok () ∧
      validating (reopenItem "l" "x") (.itemMarkedIncomplete "t" "l" "x") (storeOf history) =
        .ok () := by
  intro history
  obtain ⟨log, holds, service, tells⟩ :=
    storeOf_tells history "l" (by decide)
  refine ⟨log, holds, service, tells, ?_⟩
  obtain ⟨state, shown, judged⟩ := completion_agrees holds service tells
  obtain rfl : ListState.after "l" history = state :=
    Except.ok.inj ((showing_eq tells holds service).symm.trans shown)
  have fresh : ¬ Stale history "y" := fun stale => by cases stale.completionIn
  exact ⟨(judged "y" "t").1.2 ⟨by decide, fresh⟩, (judged "x" "t").2.1.2 (.inl (by decide))⟩

/-- An item that was completed, removed and added again is incomplete. It cannot be
completed, and it can be reopened, though it was added only while it was absent. -/
theorem completion_disagrees_readded :
    let history : List Event := [.itemAdded "l" "x" "a", .itemCompleted "t" "l" "x",
      .itemRemoved "t" "l" "x", .itemAdded "l" "x" "a"]
    WellKept history ∧
      showing "l" (storeOf history) = .ok ⟨"l", "", [⟨"x", "a"⟩], [], [⟨"x", "a"⟩]⟩ ∧
      validating (completeItem "l" "x") (.itemCompleted "t" "l" "x") (storeOf history) =
        .error (.invariantViolation "Item is not incomplete") ∧
      validating (reopenItem "l" "x") (.itemMarkedIncomplete "t" "l" "x") (storeOf history) =
        .ok () := by
  intro history
  obtain ⟨log, holds, service, tells⟩ :=
    storeOf_tells history "l" (by decide)
  refine ⟨by decide, ?_, ?_, ?_⟩
  · rw [showing_eq tells holds service]
    exact congrArg Except.ok (by decide)
  · rw [validating_completeItem tells holds service]
    rfl
  · rw [validating_reopenItem tells holds service]
    rfl

end Store

end Chronicle.Todo
