import Chronicle.Proofs.Runner.Effects

/-!
# How often a runner commits an event

A save commits everything that is staged, and what is saved stays staged. It is
kept from committing it again by its own guard: once something was written to the
streams of a loaded runner, its saves fail (`Workshop.Sound.added_of_spent`), and
its own events count like those of others. So between two refreshes no event is
committed twice that belongs to the streams or was staged after one that does
(`Workshop.saved_once_until_refresh`). A refresh lifts the guard
(`Workshop.Sound.saves_again`).
-/

namespace Chronicle

/-! ## What calls leave in a runner -/

namespace ValidationRunner

variable {E : Type} [DomainEvent E]

/-- The call makes the runner forget what it has read. -/
def Call.refreshes : Call E → Bool
  | forget | refresh => true
  | _ => false

section Calls

variable (r : ValidationRunner E) (s : Store)

/-- Only a save writes to the store. -/
theorem content_perform {c : Call E} (reads : c ≠ .save) :
    (c.perform (r, s)).2.content = s.content := by
  cases c with
  | stage event => rfl
  | forget => rfl
  | events => exact content_events r s
  | refresh =>
    rw [Call.perform, run_refresh]
    exact content_events r.forget s
  | validate =>
    rw [Call.perform, run_validate]
    exact content_events r s
  | save => exact absurd rfl reads

theorem staged_events : (events.run (r, s)).2.1.history.staged = r.history.staged := by
  rw [run_events]
  split
  · rfl
  rcases (Client.streams E r.validator.streams none).run s with ⟨answer, t⟩
  cases answer <;> rfl

/-- What is staged stays staged. -/
theorem staged_perform (c : Call E) :
    ∃ more, (c.perform (r, s)).1.history.staged = r.history.staged ++ more := by
  have kept {r' : ValidationRunner E} (same : r'.history.staged = r.history.staged) :
      ∃ more, r'.history.staged = r.history.staged ++ more :=
    ⟨[], same.trans (List.append_nil _).symm⟩
  cases c with
  | stage event => exact ⟨[event], rfl⟩
  | forget => exact kept rfl
  | events => exact kept (staged_events r s)
  | refresh =>
    rw [Call.perform, run_refresh]
    exact kept (staged_events r.forget s)
  | validate =>
    rw [Call.perform, run_validate]
    exact kept (staged_events r s)
  | save =>
    rw [Call.perform, save_runner]
    split
    · exact kept rfl
    · exact kept (staged_events r s)

/-- What was read stays, unless the runner is made to forget it. -/
theorem loaded_perform {c : Call E} (stays : c.refreshes = false)
    (loaded : r.history.fetched.isSome) : (c.perform (r, s)).1.history.fetched.isSome := by
  have again : (events.run (r, s)).2.1 = r := by
    obtain ⟨recorded, fetched⟩ := Option.isSome_iff_exists.1 loaded
    rw [run_events, fetched]
  cases c with
  | stage event => exact loaded
  | forget => cases stays
  | events => exact again.symm ▸ loaded
  | refresh => cases stays
  | validate =>
    rw [Call.perform, run_validate, again]
    exact loaded
  | save =>
    rw [Call.perform, save_runner, again, ite_self]
    exact loaded

omit [DomainEvent E] in
/-- A loaded runner does not read again. -/
theorem fetches_eq_false {c : Call E} (stays : c.refreshes = false)
    (loaded : r.history.fetched.isSome) : c.fetches r = false := by
  have fetched : r.history.fetched.isNone = false := by
    rw [← Option.not_isSome, loaded]
    rfl
  cases c with
  | stage event => rfl
  | forget => rfl
  | events => exact fetched
  | refresh => cases stays
  | validate => exact fetched
  | save => rw [Call.fetches, fetched, Bool.false_and]

end Calls

/-- A loaded runner that has all events of its streams has missed none. -/
theorem Cached.complete {r : ValidationRunner E} {seen : Nat} {log : List StoredEvent}
    (cached : r.Cached seen log) (numbered : Consecutive noEvent log)
    {recorded : List (Recorded E)} (loaded : r.history.fetched = some recorded)
    (decoded : Client.readAll E (log.filter (StoredEvent.isOf r.validator.streams)) =
      .ok recorded) : (log.drop seen).filter (StoredEvent.isOf r.validator.streams) = [] := by
  obtain ⟨within, decodedView, -⟩ := cached recorded loaded
  have count {rows : List StoredEvent} (decoded : Client.readAll E rows = .ok recorded) :
      rows.length = recorded.length := by
    simpa using (congrArg List.length (Client.map_id_readAll decoded)).symm
  have all := count decoded
  rw [filter_eq_stretch_append numbered within, List.length_append, count decodedView] at all
  exact List.eq_nil_of_length_eq_zero (by lia)

end ValidationRunner

/-- What an event is written as is among what all of them are written as. -/
theorem Client.mem_encode {E : Type} [DomainEvent E] {events : List E} {drafts : List Draft}
    (encoded : Client.encode events = .ok drafts) {event : E} (present : event ∈ events) :
    ∃ draft ∈ drafts, DomainEvent.toDraft event = .ok draft := by
  obtain ⟨split, -⟩ := Client.encode_eq_ok.1 encoded
  clear encoded
  induction events generalizing drafts with
  | nil => cases present
  | cons first events ih =>
    rw [List.mapM_cons, bind_eq_ok] at split
    obtain ⟨draft, splitFirst, others⟩ := split
    obtain ⟨rest, splitRest, same⟩ := bind_eq_ok.1 others
    obtain rfl := Except.ok.inj same
    rcases List.mem_cons.1 present with rfl | inRest
    · exact ⟨draft, List.mem_cons_self, splitFirst⟩
    · obtain ⟨found, inDrafts, splitFound⟩ := ih inRest splitRest
      exact ⟨found, List.mem_cons_of_mem _ inDrafts, splitFound⟩

open ValidationRunner (Call)

namespace Workshop

variable {ι E : Type} [DomainEvent E] [DecidableEq ι]

/-! ## What a call adds to the log -/

/-- What a call of a runner adds to the log. -/
def added (w : Workshop ι E) (i : ι) (c : Call E) : List StoredEvent :=
  (w.act i c).store.tables.log.drop w.store.tables.log.length

section Adding

variable {w w' : Workshop ι E} {i : ι}

theorem runner_act (w : Workshop ι E) (i : ι) (c : Call E) :
    (w.act i c).runner i = (c.perform (w.runner i, w.store)).1 :=
  Function.update_self ..

theorem runner_act_of_ne {j : ι} (other : i ≠ j) (w : Workshop ι E) (c : Call E) :
    (w.act j c).runner i = w.runner i :=
  Function.update_of_ne other ..

theorem seen_act (w : Workshop ι E) (i : ι) (c : Call E) :
    (w.act i c).seen i =
      if c.fetches (w.runner i) then w.store.tables.events.length else w.seen i := by
  unfold act
  dsimp only
  split
  · exact Function.update_self ..
  · rfl

theorem seen_act_of_ne {j : ι} (other : i ≠ j) (w : Workshop ι E) (c : Call E) :
    (w.act j c).seen i = w.seen i := by
  unfold act
  dsimp only
  split
  · exact Function.update_of_ne other ..
  · rfl

omit [DecidableEq ι] in
theorem Sound.length_events (sound : w.Sound w.store.tables.log) :
    w.store.tables.events.length = w.store.tables.log.length := by
  rw [sound.holds.rows, List.length_map]

theorem Sound.after_act (sound : w.Sound w.store.tables.log) (j : ι) (c : Call E) :
    (w.act j c).Sound (w.act j c).store.tables.log := by
  obtain ⟨more, grown⟩ := sound_act sound j c
  rwa [grown.holds.log_eq]

theorem Sound.log_act (sound : w.Sound w.store.tables.log) (j : ι) (c : Call E) :
    (w.act j c).store.tables.log = w.store.tables.log ++ w.added j c := by
  obtain ⟨more, grown⟩ := sound_act sound j c
  rw [added, grown.holds.log_eq, List.drop_left]

/-- A save has added to the log. The runner had all events of its streams, and what is
added are the encoded staged events. -/
structure Wrote (w : Workshop ι E) (i : ι) (recorded : List (Recorded E)) (drafts : List Draft) :
    Prop where
  read : (w.runner i).history.fetched = none ∨ (w.runner i).history.fetched = some recorded
  loaded : ((w.act i .save).runner i).history.fetched = some recorded
  complete : Client.readAll E (w.matching (w.runner i).validator.streams) = .ok recorded
  accepted : (w.runner i).validator.accepts ⟨recorded, (w.runner i).history.staged⟩ = .ok ()
  encoded : Client.encode (w.runner i).history.staged = .ok drafts
  added : w.added i .save = Draft.numbered w.store.now w.store.tables.lastId drafts
  answer : (w.saving i).1 = Client.readAll E (w.added i .save)

/-- A save fails and adds nothing, or it adds what is staged. -/
theorem Sound.save_cases (sound : w.Sound w.store.tables.log)
    (some_staged : (w.runner i).history.staged ≠ []) :
    (∃ fault, (w.saving i).1 = .error fault) ∧ w.added i .save = [] ∨
      ∃ recorded drafts, w.Wrote i recorded drafts := by
  rcases ValidationRunner.save_cases (sound.cached i) sound.holds some_staged rfl with
    ⟨fault, failed, kept⟩ | ⟨recorded, drafts, read, loaded, complete, accepted, encoded, answer,
      grown⟩
  · refine .inl ⟨⟨fault, failed⟩, ?_⟩
    have same : (w.act i .save).store.tables = w.store.tables := congrArg Prod.fst kept
    rw [added, same, List.drop_length]
  · have added : w.added i .save = Draft.numbered w.store.now w.store.tables.lastId drafts := by
      have log : (w.act i .save).store.tables.log = _ := grown.log_eq
      rw [added, log, List.drop_left]
    exact .inr ⟨recorded, drafts, read, (runner_act w i .save).symm ▸ loaded, complete, accepted,
      encoded, added, added ▸ answer⟩

/-- A call adds nothing, unless it is a save that adds what is staged. -/
theorem Sound.added_cases (sound : w.Sound w.store.tables.log) (i : ι) (c : Call E) :
    w.added i c = [] ∨ c = .save ∧ (w.runner i).history.staged ≠ [] ∧
      ∃ recorded drafts, w.Wrote i recorded drafts := by
  have unchanged {c : Call E} (same : (w.act i c).store.tables = w.store.tables) :
      w.added i c = [] := by
    rw [added, same, List.drop_length]
  by_cases reads : c = .save
  · subst reads
    by_cases none : (w.runner i).history.staged = []
    · refine .inl (unchanged ?_)
      show (w.saving i).2.tables = _
      rw [saving, ValidationRunner.run_save, if_pos none]
    · exact (sound.save_cases none).imp And.right fun wrote => ⟨rfl, none, wrote⟩
  · exact .inl (unchanged (congrArg Prod.fst (ValidationRunner.content_perform _ _ reads)))

/-! ## Runners that can save no more -/

/-- The runner has read its streams, and something was written to them since. -/
def Spent (w : Workshop ι E) (i : ι) : Prop :=
  (w.runner i).history.fetched.isSome ∧ w.missed i ≠ []

/-- Such a runner adds nothing. -/
theorem Sound.added_of_spent (sound : w.Sound w.store.tables.log) (spent : w.Spent i)
    (c : Call E) : w.added i c = [] := by
  obtain ⟨loaded, late⟩ := spent
  rcases sound.added_cases i c with nothing | ⟨-, -, recorded, _, wrote⟩
  · exact nothing
  · rcases wrote.read with none | fetched
    · rw [none] at loaded
      cases loaded
    · exact absurd ((sound.cached i).complete sound.holds.numbered fetched wrote.complete) late

omit [DecidableEq ι] in
/-- It stays so while it keeps what it has read, whatever is written. -/
theorem Sound.spent_grow (sound : w.Sound w.store.tables.log) (spent : w.Spent i)
    {more : List StoredEvent} (log : w'.store.tables.log = w.store.tables.log ++ more)
    (rule : (w'.runner i).validator = (w.runner i).validator) (seen : w'.seen i = w.seen i)
    (loaded : (w'.runner i).history.fetched.isSome) : w'.Spent i := by
  obtain ⟨loadedBefore, late⟩ := spent
  obtain ⟨recorded, fetched⟩ := Option.isSome_iff_exists.1 loadedBefore
  obtain ⟨within, -⟩ := sound.cached i recorded fetched
  refine ⟨loaded, fun none => late ?_⟩
  rw [missed, log, rule, seen, List.drop_append_of_le_length within, List.filter_append] at none
  exact (List.append_eq_nil_iff.1 none).1

theorem Sound.spent_other (sound : w.Sound w.store.tables.log) (spent : w.Spent i) {j : ι}
    (other : i ≠ j) (c : Call E) : (w.act j c).Spent i := by
  have same := runner_act_of_ne other w c
  exact sound.spent_grow spent (sound.log_act j c) (by rw [same]) (seen_act_of_ne other w c)
    (same ▸ spent.1)

theorem Sound.spent_own (sound : w.Sound w.store.tables.log) (spent : w.Spent i) {c : Call E}
    (stays : c.refreshes = false) : (w.act i c).Spent i := by
  have rule := (ValidationRunner.cached_perform c (sound.cached i) sound.holds).1
  have seen : (w.act i c).seen i = w.seen i := by
    rw [seen_act, ValidationRunner.fetches_eq_false _ stays spent.1]
    rfl
  refine sound.spent_grow spent (sound.log_act i c) ?_ seen ?_
  · rwa [runner_act]
  · rw [runner_act]
    exact ValidationRunner.loaded_perform _ _ stays spent.1

/-- A save that writes to the runner's own streams leaves it so. -/
theorem Sound.spent_of_added (sound : w.Sound w.store.tables.log) {c : Call E}
    {row : StoredEvent} (present : row ∈ w.added i c)
    (isOf : row.isOf (w.runner i).validator.streams) : (w.act i c).Spent i := by
  have rule := (ValidationRunner.cached_perform c (sound.cached i) sound.holds).1
  rcases sound.added_cases i c with nothing | ⟨rfl, some_staged, recorded, _, wrote⟩
  · rw [nothing] at present
    cases present
  -- What the runner has read is no more than there was before the save.
  have within : (w.act i .save).seen i ≤ w.store.tables.log.length := by
    rw [seen_act, sound.length_events]
    split
    · exact Nat.le_refl _
    · rename_i loaded
      rcases wrote.read with none | fetched
      · simp [Call.fetches, none, some_staged] at loaded
      · exact (sound.cached i recorded fetched).1
  refine ⟨?_, List.ne_nil_of_mem (a := row) ?_⟩
  · rw [wrote.loaded]
    rfl
  · rw [missed, sound.log_act, runner_act, rule, List.drop_append_of_le_length within]
    exact List.mem_filter.2 ⟨List.mem_append_right _ present, isOf⟩

end Adding

/-! ## The saves since a refresh -/

/-- A run, with what each call of one runner since its last refresh has added. -/
inductive Since (now : Instant) (validator : ι → Validator E) (i : ι) :
    Workshop ι E → List (List StoredEvent) → Prop
  | start : Since now validator i (start now validator) []
  | elsewhere {w : Workshop ι E} {blocks : List (List StoredEvent)}
    (run : Since now validator i w blocks) {t : Store} (step : Store.Step w.store t) :
    Since now validator i { w with store := t } blocks
  | other {w : Workshop ι E} {blocks : List (List StoredEvent)}
    (run : Since now validator i w blocks) {j : ι} (other : i ≠ j) (c : Call E) :
    Since now validator i (w.act j c) blocks
  | own {w : Workshop ι E} {blocks : List (List StoredEvent)}
    (run : Since now validator i w blocks) (c : Call E) :
    Since now validator i (w.act i c) ((if c.refreshes then [] else blocks) ++ [w.added i c])

/-- What is known of the blocks: each is some of the staged events, from the first
on, as they are written. After one with an event of the runner's streams the rest
are empty, and so is whatever comes. -/
structure Ledger (w : Workshop ι E) (i : ι) (blocks : List (List StoredEvent)) : Prop where
  sound : w.Sound w.store.tables.log
  whole : ∀ block ∈ blocks, block.length ≤ (w.runner i).history.staged.length ∧
    ∃ now last drafts,
      Client.encode ((w.runner i).history.staged.take block.length) = .ok drafts ∧
        block = Draft.numbered now last drafts
  once : blocks.Pairwise fun earlier later =>
    (∃ row ∈ earlier, row.isOf (w.runner i).validator.streams) → later = []
  spent : (∃ block ∈ blocks, ∃ row ∈ block, row.isOf (w.runner i).validator.streams) → w.Spent i

section Ledgers

variable {w w' : Workshop ι E} {i : ι} {blocks : List (List StoredEvent)}

omit [DecidableEq ι] in
/-- What the runner has not done itself leaves its blocks. -/
theorem Ledger.keep (ledger : w.Ledger i blocks) (sound : w'.Sound w'.store.tables.log)
    (same : w'.runner i = w.runner i) (spent : w.Spent i → w'.Spent i) : w'.Ledger i blocks := by
  refine ⟨sound, ?_, ?_, ?_⟩
  · rw [same]
    exact ledger.whole
  · rw [same]
    exact ledger.once
  · rw [same]
    exact fun written => spent (ledger.spent written)

omit [DecidableEq ι] in
/-- The blocks that a runner has when it is made to read anew. -/
theorem Ledger.forget (ledger : w.Ledger i blocks) : w.Ledger i [] :=
  ⟨ledger.sound, by simp, .nil, by simp⟩

theorem Ledger.own (ledger : w.Ledger i blocks) (c : Call E)
    (fresh : blocks = [] ∨ c.refreshes = false) :
    (w.act i c).Ledger i (blocks ++ [w.added i c]) := by
  have rule : ((w.act i c).runner i).validator = (w.runner i).validator := by
    rw [runner_act]
    exact (ValidationRunner.cached_perform c (ledger.sound.cached i) ledger.sound.holds).1
  obtain ⟨more, staged⟩ := ValidationRunner.staged_perform (w.runner i) w.store c
  rw [← runner_act] at staged
  refine ⟨ledger.sound.after_act i c, fun block present => ?_, ?_, ?_⟩
  · -- More may be staged by now than was when the block was written.
    suffices kept : block.length ≤ (w.runner i).history.staged.length ∧
        ∃ now last drafts,
          Client.encode ((w.runner i).history.staged.take block.length) = .ok drafts ∧
            block = Draft.numbered now last drafts by
      obtain ⟨within, wrote⟩ := kept
      rw [staged, List.take_append_of_le_length within, List.length_append]
      exact ⟨Nat.le_add_right_of_le within, wrote⟩
    rcases List.mem_append.1 present with before | new
    · exact ledger.whole block before
    obtain rfl := List.mem_singleton.1 new
    rcases ledger.sound.added_cases i c with nothing | ⟨rfl, -, _, drafts, wrote⟩
    · rw [nothing]
      exact ⟨Nat.zero_le _, default, 0, [], rfl, rfl⟩
    · have length : (w.added i .save).length = (w.runner i).history.staged.length := by
        rw [wrote.added, Draft.length_numbered, Client.length_encode wrote.encoded]
      rw [length, List.take_length]
      exact ⟨Nat.le_refl _, _, _, drafts, wrote.encoded, wrote.added⟩
  · rw [rule]
    refine List.pairwise_append.2 ⟨ledger.once, List.pairwise_singleton .., ?_⟩
    intro earlier inBlocks later new written
    obtain rfl := List.mem_singleton.1 new
    exact ledger.sound.added_of_spent (ledger.spent ⟨earlier, inBlocks, written⟩) c
  · rw [rule]
    rintro ⟨block, present, row, inBlock, isOf⟩
    rcases List.mem_append.1 present with before | new
    · rcases fresh with rfl | stays
      · cases before
      · exact ledger.sound.spent_own (ledger.spent ⟨block, before, row, inBlock, isOf⟩) stays
    · obtain rfl := List.mem_singleton.1 new
      exact ledger.sound.spent_of_added inBlock isOf

theorem Since.ledger {now : Instant} {validator : ι → Validator E}
    (run : Since now validator i w blocks) : w.Ledger i blocks := by
  induction run with
  | start => exact ⟨Steps.sound .refl, by simp, .nil, by simp⟩
  | @elsewhere w blocks run t step ih =>
    obtain ⟨more, grown⟩ := (Step.elsewhere w step).sound ih.sound
    have log := grown.holds.log_eq
    exact ih.keep (log.symm ▸ grown) rfl fun spent => ih.sound.spent_grow spent log rfl rfl spent.1
  | other run other c ih =>
    exact ih.keep (ih.sound.after_act _ c) (runner_act_of_ne other _ c) fun spent =>
      ih.sound.spent_other spent other c
  | own run c ih =>
    cases refreshes : c.refreshes with
    | false => exact ih.own c (.inr refreshes)
    | true => exact ih.forget.own c (.inl rfl)

omit [DecidableEq ι] in
/-- A block that reaches past an event of the streams has one. -/
theorem Ledger.exists_isOf (ledger : w.Ledger i blocks) {block : List StoredEvent}
    (present : block ∈ blocks) {j : Nat} {event : E}
    (staged : (w.runner i).history.staged[j]? = some event)
    (belongs : Client.BelongsTo (w.runner i).validator.streams event) (past : j < block.length) :
    ∃ row ∈ block, row.isOf (w.runner i).validator.streams := by
  obtain ⟨-, now, last, drafts, encoded, wrote⟩ := ledger.whole block present
  have among : event ∈ (w.runner i).history.staged.take block.length := by
    refine List.mem_of_getElem? (i := j) ?_
    rwa [List.getElem?_take_of_lt past]
  obtain ⟨draft, inDrafts, split⟩ := Client.mem_encode encoded among
  rw [wrote]
  obtain ⟨row, inRows, type, data⟩ := Draft.exists_numbered inDrafts
  refine ⟨row, inRows, ?_⟩
  rw [StoredEvent.isOf, type, data]
  exact belongs draft split

end Ledgers

/-- Since a runner was made or last refreshed, with anything that other runners and
clients do in between: what each of its calls has added are the staged events from
the first on, each once and as it is written, or nothing. After a save that wrote
to the runner's streams, no call of it adds anything. So an event that belongs to
the streams, and every event staged after it, is added once at most. -/
theorem saved_once_until_refresh {now : Instant} {validator : ι → Validator E} {i : ι}
    {w : Workshop ι E} {blocks : List (List StoredEvent)} (run : Since now validator i w blocks) :
    (∀ block ∈ blocks, block.length ≤ (w.runner i).history.staged.length ∧
      ∃ now last drafts,
        Client.encode ((w.runner i).history.staged.take block.length) = .ok drafts ∧
          block = Draft.numbered now last drafts) ∧
    (blocks.Pairwise fun earlier later =>
      (∃ row ∈ earlier, row.isOf (w.runner i).validator.streams) → later = []) ∧
    ∀ (j k : Nat) (event : E), j ≤ k → (w.runner i).history.staged[j]? = some event →
      Client.BelongsTo (w.runner i).validator.streams event →
      (blocks.filter fun block => k < block.length).length ≤ 1 := by
  have ledger := run.ledger
  refine ⟨ledger.whole, ledger.once, fun j k event before staged belongs => ?_⟩
  -- Of two blocks that reach that far, the later would be empty.
  have apart : (blocks.filter fun block => k < block.length).Pairwise fun _ _ => False := by
    refine (ledger.once.filter _).imp_of_mem fun {earlier later} inEarlier inLater once => ?_
    obtain ⟨present, reaches⟩ := List.mem_filter.1 inEarlier
    obtain ⟨-, reachesLater⟩ := List.mem_filter.1 inLater
    have past : j < earlier.length := Nat.lt_of_le_of_lt before (of_decide_eq_true reaches)
    rw [once (ledger.exists_isOf present staged belongs past)] at reachesLater
    simp at reachesLater
  generalize blocks.filter (fun block => k < block.length) = reaching at apart ⊢
  rcases reaching with _ | ⟨first, _ | ⟨second, rest⟩⟩
  · exact Nat.zero_le 1
  · exact Nat.le_refl 1
  · exact ((List.pairwise_cons.1 apart).1 second List.mem_cons_self).elim

/-! ## After a refresh -/

/-- A runner that is refreshed has its streams as they are, and what it had staged. -/
theorem Sound.refreshed {w : Workshop ι E} {i : ι} (sound : w.Sound w.store.tables.log)
    {view : View E}
    (loads : (ValidationRunner.events.run ((w.runner i).forget, w.store)).1 = .ok view) :
    (w.act i .refresh).runner i =
        ⟨(w.runner i).validator, some view.recorded, (w.runner i).history.staged⟩ ∧
      (w.act i .refresh).store.content = w.store.content ∧ (w.act i .refresh).missed i = [] := by
  have own : (w.act i .refresh).runner i =
      (ValidationRunner.events.run ((w.runner i).forget, w.store)).2.1 := by
    rw [runner_act, Call.perform, ValidationRunner.run_refresh]
  obtain ⟨-, rule, staged, -, -, shows⟩ := ValidationRunner.events_spec
    (ValidationRunner.cached_forget (w.runner i) 0 _) sound.holds (Prod.ext loads rfl)
  obtain ⟨fetched, -⟩ := shows view rfl
  have kept : (w.act i .refresh).store.content = w.store.content :=
    ValidationRunner.content_perform (c := .refresh) _ _ (by simp)
  refine ⟨?_, kept, ?_⟩
  · show _ = (⟨(w.runner i).forget.validator, some view.recorded,
      (w.runner i).forget.history.staged⟩ : ValidationRunner E)
    rw [own, ← rule, ← staged, ← fetched]
  · have tables : (w.act i .refresh).store.tables = w.store.tables := congrArg Prod.fst kept
    rw [missed, seen_act, if_pos (by rfl), tables, sound.length_events, List.drop_length,
      List.filter_nil]

/-- So it saves again what it saved before, if its rule accepts that. -/
theorem Sound.saves_again {w : Workshop ι E} {i : ι} (sound : w.Sound w.store.tables.log)
    {view : View E}
    (loads : (ValidationRunner.events.run ((w.runner i).forget, w.store)).1 = .ok view)
    (some_staged : (w.runner i).history.staged ≠ [])
    (lasting : ∀ event ∈ (w.runner i).history.staged, Client.Lasting event)
    (accepted : (w.runner i).validator.accepts ⟨view.recorded, (w.runner i).history.staged⟩ =
      .ok ())
    (fits : Statement.guardFits (w.runner i).history.staged.length
      (.ofStreams (w.runner i).validator.streams)) :
    ∃ saved, ((w.act i .refresh).saving i).1 = .ok saved ∧
      saved.map Recorded.event = (w.runner i).history.staged := by
  obtain ⟨runner, -, quiet⟩ := sound.refreshed loads
  have after := sound.after_act i .refresh
  have loaded : ((w.act i .refresh).runner i).history.fetched = some view.recorded := by
    rw [runner]
  have staged : ((w.act i .refresh).runner i).history.staged = (w.runner i).history.staged := by
    rw [runner]
  obtain ⟨saved, answered⟩ := (after.saving_cases loaded (staged ▸ some_staged)
    (staged ▸ lasting) (by rw [runner]; exact accepted) (by rw [runner]; exact fits)).1 quiet
  refine ⟨saved, answered, ?_⟩
  rw [← staged]
  exact (after.saving_ok loaded (staged ▸ some_staged) (staged ▸ lasting) answered).2.1

/-! ## One runner, one event, two saves -/

section Twice

variable {specs : List Stream} {w : Workshop Unit Draft}

theorem runner_act_save {recorded : List (Recorded Draft)}
    (loaded : (w.runner ()).history.fetched = some recorded) :
    (w.act () .save).runner () = w.runner () := by
  rw [runner_act, Call.perform, ValidationRunner.save_runner, ValidationRunner.run_events, loaded,
    ite_self]

/-- The event that is staged is added at the end. -/
theorem written_act_save (sound : w.Sound w.store.tables.log)
    (staged : (w.runner ()).history.staged = [⟨"T", .null⟩]) {saved : List (Recorded Draft)}
    (answered : (w.saving ()).1 = .ok saved) :
    (w.act () .save).store.tables.log.map (fun row => (row.type, row.data)) =
      w.store.tables.log.map (fun row => (row.type, row.data)) ++ [("T", .null)] := by
  rcases sound.save_cases (i := ()) (by simp [staged]) with
    ⟨⟨fault, failed⟩, -⟩ | ⟨_, drafts, wrote⟩
  · exact absurd (answered.symm.trans failed) (by simp)
  have encoded := wrote.encoded
  rw [staged] at encoded
  obtain rfl := Except.ok.inj encoded
  rw [sound.log_act, wrote.added, List.map_append, Draft.map_numbered Prod.mk]
  rfl

/-- A runner without a rule saves what it has staged, when it has missed nothing. -/
theorem saves_of_quiet (sound : w.Sound w.store.tables.log) {recorded : List (Recorded Draft)}
    (runner : w.runner () = ⟨lenient specs, some recorded, [⟨"T", .null⟩]⟩)
    (fits : Statement.guardFits 1 (.ofStreams specs)) (quiet : w.missed () = []) :
    ∃ saved, (w.saving ()).1 = .ok saved := by
  have lasting : ∀ event ∈ (w.runner ()).history.staged, Client.Lasting event := by
    rw [runner]
    intro event staged
    obtain rfl := List.mem_singleton.1 staged
    exact lasting_plain
  exact (sound.saving_cases (by rw [runner]) (by simp [runner]) lasting (by rw [runner]; rfl)
    (by rw [runner]; exact fits)).1 quiet

/-- Nor does it have a rule after a refresh, which loads whatever was saved. -/
theorem written_again (sound : w.Sound w.store.tables.log) {recorded : List (Recorded Draft)}
    (runner : w.runner () = ⟨lenient specs, some recorded, [⟨"T", .null⟩]⟩)
    (valid : ∀ spec ∈ specs, spec.Valid)
    (prepared : specs ≠ [] → Statement.canSelect (.ofStreams specs) none)
    (fits : Statement.guardFits 1 (.ofStreams specs)) :
    (((w.act () .refresh).act () .save).runner ()).history.staged = [⟨"T", .null⟩] ∧
      ((w.act () .refresh).act () .save).store.tables.log.map (fun row => (row.type, row.data)) =
        w.store.tables.log.map (fun row => (row.type, row.data)) ++ [("T", .null)] := by
  have loads : ∃ view, (ValidationRunner.events.run ((w.runner ()).forget, w.store)).1 =
      .ok view := by
    obtain ⟨recorded, decoded⟩ := Client.readAll_of_fits (E := Draft)
      fun row _ => Draft.fits_raw ⟨row.type, row.data.reread⟩
    have read := (Client.run_streams_of_holds sound.holds sound.service.sound valid
      prepared).trans decoded
    rw [runner, ValidationRunner.run_events]
    dsimp only [ValidationRunner.forget, History.invalidate, lenient]
    rcases ran : (Client.streams Draft specs none).run w.store with ⟨answer, t⟩
    rw [ran] at read
    subst read
    exact ⟨_, rfl⟩
  obtain ⟨view, loads⟩ := loads
  obtain ⟨refreshed, kept, quiet⟩ := sound.refreshed loads
  rw [runner] at refreshed
  have after := sound.after_act () .refresh
  obtain ⟨saved, answered⟩ := saves_of_quiet after refreshed fits quiet
  have written := written_act_save after (by rw [refreshed]) answered
  rw [(Store.content_eq_iff.1 kept).1] at written
  exact ⟨by rw [runner_act_save (by rw [refreshed]), refreshed], written⟩

end Twice

/-- The runner saves what it has staged. -/
def savedOnce (specs : List Stream) : Workshop Unit Draft := (oneLoaded specs).act () .save

/-- It is refreshed and saves again. -/
def savedAgain : Workshop Unit Draft := ((savedOnce [plainStream]).act () .refresh).act () .save

/-- The event belongs to none of its streams, and it saves again at once. -/
def savedTwice : Workshop Unit Draft := (savedOnce []).act () .save

theorem steps_savedOnce (specs : List Stream) :
    Steps (start default fun _ => lenient specs) (savedOnce specs) :=
  (steps_oneLoaded specs).tail (.act _ _ _)

theorem savedOnce_spec {specs : List Stream} (valid : ∀ spec ∈ specs, spec.Valid)
    (prepared : specs ≠ [] → Statement.canSelect (.ofStreams specs) none)
    (fits : Statement.guardFits 1 (.ofStreams specs)) :
    (savedOnce specs).runner () = ⟨lenient specs, some [], [⟨"T", .null⟩]⟩ ∧
      (savedOnce specs).store.tables.log.map (fun row => (row.type, row.data)) =
        [("T", .null)] := by
  have runner := runner_oneLoaded valid prepared
  have sound := (steps_oneLoaded specs).sound
  have quiet : (oneLoaded specs).missed () = [] := by
    rw [missed, log_oneLoaded]
    rfl
  obtain ⟨saved, answered⟩ := saves_of_quiet sound runner fits quiet
  have written := written_act_save sound (by rw [runner]) answered
  rw [log_oneLoaded] at written
  exact ⟨(runner_act_save (by rw [runner])).trans runner, written⟩

/-- Saving once more adds nothing. -/
theorem saved_once_until_refresh_one :
    (oneLoaded [plainStream]).added () .save ≠ [] ∧
      (savedOnce [plainStream]).added () .save = [] := by
  obtain ⟨runner, written⟩ := savedOnce_spec plainStream_valid
    (fun _ => canSelect_plainStream none) (by decide)
  have grown : (savedOnce [plainStream]).store.tables.log = _ :=
    (steps_oneLoaded [plainStream]).sound.log_act () .save
  rw [log_oneLoaded, List.nil_append] at grown
  have among : ("T", Json.null) ∈
      ((oneLoaded [plainStream]).added () .save).map fun row => (row.type, row.data) := by
    rw [← grown, written]
    simp
  obtain ⟨row, present, same⟩ := List.mem_map.1 among
  have isOf : row.isOf [plainStream] := by
    simp [StoredEvent.isOf, has_plainStream, (Prod.mk.inj same).1]
  have new : Since default (fun _ => lenient [plainStream]) () _ _ := .start
  have run : Since default (fun _ => lenient [plainStream]) ()
      ((savedOnce [plainStream]).act () .save) _ :=
    (((new.own (.stage ⟨"T", .null⟩)).own .events).own .save).own .save
  have streams : (((savedOnce [plainStream]).act () .save).runner ()).validator.streams =
      [plainStream] := by
    rw [runner_act_save (by rw [runner]), runner]
    rfl
  have once := (saved_once_until_refresh run).2.1
  rw [streams] at once
  simp only [Call.refreshes, Bool.false_eq_true, if_false] at once
  exact ⟨List.ne_nil_of_mem present, (List.pairwise_append.1 once).2.2 _
    (List.mem_append_right _ (List.mem_singleton_self _)) _ (List.mem_singleton_self _)
    ⟨row, present, isOf⟩⟩

/-- A runner commits its one event twice: when it is refreshed in between, and
without that when the event belongs to none of its streams. -/
theorem saved_again_after_refresh :
    (Steps (start default fun _ => lenient [plainStream]) savedAgain ∧
      (savedAgain.runner ()).history.staged = [⟨"T", .null⟩] ∧
      savedAgain.store.tables.log.map (fun row => (row.type, row.data)) =
        [("T", .null), ("T", .null)]) ∧
    Steps (start default fun _ => lenient []) savedTwice ∧
      (savedTwice.runner ()).history.staged = [⟨"T", .null⟩] ∧
      savedTwice.store.tables.log.map (fun row => (row.type, row.data)) =
        [("T", .null), ("T", .null)] := by
  unfold savedAgain savedTwice
  refine ⟨?_, ?_⟩
  · have run := steps_savedOnce [plainStream]
    have fits : Statement.guardFits 1 (.ofStreams [plainStream]) := by decide
    have prepared := fun _ : [plainStream] ≠ [] => canSelect_plainStream none
    obtain ⟨runner, written⟩ := savedOnce_spec plainStream_valid prepared fits
    obtain ⟨staged, again⟩ := written_again run.sound runner plainStream_valid prepared fits
    rw [written] at again
    exact ⟨(run.tail (.act _ _ _)).tail (.act _ _ _), staged, again⟩
  · have run := steps_savedOnce []
    have fits : Statement.guardFits 1 (.ofStreams []) := by decide
    obtain ⟨runner, written⟩ := savedOnce_spec (by simp) (by simp) fits
    have quiet : (savedOnce []).missed () = [] := by
      rw [missed, runner]
      exact List.filter_eq_nil_iff.2 fun row _ => by simp [lenient, StoredEvent.isOf_nil]
    obtain ⟨saved, answered⟩ := saves_of_quiet run.sound runner fits quiet
    have again := written_act_save run.sound (by rw [runner]) answered
    rw [written] at again
    refine ⟨run.tail (.act _ _ _), ?_, again⟩
    rw [runner_act_save (by rw [runner]), runner]

end Workshop

end Chronicle
