import Chronicle.Proofs.Log.Unions
import Chronicle.Proofs.Runner.Resumption
import Chronicle.Proofs.Runner.Stability

/-!
# Previews

A runner shows its staged events after those that it has read. When just these events are
committed next (`Commits`), a runner that starts anew reads what the first one showed, and
folds it to the same state (`previews_faithful`). For this the staged events have to belong
to the runner's streams, and each has to be what is decoded from its row
(`Client.ReadsBack`). An event with a float need not be, although it is what is decoded from
its own draft: a float that is staged can come back as the one before it
(`float_preview_differs`).

Nothing is asked of the store, which may hold rows of any kind: the same statement is run
again, and it selects the rows that it selected before and then the new ones
(`Client.streams_grown`).
-/

namespace Chronicle

/-! ## Commits -/

/-- Nothing was appended from one store to the other, and no holder of the lock crashed. -/
structure Store.Quiet (s t : Store) : Prop where
  events : t.tables.events = s.tables.events
  poisoned : t.poisoned = s.poisoned

/-- The event is what is decoded from the row that it is written as. -/
def Client.ReadsBack {E : Type} [DomainEvent E] (event : E) : Prop :=
  ∃ draft, DomainEvent.toDraft event = .ok draft ∧
    DomainEvent.ofRaw draft.type draft.data.reread = .ok event

/-- Just these events are committed to what the first store holds, by a write of a client of
any domain or by the save of a validation runner, and leave the second. -/
inductive Commits {E : Type} [DomainEvent E] (events : List E) (s : Store) : Store → Prop
  | write {t u : Store} (quiet : s.Quiet t) {F : Type} [DomainEvent F] (w : Client.Write F)
    (asked : w.drafts = events.mapM DomainEvent.toDraft) {written : List (Recorded F)}
    (answered : w.action.run t = (.ok written, u)) : Commits events s u
  | save {t u : Store} (quiet : s.Quiet t) {r r' : ValidationRunner E}
    (staged : r.history.staged = events) {saved : List (Recorded E)}
    (answered : ValidationRunner.save.run (r, t) = (.ok saved, r', u)) : Commits events s u

namespace Client

variable {E : Type} [DomainEvent E]

/-- A write leaves the lock as it was. -/
theorem Write.poisoned_perform (w : Write E) (s : Store) :
    (w.perform s).poisoned = s.poisoned := by
  have asked (drafts : List Draft) : ((w.request drafts).run s).2.poisoned = s.poisoned := by
    cases w with
    | appendIfNoNewer events floor specs =>
      exact (Store.leaves_perform (.appendIfNoNewer drafts floor specs) s).2.1
    | append | appendRaw | appendBatch | appendBatchRaw =>
      exact (Store.leaves_perform (.appendBatch drafts) s).2.1
  rw [perform, run_action]
  cases w.checked with
  | error fault => rfl
  | ok drafts =>
    dsimp only
    rw [run_ask, ← asked drafts]
    rcases (w.request drafts).run s with ⟨answer, t⟩
    cases answer <;> rfl

/-- What a write that answers adds to the table. -/
theorem Write.added {w : Write E} {s t : Store} {written : List (Recorded E)}
    (answered : w.action.run s = (.ok written, t)) :
    ∃ drafts, w.drafts = .ok drafts ∧ (∀ draft ∈ drafts, draft.data.Legible) ∧
      t.tables.events = s.tables.events ++
        (Draft.numbered s.now s.tables.lastId drafts).map StoredEvent.row ∧
      t.poisoned = s.poisoned := by
  have leaves : w.perform s = t := congrArg Prod.snd answered
  have sound := w.poisoned_perform s
  rcases w.outcome s with ⟨fault, failed, -⟩ | ⟨drafts, given, -, legible, grown, -⟩
  · rw [answered] at failed
    cases failed
  · rw [leaves] at grown sound
    exact ⟨drafts, given, legible, congrArg Tables.events grown, sound⟩

end Client

namespace Commits

variable {E : Type} [DomainEvent E] {events : List E} {s t u : Store}

theorem lastId_of_quiet (quiet : s.Quiet t) : t.tables.lastId = s.tables.lastId := by
  rw [Tables.lastId, quiet.events, Tables.lastId]

/-- A commit adds what the events are written as. -/
theorem added (commits : Commits events s u) :
    ∃ drafts now, events.mapM DomainEvent.toDraft = .ok drafts ∧
      (∀ draft ∈ drafts, draft.data.Legible) ∧
      u.tables.events = s.tables.events ++
        (Draft.numbered now s.tables.lastId drafts).map StoredEvent.row ∧
      u.poisoned = s.poisoned := by
  cases commits with
  | @write t _ quiet F _ w asked written answered =>
    obtain ⟨drafts, given, legible, grown, sound⟩ := Client.Write.added answered
    rw [quiet.events, lastId_of_quiet quiet] at grown
    exact ⟨drafts, t.now, asked.symm.trans given, legible, grown, sound.trans quiet.poisoned⟩
  | @save t _ quiet r r' staged saved answered =>
    subst staged
    rw [ValidationRunner.run_save] at answered
    split at answered
    · -- With nothing staged, nothing is written.
      rename_i none
      obtain ⟨-, rest⟩ := Prod.mk.inj answered
      obtain ⟨-, rfl⟩ := Prod.mk.inj rest
      refine ⟨[], s.now, by rw [none]; rfl, by simp, ?_, quiet.poisoned⟩
      rw [quiet.events]
      exact (List.append_nil _).symm
    · have kept := ValidationRunner.content_events r t
      rcases loading : ValidationRunner.events.run (r, t) with ⟨answer, r₁, t₁⟩
      rw [loading] at answered kept
      cases answer with
      | error fault => cases answered
      | ok view =>
        dsimp only at answered
        split at answered
        · cases answered
        obtain ⟨succeeded, rest⟩ := Prod.mk.inj answered
        obtain ⟨-, rfl⟩ := Prod.mk.inj rest
        obtain ⟨tables, poisoned, -⟩ := Store.content_eq_iff.1 kept
        let w : Client.Write E := .appendIfNoNewer r.history.staged
          (view.lastId?.getD noEvent) r.validator.streams
        obtain ⟨drafts, given, legible, grown, sound⟩ :=
          Client.Write.added (w := w) (Prod.ext succeeded rfl)
        rw [tables, quiet.events, lastId_of_quiet quiet] at grown
        exact ⟨drafts, t₁.now, given, legible, grown,
          sound.trans (poisoned.trans quiet.poisoned)⟩

end Commits

/-! ## Reading what was committed -/

namespace Client

variable {E : Type} [DomainEvent E]

/-- What the rows of some events are decoded to are the events just when each of them reads
back. -/
theorem readAll_iff_readsBack {events : List E} {drafts : List Draft}
    (split : events.mapM DomainEvent.toDraft = .ok drafts) (now : Instant) (last : EventId) :
    (∃ more, readAll E (Draft.numbered now last drafts) = .ok more ∧
        more.map Recorded.event = events) ↔ ∀ event ∈ events, ReadsBack event := by
  induction events generalizing drafts last with
  | nil =>
    obtain rfl := Except.ok.inj split
    exact ⟨fun _ => by simp, fun _ => ⟨[], rfl, rfl⟩⟩
  | cons event events ih =>
    rw [List.mapM_cons, bind_eq_ok] at split
    obtain ⟨draft, first, others⟩ := split
    obtain ⟨rest, splitRest, same⟩ := bind_eq_ok.1 others
    obtain rfl := Except.ok.inj same
    rw [List.forall_mem_cons, ← ih splitRest (last + 1)]
    constructor
    · rintro ⟨more, decoded, listed⟩
      obtain ⟨one, others, decodedOne, decodedOthers, rfl⟩ := readAll_cons.1 decoded
      obtain ⟨rfl, listedOthers⟩ := List.cons.inj listed
      refine ⟨⟨draft, first, ?_⟩, others, decodedOthers, listedOthers⟩
      cases reads : DomainEvent.ofRaw (E := E) draft.type draft.data.reread with
      | error fault =>
        simp [Recorded.decode, StoredEvent.reread, Draft.stored, reads, Except.map] at decodedOne
      | ok event =>
        simp only [Recorded.decode, StoredEvent.reread, Draft.stored, reads, Except.map,
          Except.ok.injEq] at decodedOne
        rw [← decodedOne]
    · rintro ⟨⟨draft', first', reads⟩, more, decodedMore, rfl⟩
      obtain rfl : draft' = draft := Except.ok.inj (first'.symm.trans first)
      refine ⟨⟨last + 1, event, now, now⟩ :: more, readAll_cons.2 ⟨_, more, ?_, decodedMore, rfl⟩,
        rfl⟩
      simp [Recorded.decode, StoredEvent.reread, Draft.stored, reads, Except.map]

/-- What succeeds at the end of a list adds its results. -/
theorem mapM_append_of_ok {ε α β : Type} {f : α → Except ε β} (front : List α) {back : List α}
    {results : List β} (succeeded : back.mapM f = .ok results) :
    (front ++ back).mapM f = (front.mapM f).map (· ++ results) := by
  rw [List.mapM_append, succeeded]
  cases front.mapM f <;> rfl

section Growth

variable {s t : Store} {specs : List Stream} {after : Option EventId} {rows : List StoredEvent}

/-- Rows of the streams that are added after all others are selected after all others. -/
theorem selected_grown (grown : t.tables.events = s.tables.events ++ rows.map StoredEvent.row)
    (fit : ∀ row ∈ rows, row.isOf specs ∧ after.all (· < row.id)) :
    t.tables.selected (.ofStreams specs) after =
      s.tables.selected (.ofStreams specs) after ++ rows.map StoredEvent.row := by
  rw [Tables.selected, grown, List.filter_append]
  congr 1
  refine List.filter_eq_self.2 fun row present => ?_
  obtain ⟨event, inRows, rfl⟩ := List.mem_map.1 present
  obtain ⟨isOf, above⟩ := fit event inRows
  have holds : (Selection.ofStreams specs).holds event.type (.value event.data) := by
    rw [Selection.holds_ofStreams]
    exact isOf
  exact Bool.and_eq_true_iff.2 ⟨holds, above⟩

/-- The answer of the store grows by these rows, or it fails as it did before. -/
theorem answer_grown (valid : ∀ spec ∈ specs, spec.Valid)
    (grown : t.tables.events = s.tables.events ++ rows.map StoredEvent.row)
    (sound : t.poisoned = s.poisoned)
    (fit : ∀ row ∈ rows, row.isOf specs ∧ after.all (· < row.id))
    (legible : ∀ row ∈ rows, row.data.Legible) :
    t.answer specs after = (s.answer specs after).map (· ++ rows.map StoredEvent.reread) := by
  have compiled := Selection.compile_of_valid valid
  have reads := mapM_append_of_ok (s.tables.selected (.ofStreams specs) after)
    (mapM_read_map_row legible)
  rw [Store.answer, Store.answer, Store.run_streams, Store.run_streams, compiled]
  dsimp only
  by_cases none : specs = []
  · -- No row belongs to no stream.
    have nothing : rows = [] := List.eq_nil_iff_forall_not_mem.2 fun row present => by
      have isOf := (fit row present).1
      rw [none, StoredEvent.isOf_nil] at isOf
      cases isOf
    rw [if_pos none, if_pos none, nothing]
    rfl
  rw [if_neg none, if_neg none, sound, selected_grown grown fit, reads]
  -- What can fail before the rows are read does not depend on them.
  by_cases poisoned : s.poisoned
  · rw [if_pos poisoned, if_pos poisoned]
    rfl
  rw [if_neg poisoned, if_neg poisoned]
  by_cases refused : Statement.streamsNest (.ofStreams specs) after.isSome ∨
      ¬ (Statement.selectStreams (.ofStreams specs) after).isPreparable
  · rw [if_pos refused, if_pos refused]
    rfl
  · rw [if_neg refused, if_neg refused]
    cases (s.tables.selected (.ofStreams specs) after).mapM EventRow.read <;> rfl

theorem streams_eq_answer (s : Store) (specs : List Stream) (after : Option EventId) :
    ((streams E specs after).run s).1 =
      (checkStreams specs).bind fun _ => (s.answer specs after).bind (decodeAll E) := by
  rw [run_streams, Store.answer]
  cases checkStreams specs with
  | error fault => rfl
  | ok =>
    rcases (Store.streams specs after).run s with ⟨answer, t⟩
    cases answer <;> rfl

/-- A read of a client fails as it did before. Otherwise it gives what it gave before, and
after that what is read of the new rows, if they can be decoded. -/
theorem streams_grown (grown : t.tables.events = s.tables.events ++ rows.map StoredEvent.row)
    (sound : t.poisoned = s.poisoned)
    (fit : ∀ row ∈ rows, row.isOf specs ∧ after.all (· < row.id))
    (legible : ∀ row ∈ rows, row.data.Legible) :
    ((streams E specs after).run t).1 =
      ((streams E specs after).run s).1.bind fun front => (readAll E rows).map (front ++ ·) := by
  rw [streams_eq_answer, streams_eq_answer]
  cases checked : checkStreams specs with
  | error fault => rfl
  | ok =>
    dsimp only [Except.bind]
    rw [answer_grown (checkStreams_eq_ok.1 checked) grown sound fit legible]
    cases s.answer specs after with
    | error fault => rfl
    | ok front =>
      dsimp only [Except.map]
      rw [decodeAll, List.mapM_append, readAll, decodeAll, decodeAll]
      cases front.mapM (Recorded.decode (E := E)) with
      | error fault => rfl
      | ok recorded => cases (rows.map StoredEvent.reread).mapM (Recorded.decode (E := E)) <;> rfl

/-- A read depends on the content of the store alone. -/
theorem streams_congr (kept : t.content = s.content) :
    ((streams E specs after).run t).1 = ((streams E specs after).run s).1 := by
  obtain ⟨tables, poisoned, -⟩ := Store.content_eq_iff.1 kept
  have grown : t.tables.events = s.tables.events ++ [].map StoredEvent.row := by
    rw [tables]
    exact (List.append_nil _).symm
  rw [streams_grown grown poisoned (by simp) (by simp)]
  cases ((streams E specs after).run s).1 with
  | error fault => rfl
  | ok recorded => exact congrArg Except.ok (List.append_nil recorded)

end Growth

section Preview

variable {answer : Except Fault (List (Recorded E))} {rows : List StoredEvent} {events : List E}

/-- Whatever is asked of all events is the same before and after some of them are written,
if they are what their rows are decoded to. -/
theorem asked_of_readAll {α : Type} (ask : List E → α) {more : List (Recorded E)}
    (decoded : readAll E rows = .ok more) (back : more.map Recorded.event = events) :
    ((answer.bind fun front => (readAll E rows).map (front ++ ·)).map fun recorded =>
        ask (recorded.map Recorded.event ++ [])) =
      answer.map fun recorded => ask (recorded.map Recorded.event ++ events) := by
  rw [decoded]
  cases answer with
  | error fault => rfl
  | ok recorded =>
    dsimp only [Except.bind, Except.map]
    rw [List.append_nil, List.map_append, back]

/-- When the same events are listed before and after, the new ones are what the rows are
decoded to. -/
theorem readAll_of_listed {given : List E}
    (before : (answer.map fun recorded => recorded.map Recorded.event ++ events) = .ok given)
    (after : ((answer.bind fun front => (readAll E rows).map (front ++ ·)).map fun recorded =>
      recorded.map Recorded.event ++ []) = .ok given) :
    ∃ more, readAll E rows = .ok more ∧ more.map Recorded.event = events := by
  cases answer with
  | error fault => cases before
  | ok recorded =>
    obtain rfl := Except.ok.inj before
    cases decoded : readAll E rows with
    | error fault =>
      rw [decoded] at after
      cases after
    | ok more =>
      rw [decoded] at after
      have listed : (recorded ++ more).map Recorded.event ++ [] =
          recorded.map Recorded.event ++ events := Except.ok.inj after
      rw [List.append_nil, List.map_append] at listed
      exact ⟨more, rfl, List.append_cancel_left listed⟩

end Preview

end Client

/-- After a commit, a read gives what it gave before and then what is decoded from the rows
of the events: the events just when each of them reads back. -/
theorem Commits.read {E : Type} [DomainEvent E] {events : List E} {s u : Store}
    (commits : Commits events s u) {specs : List Stream}
    (belong : ∀ event ∈ events, Client.BelongsTo specs event) :
    ∃ rows, ((∃ more, Client.readAll E rows = .ok more ∧ more.map Recorded.event = events) ↔
        ∀ event ∈ events, Client.ReadsBack event) ∧
      ∀ after : Option EventId, (∀ floor, after = some floor → floor ≤ s.tables.lastId) →
        ((Client.streams E specs after).run u).1 =
          ((Client.streams E specs after).run s).1.bind fun front =>
            (Client.readAll E rows).map (front ++ ·) := by
  obtain ⟨drafts, now, split, legible, grown, sound⟩ := commits.added
  refine ⟨_, Client.readAll_iff_readsBack split now s.tables.lastId, fun after within => ?_⟩
  refine Client.streams_grown grown sound (fun row present => ⟨?_, ?_⟩) fun row present => ?_
  · obtain ⟨draft, inDrafts, type, data⟩ := Draft.mem_numbered present
    rw [StoredEvent.isOf, type, data]
    exact Client.belongs_of_split split belong draft inDrafts
  · -- The new ids come after the last one, which the floor does not pass.
    cases after with
    | none => rfl
    | some floor =>
      have above := ((Draft.consecutive_numbered now s.tables.lastId drafts).bounds present).1
      exact decide_eq_true (Int.lt_of_le_of_lt (within floor rfl) above)
  · obtain ⟨draft, inDrafts, -, data⟩ := Draft.mem_numbered present
    rw [data]
    exact legible draft inDrafts

/-! ## Projection runners -/

namespace ProjectionRunner

variable {E T : Type} [DomainEvent E] [ProjectedState T]

/-- The events that a runner shows: those that it reads, or has read, and the staged ones. -/
def shown (r : ProjectionRunner E T) (s : Store) : Except Fault (List E) :=
  ((View.events <$> events).run (r, s)).1

/-- The runner that calls leave has the events that one of them read at this store. -/
inductive ReadAt (new : ProjectionRunner E T) (s : Store) : List (Call E × Store) → Prop
  | read {calls : List (Call E × Store)} {c : Call E}
    (unread : (new.course calls).history.fetched = none)
    (loads : (new.course (calls ++ [(c, s)])).history.fetched.isSome) :
    ReadAt new s (calls ++ [(c, s)])
  | later {calls : List (Call E × Store)} {c : Call E} {t : Store} (read : ReadAt new s calls)
    (stays : c.refreshes = false) : ReadAt new s (calls ++ [(c, t)])

/-- What a runner answers at a store is what a read of the store gives. -/
structure Answers (r : ProjectionRunner E T) (P : Projection E T) (s : Store) : Prop where
  shown : r.shown s = (existing.run (r, s)).1.bind fun snapshot =>
    ((Client.streams E P.streams (floor snapshot)).run s).1.map fun recorded =>
      recorded.map Recorded.event ++ r.history.staged
  state : (state.run (r, s)).1 = (existing.run (r, s)).1.bind fun snapshot =>
    ((Client.streams E P.streams (floor snapshot)).run s).1.map fun recorded =>
      (recorded.map Recorded.event ++ r.history.staged).foldl P.fold
        ((snapshot.map Snapshot.data).getD P.initial)

variable {r : ProjectionRunner E T} {P : Projection E T} {options : RunnerOptions}
  {calls : List (Call E × Store)} {s u : Store}

/-- So it is for a runner that has read no events. -/
theorem answers_of_unread (rule : r.projection = P) (unread : r.history.fetched = none)
    (s : Store) : r.Answers P s := by
  subst rule
  have kept := content_existing r s
  rcases finding : existing.run (r, s) with ⟨answer, r₁, s₁⟩
  rw [finding] at kept
  cases answer with
  | error fault =>
    refine ⟨?_, ?_⟩
    · rw [ProjectionRunner.shown, Action.run_map, run_events, unread, run_resumeAfter, finding]
      rfl
    · rw [run_state, run_load, finding]
      rfl
  | ok snapshot =>
    obtain rfl := existing_eq_ok finding
    have same : ((Client.streams E r.projection.streams (floor snapshot)).run s).1 =
        ((Client.streams E r.projection.streams (floor snapshot)).run s₁).1 :=
      (Client.streams_congr kept).symm
    have reading := run_events_cached (r := { r with snapshot := some snapshot }) rfl unread s₁
    refine ⟨?_, ?_⟩
    · rw [ProjectionRunner.shown, Action.run_map, events_existing finding unread, reading, finding]
      dsimp only [Except.bind]
      rw [same]
      rcases (Client.streams E r.projection.streams (floor snapshot)).run s₁ with ⟨result, t⟩
      cases result <;> rfl
    · rw [run_state, run_load, finding]
      dsimp only [Except.bind]
      rw [reading, same]
      rcases (Client.streams E r.projection.streams (floor snapshot)).run s₁ with ⟨result, t⟩
      cases result <;> rfl

/-- A runner that has events has its snapshot, and read both at that store. -/
theorem ReadAt.loaded (readAt : (ofProjection P options).ReadAt s calls) :
    ∃ snapshot recorded, ((ofProjection P options).course calls).Loaded P snapshot recorded ∧
      ((Client.streams E P.streams (floor snapshot)).run s).1 = .ok recorded := by
  induction readAt with
  | @read calls c unread loads =>
    have coherent := (coherent_ofProjection P options).course calls
    obtain ⟨recorded, fetched⟩ := Option.isSome_iff_exists.1 loads
    rw [course, course_append] at fetched ⊢
    obtain ⟨snapshot, loaded, origin⟩ := coherent.loads unread fetched
    obtain ⟨t, kept, read⟩ := origin.read
    rw [coherent.projection, Client.streams_congr kept] at read
    exact ⟨snapshot, recorded, loaded, read⟩
  | @later calls c t _ stays ih =>
    obtain ⟨snapshot, recorded, loaded, read⟩ := ih
    have stay : ∀ call ∈ [(c, t)], call.1.refreshes = false := List.forall_mem_singleton.2 stays
    rw [course, course_append]
    exact ⟨snapshot, recorded, (loaded.course stay).2, read⟩

/-- So it is for a runner that has read them at that store, and it answers so at every
other. -/
theorem ReadAt.answers (readAt : (ofProjection P options).ReadAt s calls) :
    let r := (ofProjection P options).course calls
    r.Answers P s ∧ ∀ t : Store, r.shown t = r.shown s ∧
      (ProjectionRunner.state.run (r, t)).1 = (ProjectionRunner.state.run (r, s)).1 := by
  intro r
  obtain ⟨snapshot, recorded, loaded, read⟩ := readAt.loaded
  have shows := loaded.shows
  have events (t : Store) : r.shown t =
      .ok (recorded.map Recorded.event ++ r.history.staged) := by
    rw [ProjectionRunner.shown, shows.events]
    rfl
  refine ⟨⟨?_, ?_⟩, fun t => ⟨?_, ?_⟩⟩
  · rw [events, shows.existing, Except.bind, read]
    rfl
  · rw [shows.state, shows.existing, Except.bind, read]
    rfl
  · rw [events, events]
  · rw [shows.state, shows.state]

/-- A new runner answers after the commit of what is staged as the first runner did
before, if what is staged reads back; and it shows the same events only then. -/
theorem Answers.previews (answers : r.Answers P s)
    (belong : ∀ event ∈ r.history.staged, Client.BelongsTo P.streams event)
    (commits : Commits r.history.staged s u)
    (within : ∀ given, (existing.run (r, s)).1 = .ok (some given) →
      given.lastEvent ≤ s.tables.lastId)
    (same : (existing.run (ofProjection P options, u)).1 = (existing.run (r, s)).1) :
    ((∀ event ∈ r.history.staged, Client.ReadsBack event) →
      (ofProjection P options).shown u = r.shown s ∧
        (ProjectionRunner.state.run (ofProjection P options, u)).1 =
          (ProjectionRunner.state.run (r, s)).1) ∧
      ∀ events, r.shown s = .ok events → (ofProjection P options).shown u = .ok events →
        ∀ event ∈ r.history.staged, Client.ReadsBack event := by
  have anew : (ofProjection P options).Answers P u := answers_of_unread rfl rfl u
  obtain ⟨rows, readsBack, read⟩ := commits.read belong
  have bounded (snapshot : Option (Snapshot T))
      (found : (existing.run (r, s)).1 = .ok snapshot) :
      ∀ event, floor snapshot = some event → event ≤ s.tables.lastId := by
    intro event resumed
    obtain ⟨last, -⟩ := Option.filter_eq_some_iff.1 resumed
    obtain ⟨given, rfl, rfl⟩ := Option.map_eq_some_iff.1 last
    exact within given found
  rw [anew.shown, anew.state, answers.shown, answers.state, same]
  cases found : (existing.run (r, s)).1 with
  | error fault => exact ⟨fun _ => ⟨rfl, rfl⟩, fun events shown => nomatch shown⟩
  | ok snapshot =>
    dsimp only [Except.bind]
    rw [read _ (bounded snapshot found)]
    refine ⟨fun back => ?_, fun events before after =>
      readsBack.1 (Client.readAll_of_listed before after)⟩
    obtain ⟨more, decoded, listed⟩ := readsBack.2 back
    exact ⟨Client.asked_of_readAll id decoded listed, Client.asked_of_readAll
      (List.foldl P.fold ((snapshot.map Snapshot.data).getD P.initial)) decoded listed⟩

end ProjectionRunner

/-! ## Validation runners -/

namespace ValidationRunner

variable {E : Type} [DomainEvent E]

/-- The events that a runner shows: those that it reads, or has read, and the staged ones. -/
def shown (r : ValidationRunner E) (s : Store) : Except Fault (List E) :=
  ((View.events <$> events).run (r, s)).1

/-- The runner that calls leave has the events that one of them read at this store. -/
inductive ReadAt (new : ValidationRunner E) (s : Store) : List (Call E × Store) → Prop
  | read {calls : List (Call E × Store)} {c : Call E}
    (unread : c.refreshes ∨ (new.course calls).history.fetched = none)
    (loads : (new.course (calls ++ [(c, s)])).history.fetched.isSome) :
    ReadAt new s (calls ++ [(c, s)])
  | later {calls : List (Call E × Store)} {c : Call E} {t : Store} (read : ReadAt new s calls)
    (stays : c.refreshes = false) : ReadAt new s (calls ++ [(c, t)])

/-- What a runner shows at a store is what a read of the store gives. -/
def Answers (r : ValidationRunner E) (V : Validator E) (s : Store) : Prop :=
  r.shown s = ((Client.streams E V.streams none).run s).1.map fun recorded =>
    recorded.map Recorded.event ++ r.history.staged

variable {r : ValidationRunner E} {V : Validator E} {calls : List (Call E × Store)}
  {s u : Store}

theorem answers_of_unread (rule : r.validator = V) (unread : r.history.fetched = none)
    (s : Store) : r.Answers V s := by
  rw [Answers, shown, Action.run_map, run_events, unread, rule]
  rcases (Client.streams E V.streams none).run s with ⟨answer, t⟩
  cases answer <;> rfl

theorem ReadAt.loaded (readAt : (ofValidator V).ReadAt s calls) :
    ∃ recorded, ((ofValidator V).course calls).Loaded V recorded ∧
      ((Client.streams E V.streams none).run s).1 = .ok recorded := by
  induction readAt with
  | @read calls c unread loads =>
    have new : (ofValidator V).validator = V := rfl
    have rule := (course_spec new calls).1
    obtain ⟨recorded, fetched⟩ := Option.isSome_iff_exists.1 loads
    rw [course, course_append] at fetched ⊢
    have read := perform_loads unread fetched
    rw [rule] at read
    exact ⟨recorded, ⟨(perform_spec rule s c).1, fetched⟩, read⟩
  | @later calls c t _ stays ih =>
    obtain ⟨recorded, loaded, read⟩ := ih
    have stay : ∀ call ∈ [(c, t)], call.1.refreshes = false := List.forall_mem_singleton.2 stays
    rw [course, course_append]
    exact ⟨recorded, (loaded.course stay).2, read⟩

theorem ReadAt.answers (readAt : (ofValidator V).ReadAt s calls) :
    let r := (ofValidator V).course calls
    r.Answers V s ∧ ∀ t : Store, r.shown t = r.shown s := by
  intro r
  obtain ⟨recorded, loaded, read⟩ := readAt.loaded
  have events (t : Store) : r.shown t =
      .ok (recorded.map Recorded.event ++ r.history.staged) := by
    rw [shown, loaded.shows.events]
    rfl
  refine ⟨?_, fun t => by rw [events, events]⟩
  rw [Answers, events, read]
  rfl

/-- A new runner shows after the commit of what is staged what the first runner showed
before, if what is staged reads back, and only then. -/
theorem Answers.previews (answers : r.Answers V s)
    (belong : ∀ event ∈ r.history.staged, Client.BelongsTo V.streams event)
    (commits : Commits r.history.staged s u) :
    ((∀ event ∈ r.history.staged, Client.ReadsBack event) →
      (ofValidator V).shown u = r.shown s) ∧
      ∀ events, r.shown s = .ok events → (ofValidator V).shown u = .ok events →
        ∀ event ∈ r.history.staged, Client.ReadsBack event := by
  have anew : (ofValidator V).Answers V u := answers_of_unread rfl rfl u
  obtain ⟨rows, readsBack, read⟩ := commits.read belong
  rw [anew, answers, read none fun _ given => by cases given]
  refine ⟨fun back => ?_, fun events before after =>
    readsBack.1 (Client.readAll_of_listed before after)⟩
  obtain ⟨more, decoded, listed⟩ := readsBack.2 back
  exact Client.asked_of_readAll id decoded listed

end ValidationRunner

/-! ## Faithful previews -/

/-- A runner after any calls, which either has the events that one of them read at the first
store, or has none and reads there. What it has staged belongs to its streams, and just that
is committed next and leaves the second store. If each staged event is what is decoded from
its row, a new runner shows there what the first one shows, and unless both fail it does so
only then. With the same options, and when it finds the same snapshot, of an event that is
not after the last one, a new projection runner has the same state too. -/
theorem previews_faithful {E D T : Type} [DomainEvent E] [DomainEvent D] [ProjectedState T]
    (P : Projection E T) (options : RunnerOptions) (V : Validator D) :
    (∀ calls s u,
      let new := ProjectionRunner.ofProjection P options
      let r := new.course calls
      new.ReadAt s calls ∨ r.history.fetched = none →
      (∀ event ∈ r.history.staged, Client.BelongsTo P.streams event) →
      Commits r.history.staged s u →
      (∀ given, (ProjectionRunner.existing.run (r, s)).1 = .ok (some given) →
        given.lastEvent ≤ s.tables.lastId) →
      (ProjectionRunner.existing.run (new, u)).1 = (ProjectionRunner.existing.run (r, s)).1 →
      ((∀ event ∈ r.history.staged, Client.ReadsBack event) →
        new.shown u = r.shown s ∧
        (ProjectionRunner.state.run (new, u)).1 = (ProjectionRunner.state.run (r, s)).1) ∧
      (∀ events, r.shown s = .ok events → new.shown u = .ok events →
        ∀ event ∈ r.history.staged, Client.ReadsBack event) ∧
      (new.ReadAt s calls → ∀ t : Store, r.shown t = r.shown s ∧
        (ProjectionRunner.state.run (r, t)).1 = (ProjectionRunner.state.run (r, s)).1)) ∧
    ∀ calls s u,
      let new := ValidationRunner.ofValidator V
      let r := new.course calls
      new.ReadAt s calls ∨ r.history.fetched = none →
      (∀ event ∈ r.history.staged, Client.BelongsTo V.streams event) →
      Commits r.history.staged s u →
      ((∀ event ∈ r.history.staged, Client.ReadsBack event) → new.shown u = r.shown s) ∧
      (∀ events, r.shown s = .ok events → new.shown u = .ok events →
        ∀ event ∈ r.history.staged, Client.ReadsBack event) ∧
      (new.ReadAt s calls → ∀ t : Store, r.shown t = r.shown s) := by
  refine ⟨?_, ?_⟩
  · intro calls s u new r reads belong commits within same
    have answers : r.Answers P s := reads.elim (fun readAt => readAt.answers.1)
      fun unread => ProjectionRunner.answers_of_unread
        ((ProjectionRunner.coherent_ofProjection P options).course calls).projection unread s
    obtain ⟨faithful, only⟩ := answers.previews belong commits within same
    exact ⟨faithful, only, fun readAt => readAt.answers.2⟩
  · intro calls s u new r reads belong commits
    have answers : r.Answers V s := reads.elim (fun readAt => readAt.answers.1)
      fun unread => ValidationRunner.answers_of_unread
        (ValidationRunner.course_spec (r := new) rfl calls).1 unread s
    obtain ⟨faithful, only⟩ := answers.previews belong commits
    exact ⟨faithful, only, fun readAt => readAt.answers.2⟩

theorem belongsTo_plainStream (data : Json) :
    Client.BelongsTo [plainStream] (Draft.mk "T" data) := by
  intro draft split
  obtain rfl := Except.ok.inj split
  simp [has_plainStream]

/-- An event is committed to a new store. -/
theorem commits_one : Commits [Draft.mk "T" .null] (Store.new default) Store.afterOne := by
  have answered : (Client.Write.appendBatch [Draft.mk "T" .null]).action.run (Store.new default) =
      (.ok [⟨1, ⟨"T", .null⟩, default, default⟩], Store.afterOne) := rfl
  exact .write ⟨rfl, rfl⟩ _ rfl answered

/-- A projection runner that has read its streams while they were empty. -/
theorem read_empty :
    (ProjectionRunner.events.run
        (ProjectionRunner.ofProjection (Readers.lastType [plainStream]) ⟨false⟩,
          Store.new default)).2.1 =
      ⟨Readers.lastType [plainStream], ⟨false⟩, some none, ⟨some [], []⟩⟩ := by
  have read := Client.run_streams_of_holds (E := Draft) (Store.holds_new default) rfl
    plainStream_valid fun _ => canSelect_plainStream none
  rw [ProjectionRunner.events_existing (ProjectionRunner.existing_full _ _) rfl,
    ProjectionRunner.run_events_cached rfl rfl]
  dsimp only [ProjectionRunner.floor, Readers.lastType, Option.map_none, Option.filter_none]
  rcases ran : (Client.streams Draft [plainStream] none).run (Store.new default) with ⟨answer, t⟩
  rw [ran] at read
  obtain rfl : answer = .ok [] := read
  rfl

/-- It reads, and then an event is staged. -/
def earlyStage : List (ProjectionRunner.Call Draft × Store) :=
  [(.events, Store.new default), (.stage ⟨"T", .null⟩, Store.new default)]

/-- A new runner of either kind shows the event, as the one still does that had staged it. -/
theorem previews_faithful_one :
    (let new := ProjectionRunner.ofProjection (Readers.lastType [plainStream]) ⟨false⟩
    new.shown Store.afterOne = .ok [⟨"T", .null⟩] ∧
      (new.course earlyStage).shown Store.afterOne = .ok [⟨"T", .null⟩] ∧
      (ProjectionRunner.state.run (new, Store.afterOne)).1 = .ok (.string "T") ∧
      (ProjectionRunner.state.run (new.course earlyStage, Store.afterOne)).1 =
        .ok (.string "T")) ∧
    let new := ValidationRunner.ofValidator (Workshop.lenient [plainStream])
    new.shown Store.afterOne = .ok [⟨"T", .null⟩] ∧
      (new.course earlyRead).shown Store.afterOne = .ok [⟨"T", .null⟩] := by
  have back : ∀ event ∈ [Draft.mk "T" .null], Client.ReadsBack event :=
    List.forall_mem_singleton.2 ⟨⟨"T", .null⟩, rfl, rfl⟩
  have belong : ∀ event ∈ [Draft.mk "T" .null], Client.BelongsTo [plainStream] event :=
    List.forall_mem_singleton.2 (belongsTo_plainStream .null)
  have faithful := previews_faithful (Readers.lastType [plainStream]) ⟨false⟩
    (Workshop.lenient [plainStream])
  refine ⟨?_, ?_⟩
  · intro new
    have staged : new.course earlyStage =
        ⟨Readers.lastType [plainStream], ⟨false⟩, some none, ⟨some [], [⟨"T", .null⟩]⟩⟩ := by
      rw [ProjectionRunner.course, earlyStage, course, ProjectionRunner.Call.perform, read_empty]
      rfl
    have readAt : new.ReadAt (Store.new default) earlyStage := by
      have loads : (new.course ([] ++ [(.events, Store.new default)])).history.fetched.isSome := by
        rw [List.nil_append, ProjectionRunner.course, course, ProjectionRunner.Call.perform,
          read_empty]
        rfl
      exact .later (.read rfl loads) rfl
    obtain ⟨same, -, stays⟩ := faithful.1 earlyStage (Store.new default) Store.afterOne
      (.inl readAt) (by rw [staged]; exact belong) (by rw [staged]; exact commits_one)
      (by rw [staged]; intro given found; cases found) (by rw [staged]; rfl)
    obtain ⟨shown, state⟩ := same (by rw [staged]; exact back)
    obtain ⟨stillShown, stillState⟩ := stays readAt Store.afterOne
    rw [shown, stillShown, state, stillState, staged]
    exact ⟨rfl, rfl, rfl, rfl⟩
  · intro new
    have readAt : new.ReadAt (Store.new default) earlyRead := by
      have split : earlyRead = [(.stage ⟨"T", .null⟩, Store.new default)] ++
          [(.events, Store.new default)] := rfl
      have loads : (new.course earlyRead).history.fetched.isSome := by
        rw [course_earlyRead]
        rfl
      rw [split] at loads ⊢
      exact .read (.inr rfl) loads
    obtain ⟨same, -, stays⟩ := faithful.2 earlyRead (Store.new default) Store.afterOne
      (.inl readAt) (by rw [course_earlyRead]; exact belong)
      (by rw [course_earlyRead]; exact commits_one)
    rw [same (by rw [course_earlyRead]; exact back), stays readAt Store.afterOne,
      course_earlyRead]
    exact ⟨rfl, rfl⟩

/-! ## A float that does not come back -/

/-- A new store to which an event with such a float was appended. -/
def afterRound : Store := ((Store.appendBatch [⟨"T", .roundData⟩]).run (.new default)).2

theorem run_appendBatch_round :
    (Store.appendBatch [⟨"T", .roundData⟩]).run (.new default) =
        (.ok [⟨1, "T", .beforeData, default, default⟩], afterRound) ∧
      afterRound.tables.Holds [⟨1, "T", .roundData, default, default⟩] ∧
      afterRound.InService := by
  have legible : ∀ draft ∈ [Draft.mk "T" .roundData], draft.data.Legible :=
    List.forall_mem_singleton.2 (by decide)
  obtain ⟨t, ran, grown, service⟩ :=
    Store.appendBatch_of_service (Store.inService_new default) legible
  obtain rfl : afterRound = t := congrArg Prod.snd ran
  refine ⟨ran.trans ?_, ?_, service⟩
  · rw [← Json.reread_roundData]
    rfl
  · rw [grown]
    exact (Store.holds_new default).push_numbered default legible

/-- A raw event is decoded from its row as what is read back of it. -/
theorem decodeAll_raw (row : StoredEvent) : Client.decodeAll Draft [row] =
    .ok [⟨row.id, ⟨row.type, row.data⟩, row.created, row.updated⟩] := by
  have reads := Draft.ofRaw_raw ⟨row.type, row.data⟩
  rw [Client.Write.decodeAll_singleton, Recorded.decode, reads]
  rfl

/-- An event is staged that is what is decoded from its draft, and belongs to the streams of
the runner. It is committed next, and what a new runner shows then is another event. -/
theorem float_preview_differs :
    let event : Draft := ⟨"T", .roundData⟩
    let new := ValidationRunner.ofValidator (Workshop.lenient [plainStream])
    DomainEvent.ofRaw event.type event.data = .ok event ∧
      Client.BelongsTo [plainStream] event ∧ Commits [event] (.new default) afterRound ∧
      (new.stage event).shown (.new default) = .ok [event] ∧
      new.shown afterRound = .ok [⟨"T", .beforeData⟩] ∧ Json.beforeData ≠ .roundData := by
  intro event new
  obtain ⟨ran, holds, service⟩ := run_appendBatch_round
  have reads : DomainEvent.ofRaw event.type event.data = .ok event := event.ofRaw_raw
  have checked : (Client.Write.appendBatch [event]).checked = .ok [event] :=
    Client.encode_eq_ok.2 ⟨rfl, by
      simp [Client.checkDrafts, reads, Except.map, bind, Except.bind, pure, Except.pure]⟩
  have answered : (Client.Write.appendBatch [event]).action.run (.new default) =
      (.ok [⟨1, ⟨"T", .beforeData⟩, default, default⟩], afterRound) := by
    have asked : Client.Write.request [event] (.appendBatch [event]) =
        Store.appendBatch [event] := rfl
    rw [Client.Write.run_action, checked]
    dsimp only
    rw [Client.Write.run_ask, asked, ran]
    dsimp only
    rw [decodeAll_raw]
  have readEmpty := Client.run_streams_of_holds (E := Draft) (Store.holds_new default) rfl
    plainStream_valid fun _ => canSelect_plainStream none
  have read := Client.run_streams_of_holds (E := Draft) holds service.sound plainStream_valid
    fun _ => canSelect_plainStream none
  have selected : stretch [plainStream] ((none : Option EventId).getD noEvent) (1 : Nat)
      [⟨1, "T", .roundData, default, default⟩] = [⟨1, "T", .roundData, default, default⟩] := rfl
  rw [List.length_singleton, selected, Client.readAll, List.map_singleton, StoredEvent.reread,
    Json.reread_roundData, decodeAll_raw] at read
  have before := ValidationRunner.answers_of_unread (r := new.stage event) rfl rfl (.new default)
  have after := ValidationRunner.answers_of_unread (r := new) rfl rfl afterRound
  refine ⟨reads, belongsTo_plainStream _, .write ⟨rfl, rfl⟩ _ rfl answered, ?_, ?_,
    Json.beforeData_ne⟩
  · rw [before, show (new.stage event).validator.streams = [plainStream] from rfl, readEmpty]
    rfl
  · rw [after, show new.validator.streams = [plainStream] from rfl, read]
    rfl

end Chronicle
