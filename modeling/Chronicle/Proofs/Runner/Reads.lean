import Chronicle.Client
import Chronicle.Proofs.Log.Guard

/-!
# What clients read and write

A client's read gives the events of a store's log as they are read back and decoded
(`Client.readAll`), and only when the streams are valid and the statement can be
prepared (`Client.streams_eq_ok`). A client's guarded append encodes, appends, reads
back and decodes (`Client.run_appendIfNoNewer`); events that survive this
(`Client.Lasting`) come back as they are (`Client.encode_of_lasting`).
-/

namespace Chronicle

variable {E : Type} [DomainEvent E]

/-- The draft reads as an event of the domain. -/
def Draft.Fits (E : Type) [DomainEvent E] (draft : Draft) : Prop :=
  ∃ event : E, DomainEvent.ofRaw draft.type draft.data = .ok event

/-- The draft as it is read back when it was written. -/
def Draft.reread (draft : Draft) : Draft := { draft with data := draft.data.reread }

theorem bind_eq_ok {ε α β : Type} {act : Except ε α} {next : α → Except ε β} {b : β} :
    (act >>= next) = .ok b ↔ ∃ a, act = .ok a ∧ next a = .ok b := by
  cases act <;> simp [bind, Except.bind]

namespace Client

/-! ## Decoding -/

/-- What a client makes of rows: they are read back, and decoded in order. -/
def readAll (E : Type) [DomainEvent E] (rows : List StoredEvent) :
    Except Fault (List (Recorded E)) :=
  decodeAll E (rows.map StoredEvent.reread)

theorem readAll_cons {row : StoredEvent} {rows : List StoredEvent}
    {recorded : List (Recorded E)} :
    readAll E (row :: rows) = .ok recorded ↔
      ∃ first rest, Recorded.decode row.reread = .ok first ∧ readAll E rows = .ok rest ∧
        recorded = first :: rest := by
  rw [readAll, List.map_cons, decodeAll, List.mapM_cons, bind_eq_ok]
  constructor
  · rintro ⟨first, decoded, others⟩
    obtain ⟨rest, decodedRest, same⟩ := bind_eq_ok.1 others
    exact ⟨first, rest, decoded, decodedRest, (Except.ok.inj same).symm⟩
  · rintro ⟨first, rest, decoded, decodedRest, rfl⟩
    exact ⟨first, decoded, bind_eq_ok.2 ⟨rest, decodedRest, rfl⟩⟩

theorem readAll_append {rows more : List StoredEvent} {recorded : List (Recorded E)} :
    readAll E (rows ++ more) = .ok recorded ↔
      ∃ front back, readAll E rows = .ok front ∧ readAll E more = .ok back ∧
        recorded = front ++ back := by
  rw [readAll, List.map_append, decodeAll, List.mapM_append, bind_eq_ok]
  constructor
  · rintro ⟨front, decoded, others⟩
    obtain ⟨back, decodedBack, same⟩ := bind_eq_ok.1 others
    exact ⟨front, back, decoded, decodedBack, (Except.ok.inj same).symm⟩
  · rintro ⟨front, back, decoded, decodedBack, rfl⟩
    exact ⟨front, decoded, bind_eq_ok.2 ⟨back, decodedBack, rfl⟩⟩

theorem readAll_append_of_ok {rows more : List StoredEvent} {front : List (Recorded E)}
    (decoded : readAll E rows = .ok front) :
    readAll E (rows ++ more) = (readAll E more).map (front ++ ·) := by
  unfold readAll decodeAll at *
  rw [List.map_append, List.mapM_append, decoded]
  cases (more.map StoredEvent.reread).mapM (Recorded.decode (E := E)) <;> rfl

theorem decode_id {row : StoredEvent} {recorded : Recorded E}
    (decoded : Recorded.decode row = .ok recorded) : recorded.id = row.id := by
  unfold Recorded.decode at decoded
  cases raw : DomainEvent.ofRaw (E := E) row.type row.data with
  | error fault => simp [raw, Except.map] at decoded
  | ok event =>
    rw [raw] at decoded
    obtain rfl := Except.ok.inj decoded
    rfl

theorem map_id_readAll {rows : List StoredEvent} {recorded : List (Recorded E)}
    (decoded : readAll E rows = .ok recorded) :
    recorded.map Recorded.id = rows.map StoredEvent.id := by
  induction rows generalizing recorded with
  | nil =>
    obtain rfl := Except.ok.inj decoded
    rfl
  | cons row rows ih =>
    obtain ⟨first, rest, decodedFirst, decodedRest, rfl⟩ := readAll_cons.1 decoded
    rw [List.map_cons, List.map_cons, decode_id decodedFirst, ih decodedRest,
      StoredEvent.id_reread]

/-- The last id that a client sees is that of the last row. -/
theorem lastId_readAll {rows : List StoredEvent} {recorded : List (Recorded E)}
    (decoded : readAll E rows = .ok recorded) :
    recorded.getLast?.map Recorded.id = rows.getLast?.map StoredEvent.id := by
  rw [← List.getLast?_map, ← List.getLast?_map, map_id_readAll decoded]

/-! ## Reading -/

theorem checkStreams_eq_ok {specs : List Stream} :
    checkStreams specs = .ok () ↔ ∀ spec ∈ specs, spec.Valid := by
  induction specs with
  | nil => simp [checkStreams, pure, Except.pure]
  | cons spec specs ih =>
    have first : spec.filter.forM Filter.validate = .ok () ↔ spec.Valid := by
      unfold Stream.Valid
      cases spec.filter with
      | none => simp [Option.forM, pure, Except.pure]
      | some filter =>
        cases checked : filter.check <;>
          simp [Option.forM, Filter.validate, Filter.Valid, checked, Except.mapError]
    have both : checkStreams (spec :: specs) = .ok () ↔
        spec.filter.forM Filter.validate = .ok () ∧ checkStreams specs = .ok () := by
      rw [checkStreams, List.forM_eq_forM, List.forM_cons, bind_eq_ok]
      constructor
      · rintro ⟨_, checked, others⟩
        exact ⟨checked, others⟩
      · rintro ⟨checked, others⟩
        exact ⟨(), checked, others⟩
    rw [both, first, ih, List.forall_mem_cons]

theorem run_streams (specs : List Stream) (after : Option EventId) (s : Store) :
    (streams E specs after).run s =
      match checkStreams specs with
      | .error fault => (.error fault, s)
      | .ok () =>
        match (Store.streams specs after).run s with
        | (.ok rows, t) => (decodeAll E rows, t)
        | (.error fault, t) => (.error fault, t) := by
  unfold streams
  rw [Action.run_bind, Action.run_ofExcept]
  cases checkStreams specs with
  | error fault => rfl
  | ok =>
    simp only [Action.run_bind, EventLog.streams, Action.run_ofExcept]
    rcases (Store.streams specs after).run s with ⟨answer, t⟩
    cases answer <;> rfl

theorem keeps_streams (specs : List Stream) (after : Option EventId) :
    Action.Keeps Store.content (streams E specs after : Action Store _) :=
  .bind (.ofExcept _) fun _ => .bind (Store.keeps_streams specs after) fun _ => .ofExcept _

/-- A client's read makes one call at most. -/
theorem steps_streams (specs : List Stream) (after : Option EventId) (s : Store) :
    Store.Steps s ((streams E specs after).run s).2 := by
  rw [run_streams]
  split
  · exact .refl
  · have step : Store.Step s ((Store.streams specs after).run s).2 := .call s (.streams specs after)
    rcases ran : (Store.streams specs after).run s with ⟨answer, t⟩
    rw [ran] at step
    cases answer <;> exact .single step

variable {s t : Store} {log : List StoredEvent} {specs : List Stream}

/-- What a client reads are the events of the log, read back and decoded. -/
theorem streams_eq_ok (holds : s.tables.Holds log) {after : Option EventId}
    {recorded : List (Recorded E)} (answered : (streams E specs after).run s = (.ok recorded, t)) :
    readAll E (stretch specs (after.getD noEvent) log.length log) = .ok recorded ∧
      (∀ spec ∈ specs, spec.Valid) ∧
      (specs ≠ [] → Statement.canSelect (.ofStreams specs) after) := by
  rw [run_streams] at answered
  cases checked : checkStreams specs with
  | error fault => simp [checked] at answered
  | ok =>
    rw [checked] at answered
    rcases ran : (Store.streams specs after).run s with ⟨answer, u⟩
    cases answer with
    | error fault => simp [ran] at answered
    | ok rows =>
      rw [ran] at answered
      obtain ⟨rfl, -, -, -, -, prepared⟩ := Store.run_streams_eq_ok holds ran
      rw [filter_after holds.numbered] at answered
      exact ⟨congrArg Prod.fst answered, checkStreams_eq_ok.1 checked, prepared⟩

/-- A store in service answers a client that asks for valid streams. -/
theorem run_streams_of_holds (holds : s.tables.Holds log) (sound : s.poisoned = false)
    {after : Option EventId} (valid : ∀ spec ∈ specs, spec.Valid)
    (prepared : specs ≠ [] → Statement.canSelect (.ofStreams specs) after) :
    ((streams E specs after).run s).1 =
      readAll E (stretch specs (after.getD noEvent) log.length log) := by
  obtain ⟨metrics, ran⟩ := Store.run_streams_of_holds holds sound
    (Selection.compile_of_valid valid) prepared
  rw [run_streams, checkStreams_eq_ok.2 valid, ran, filter_after holds.numbered]
  rfl

/-- It refuses a client whose statement cannot be prepared. -/
theorem run_streams_of_refused (sound : s.poisoned = false) {after : Option EventId}
    (valid : ∀ spec ∈ specs, spec.Valid) (some_specs : specs ≠ [])
    (refused : ¬ Statement.canSelect (.ofStreams specs) after) :
    (streams E specs after).run s = (.error (.storage "statement cannot be prepared"), s) := by
  have ran := Store.run_streams_of_refused (s := s) (Selection.compile_of_valid valid) some_specs
    refused
  rw [run_streams, checkStreams_eq_ok.2 valid]
  dsimp only
  rw [ran, sound]
  rfl

/-! ## Writing -/

theorem length_mapM {α β ε : Type} {f : α → Except ε β} {items : List α} {results : List β}
    (succeeded : items.mapM f = .ok results) : results.length = items.length := by
  induction items generalizing results with
  | nil =>
    obtain rfl := Except.ok.inj succeeded
    rfl
  | cons item items ih =>
    rw [List.mapM_cons, bind_eq_ok] at succeeded
    obtain ⟨first, -, others⟩ := succeeded
    obtain ⟨rest, mapped, same⟩ := bind_eq_ok.1 others
    obtain rfl := Except.ok.inj same
    simp [ih mapped]

theorem encode_eq_ok {events : List E} {drafts : List Draft} :
    encode events = .ok drafts ↔
      events.mapM DomainEvent.toDraft = .ok drafts ∧ checkDrafts E drafts = .ok () := by
  rw [encode, bind_eq_ok]
  constructor
  · rintro ⟨encoded, split, others⟩
    obtain ⟨_, checked, same⟩ := bind_eq_ok.1 others
    obtain rfl := Except.ok.inj same
    exact ⟨split, checked⟩
  · rintro ⟨split, checked⟩
    exact ⟨drafts, split, bind_eq_ok.2 ⟨(), checked, rfl⟩⟩

theorem length_encode {events : List E} {drafts : List Draft}
    (encoded : encode events = .ok drafts) : drafts.length = events.length :=
  length_mapM (encode_eq_ok.1 encoded).1

theorem some_drafts {events : List E} {drafts : List Draft}
    (encoded : encode events = .ok drafts) (some_events : events ≠ []) : drafts ≠ [] := by
  intro none
  have sameLength := length_encode encoded
  rw [none, List.length_nil] at sameLength
  exact some_events (List.length_eq_zero_iff.1 sameLength.symm)

/-- Drafts can be decoded when what is read back of each reads as an event. -/
theorem readAll_numbered {drafts : List Draft}
    (fit : ∀ draft ∈ drafts, draft.reread.Fits E) (now : Instant) (last : EventId) :
    ∃ saved, readAll E (Draft.numbered now last drafts) = .ok saved := by
  induction drafts generalizing last with
  | nil => exact ⟨[], rfl⟩
  | cons draft drafts ih =>
    obtain ⟨⟨event, reads⟩, fitRest⟩ := List.forall_mem_cons.1 fit
    obtain ⟨rest, decodedRest⟩ := ih fitRest (last + 1)
    refine ⟨⟨last + 1, event, now, now⟩ :: rest,
      readAll_cons.2 ⟨_, rest, ?_, decodedRest, rfl⟩⟩
    rw [Draft.reread] at reads
    simp [Recorded.decode, StoredEvent.reread, Draft.stored, reads, Except.map]

theorem fits_of_checkDrafts {drafts : List Draft} (checked : checkDrafts E drafts = .ok ()) :
    ∀ draft ∈ drafts, draft.Fits E := by
  induction drafts with
  | nil => simp
  | cons draft drafts ih =>
    rw [checkDrafts, List.forM_eq_forM, List.forM_cons, bind_eq_ok] at checked
    obtain ⟨_, first, others⟩ := checked
    refine List.forall_mem_cons.2 ⟨?_, ih others⟩
    cases raw : DomainEvent.ofRaw (E := E) draft.type draft.data with
    | error fault => simp [raw, Except.map] at first
    | ok event => exact ⟨event, raw⟩

/-- The event can be written, and is read back as it was. -/
def Lasting (event : E) : Prop :=
  ∃ draft, DomainEvent.toDraft event = .ok draft ∧ draft.data.Legible ∧ draft.Fits E ∧
    DomainEvent.ofRaw draft.type draft.data.reread = .ok event

/-- Lasting events are written in their order and come back as they were. -/
theorem encode_of_lasting {events : List E} (lasting : ∀ event ∈ events, Lasting event) :
    ∃ drafts, encode events = .ok drafts ∧ (∀ draft ∈ drafts, draft.data.Legible) ∧
      (∀ draft ∈ drafts, draft.reread.Fits E) ∧
      ∀ now last saved, readAll E (Draft.numbered now last drafts) = .ok saved →
        saved.map Recorded.event = events := by
  induction events with
  | nil =>
    refine ⟨[], rfl, by simp, by simp, fun now last saved decoded => ?_⟩
    obtain rfl := Except.ok.inj decoded
    rfl
  | cons event events ih =>
    obtain ⟨draft, split, legible, ⟨other, reads⟩, back⟩ := lasting event List.mem_cons_self
    obtain ⟨drafts, encoded, legibleRest, fitRest, backRest⟩ := ih fun e later =>
      lasting e (List.mem_cons_of_mem _ later)
    obtain ⟨splitRest, checkedRest⟩ := encode_eq_ok.1 encoded
    refine ⟨draft :: drafts, encode_eq_ok.2 ⟨?_, ?_⟩, List.forall_mem_cons.2 ⟨legible, legibleRest⟩,
      List.forall_mem_cons.2 ⟨⟨event, back⟩, fitRest⟩, fun now last saved decoded => ?_⟩
    · simp [split, splitRest, bind, Except.bind, pure, Except.pure]
    · rw [checkDrafts, List.forM_eq_forM, List.forM_cons, reads]
      exact checkedRest
    · obtain ⟨first, rest, decodedFirst, decodedRest, rfl⟩ := readAll_cons.1 decoded
      have same : first.event = event := by
        simp only [Recorded.decode, StoredEvent.reread, Draft.stored, back, Except.map,
          Except.ok.injEq] at decodedFirst
        rw [← decodedFirst]
      rw [List.map_cons, same, backRest now (last + 1) rest decodedRest]

/-- What the event is written as belongs to one of some streams. -/
def BelongsTo (specs : List Stream) (event : E) : Prop :=
  ∀ draft, DomainEvent.toDraft event = .ok draft → specs.any (·.has draft.type draft.data)

theorem belongs_of_split {specs : List Stream} {events : List E} {drafts : List Draft}
    (split : events.mapM DomainEvent.toDraft = .ok drafts)
    (belong : ∀ event ∈ events, BelongsTo specs event) :
    ∀ draft ∈ drafts, specs.any (·.has draft.type draft.data) := by
  induction events generalizing drafts with
  | nil =>
    obtain rfl := Except.ok.inj split
    simp
  | cons event events ih =>
    rw [List.mapM_cons, bind_eq_ok] at split
    obtain ⟨draft, first, others⟩ := split
    obtain ⟨rest, splitRest, same⟩ := bind_eq_ok.1 others
    obtain rfl := Except.ok.inj same
    obtain ⟨belongs, belongRest⟩ := List.forall_mem_cons.1 belong
    exact List.forall_mem_cons.2 ⟨belongs draft first, ih splitRest belongRest⟩

theorem run_appendIfNoNewer (events : List E) (floor : EventId) (specs : List Stream) (s : Store) :
    (appendIfNoNewer events floor specs).run s =
      match checkStreams specs with
      | .error fault => (.error fault, s)
      | .ok () =>
        match encode events with
        | .error fault => (.error fault, s)
        | .ok drafts =>
          match (Store.appendIfNoNewer drafts floor specs).run s with
          | (.ok rows, t) => (decodeAll E rows, t)
          | (.error fault, t) => (.error fault, t) := by
  unfold appendIfNoNewer
  rw [Action.run_bind, Action.run_ofExcept]
  cases checkStreams specs with
  | error fault => rfl
  | ok =>
    simp only [Action.run_bind, EventLog.appendIfNoNewer, Action.run_ofExcept]
    cases encode events with
    | error fault => rfl
    | ok drafts =>
      dsimp only
      rcases (Store.appendIfNoNewer drafts floor specs).run s with ⟨answer, t⟩
      cases answer <;> rfl

/-- A client's guarded append makes one call at most. -/
theorem steps_appendIfNoNewer (events : List E) (floor : EventId) (specs : List Stream)
    (s : Store) : Store.Steps s ((appendIfNoNewer events floor specs).run s).2 := by
  rw [run_appendIfNoNewer]
  split
  · exact .refl
  split
  · exact .refl
  · rename_i drafts encoded
    have step : Store.Step s ((Store.appendIfNoNewer drafts floor specs).run s).2 :=
      .call s (.appendIfNoNewer drafts floor specs)
    rcases ran : (Store.appendIfNoNewer drafts floor specs).run s with ⟨answer, t⟩
    rw [ran] at step
    cases answer <;> exact .single step

variable {events : List E} {floor : EventId}

/-- With nothing after the floor, a client's guarded append of events that can be
written, read back and decoded succeeds. -/
theorem appendIfNoNewer_of_quiet (holds : s.tables.Holds log) (service : s.InService)
    (valid : ∀ spec ∈ specs, spec.Valid) {drafts : List Draft}
    (encoded : encode events = .ok drafts) (legible : ∀ draft ∈ drafts, draft.data.Legible)
    (fit : ∀ draft ∈ drafts, draft.reread.Fits E)
    (prepared : Statement.canGuard drafts floor (.ofStreams specs))
    (quiet : newer specs floor log = []) :
    ∃ saved, ((appendIfNoNewer events floor specs).run s).1 = .ok saved := by
  have written := Store.appendIfNoNewer_of_quiet holds service (Selection.compile_of_valid valid)
    (fun _ => prepared) legible quiet
  obtain ⟨saved, decoded⟩ := readAll_numbered fit s.now s.tables.lastId
  refine ⟨saved, ?_⟩
  rw [run_appendIfNoNewer, checkStreams_eq_ok.2 valid, encoded]
  dsimp only
  rcases ran : (Store.appendIfNoNewer drafts floor specs).run s with ⟨answer, t⟩
  rw [ran] at written
  subst written
  exact decoded

/-- With something after the floor it conflicts. -/
theorem appendIfNoNewer_of_newer (holds : s.tables.Holds log) (service : s.InService)
    (valid : ∀ spec ∈ specs, spec.Valid) {drafts : List Draft}
    (encoded : encode events = .ok drafts) (some_drafts : drafts ≠ [])
    (prepared : Statement.canGuard drafts floor (.ofStreams specs))
    (late : newer specs floor log ≠ []) :
    ((appendIfNoNewer events floor specs).run s).1 = .error (.newerEvents floor) := by
  have conflict := Store.run_appendIfNoNewer_of_newer holds (Selection.compile_of_valid valid)
    some_drafts service.sound prepared late
  rw [run_appendIfNoNewer, checkStreams_eq_ok.2 valid, encoded]
  dsimp only
  rw [conflict]

/-- One that the database cannot run fails. -/
theorem appendIfNoNewer_of_refused (service : s.InService) (valid : ∀ spec ∈ specs, spec.Valid)
    {drafts : List Draft} (encoded : encode events = .ok drafts) (some_drafts : drafts ≠ [])
    (refused : ¬ Statement.canGuard drafts floor (.ofStreams specs)) :
    (appendIfNoNewer events floor specs).run s =
      (.error (.storage "statement cannot be prepared"), s) := by
  have ran := Store.run_appendIfNoNewer_of_refused (s := s) (Selection.compile_of_valid valid)
    some_drafts refused
  rw [run_appendIfNoNewer, checkStreams_eq_ok.2 valid, encoded]
  dsimp only
  rw [ran, service.sound]
  rfl

/-- A client's guarded append fails and changes nothing, or it found nothing after the
floor and wrote the encoded events after all others. Then it answers what is read back
of them. -/
theorem appendIfNoNewer_cases (holds : s.tables.Holds log) (some_events : events ≠ [])
    {answer : Except Fault (List (Recorded E))}
    (ran : (appendIfNoNewer events floor specs).run s = (answer, t)) :
    (∃ fault, answer = .error fault ∧ t.content = s.content) ∨
      ∃ drafts, encode events = .ok drafts ∧ newer specs floor log = [] ∧
        answer = readAll E (Draft.numbered s.now s.tables.lastId drafts) ∧
        t.tables.Holds (log ++ Draft.numbered s.now s.tables.lastId drafts) := by
  rw [run_appendIfNoNewer] at ran
  split at ran
  · obtain ⟨rfl, rfl⟩ := Prod.mk.inj ran
    exact .inl ⟨_, rfl, rfl⟩
  split at ran
  · obtain ⟨rfl, rfl⟩ := Prod.mk.inj ran
    exact .inl ⟨_, rfl, rfl⟩
  rename_i drafts encoded
  split at ran
  · rename_i rows u asked
    obtain ⟨quiet, rfl, legible, grown, -⟩ :=
      Store.appendIfNoNewer_eq_ok holds (some_drafts encoded some_events) asked
    obtain ⟨rfl, rfl⟩ := Prod.mk.inj ran
    refine .inr ⟨drafts, encoded, quiet, rfl, ?_⟩
    rw [grown]
    exact holds.push_numbered s.now legible
  · rename_i asked
    obtain ⟨rfl, rfl⟩ := Prod.mk.inj ran
    exact .inl ⟨_, rfl, Store.appendIfNoNewer_eq_error asked⟩

end Client

end Chronicle
