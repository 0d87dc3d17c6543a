import Chronicle.Proofs.Projections.Rows

/-!
# Writing projections

The three ways to write a projection (`ProjectionWrite`) have one outcome: a row
with the data is put under the key, or the tables stay as they are
(`ProjectionWrite.outcome`). No write looks at whether the row can be read, and
data that are nested too deeply for that are accepted. So an accepted write reads
back, and the queries of its type go on, exactly when its data are nested little
enough (`ProjectionWrite.written_reads_back`). One write of other data makes every
query of its type fail (`ProjectionWrite.nested_write_breaks_reads`).
-/

namespace Chronicle

/-- A call that writes a projection. -/
inductive ProjectionWrite where
  | save (type id : String) (data : Json) (event : EventId)
  | force (type id : String) (data : Json)
  | update (type id : String) (data : Json) (event : EventId)

namespace ProjectionWrite

def type : ProjectionWrite → String
  | save type .. | force type .. | update type .. => type

def id : ProjectionWrite → String
  | save _ id .. | force _ id _ | update _ id .. => id

def data : ProjectionWrite → Json
  | save _ _ data _ | force _ _ data | update _ _ data _ => data

/-- What the call does to a store. -/
def action : ProjectionWrite → Action Store Unit
  | save type id data event => Store.saveProjection type id data event
  | force type id data => Store.forceProjection type id data
  | update type id data event => Store.updateProjection type id data event

end ProjectionWrite

namespace Tables

variable {t : Tables} {type id : String}

/-- Replacing the data of a row is writing them with the last event that it has. -/
theorem replaceData_eq_upsert {row : ProjectionRow} (found : t.projection? type id = some row)
    (now : Instant) (data : Json) :
    t.replaceData now row data = t.upsert now type id data row.lastEvent := by
  obtain ⟨-, rfl, rfl⟩ := hasKey_of_projection? found
  simp [replaceData, upsert, found]

/-- The row that a write puts has the key, the data and the event that it is given,
and time stamps that can be read. -/
theorem Orderly.upsert_eq (orderly : t.Orderly) (now : Instant) (type id : String) (data : Json)
    (event : EventId) :
    ∃ row : ProjectionRow, row.type = type ∧ row.id = id ∧ row.data = .value data ∧
      row.lastEvent = event ∧ row.Stamped ∧
      t.upsert now type id data event =
        { t with projections := putProjection row t.projections } := by
  refine ⟨⟨type, id, .value data, event, _, _⟩, rfl, rfl, rfl, rfl, ⟨?_, rfl⟩, rfl⟩
  cases found : t.projection? type id with
  | none => rfl
  | some row => exact (orderly.stamped row (hasKey_of_projection? found).1).1

theorem Orderly.upsert (orderly : t.Orderly) (now : Instant) (type id : String) (data : Json)
    (event : EventId) : (t.upsert now type id data event).Orderly := by
  obtain ⟨row, -, -, -, -, stamped, put⟩ := orderly.upsert_eq now type id data event
  rw [put]
  exact orderly.put stamped

end Tables

/-- A value that was written can be read when it is legible. -/
theorem ProjectionRow.Stamped.readable_iff_legible {row : ProjectionRow} (stamped : row.Stamped)
    {data : Json} (holds : row.data = .value data) : row.Readable ↔ data.Legible := by
  rw [stamped.readable_iff, holds]
  by_cases legible : data.Legible
  · simp [legible.toJson?, legible]
  · simp [Payload.toJson?, Payload.depth, Nat.lt_of_not_le legible, legible]

/-! ## What a write does -/

namespace ProjectionWrite

variable {w : ProjectionWrite} {s : Store}

/-- A write is accepted and puts data and an event under its key, or it fails and
changes nothing. -/
theorem outcome (w : ProjectionWrite) (s : Store) :
    (s.poisoned = false ∧ ∃ event metrics, w.action.run s =
      (.ok (), { s with
        tables := s.tables.upsert s.now w.type w.id w.data event
        metrics := metrics })) ∨
    ∃ fault metrics, w.action.run s = (.error fault, { s with metrics := metrics }) := by
  cases w with
  | save type id data event =>
    rw [action, Store.run_saveProjection]
    split
    · exact .inr ⟨_, s.metrics, rfl⟩
    rename_i sound
    split
    · exact .inl ⟨by simpa using sound, event, _, rfl⟩
    · exact .inr ⟨_, s.metrics, rfl⟩
  | force type id data =>
    rw [action, Store.run_forceProjection]
    split
    · exact .inr ⟨_, s.metrics, rfl⟩
    rename_i sound
    split
    · exact .inr ⟨_, s.metrics, rfl⟩
    rename_i row found
    split
    · refine .inl ⟨by simpa using sound, row.lastEvent,
        s.metrics.add .projectionsForced 1, ?_⟩
      rw [Tables.replaceData_eq_upsert found]
      rfl
    · exact .inr ⟨_, s.metrics, rfl⟩
  | update type id data event =>
    rw [action, Store.run_updateProjection]
    split
    · exact .inr ⟨_, s.metrics, rfl⟩
    rename_i sound
    split
    · split
      · exact .inl ⟨by simpa using sound, event, _, rfl⟩
      · exact .inr ⟨_, _, rfl⟩
    · exact .inr ⟨_, s.metrics, rfl⟩

/-- An accepted write has put a row of its own. -/
theorem accepted_put (orderly : s.tables.Orderly) (accepted : (w.action.run s).1 = .ok ()) :
    ∃ row : ProjectionRow, row.type = w.type ∧ row.id = w.id ∧ row.data = .value w.data ∧
      row.Stamped ∧ (w.action.run s).2.poisoned = false ∧
      (w.action.run s).2.tables =
        { s.tables with projections := Tables.putProjection row s.tables.projections } := by
  rcases w.outcome s with ⟨sound, event, metrics, ran⟩ | ⟨fault, metrics, ran⟩
  · obtain ⟨row, type, id, data, -, stamped, put⟩ :=
      orderly.upsert_eq s.now w.type w.id w.data event
    rw [ran]
    exact ⟨row, type, id, data, stamped, sound, put⟩
  · rw [ran] at accepted
    cases accepted

theorem poisoned_run (s : Store) : (w.action.run s).2.poisoned = s.poisoned := by
  rcases w.outcome s with ⟨-, event, metrics, ran⟩ | ⟨fault, metrics, ran⟩ <;> rw [ran]

/-- A write that fails changes nothing. -/
theorem content_of_error (w : ProjectionWrite) {fault : Fault}
    (failed : (w.action.run s).1 = .error fault) : (w.action.run s).2.content = s.content := by
  rcases w.outcome s with ⟨-, event, metrics, ran⟩ | ⟨fault, metrics, ran⟩
  · rw [ran] at failed
    cases failed
  · rw [ran]
    rfl

theorem events_run (w : ProjectionWrite) (s : Store) :
    (w.action.run s).2.tables.events = s.tables.events := by
  rcases w.outcome s with ⟨-, event, metrics, ran⟩ | ⟨fault, metrics, ran⟩ <;> rw [ran]
  rfl

/-- A write leaves what is under other keys. -/
theorem projection?_run (w : ProjectionWrite) (s : Store) {type id : String}
    (other : ¬ (w.type = type ∧ w.id = id)) :
    (w.action.run s).2.tables.projection? type id = s.tables.projection? type id := by
  rcases w.outcome s with ⟨-, event, metrics, ran⟩ | ⟨fault, metrics, ran⟩ <;> rw [ran]
  exact Tables.projection?_upsert_of_ne _ _ _ _ other

theorem orderly_run (orderly : s.tables.Orderly) : (w.action.run s).2.tables.Orderly := by
  rcases w.outcome s with ⟨-, event, metrics, ran⟩ | ⟨fault, metrics, ran⟩
  · rw [ran]
    exact orderly.upsert ..
  · rw [ran]
    exact orderly

end ProjectionWrite

/-! ## Reachable stores -/

namespace Store

/-- A call is a write of a projection or writes none. -/
theorem Call.writes_cases (c : Call) :
    (∃ w : ProjectionWrite, ∀ s, c.perform s = (w.action.run s).2) ∨
      ∀ type id, c.writes type id = false := by
  cases c with
  | saveProjection type id data event => exact .inl ⟨.save type id data event, fun _ => rfl⟩
  | forceProjection type id data => exact .inl ⟨.force type id data, fun _ => rfl⟩
  | updateProjection type id data event => exact .inl ⟨.update type id data event, fun _ => rfl⟩
  | _ => exact .inr fun _ _ => rfl

theorem orderly_perform (c : Call) {s : Store} (orderly : s.tables.Orderly) :
    (c.perform s).tables.Orderly := by
  rcases c.writes_cases with ⟨w, same⟩ | silent
  · rw [same]
    exact w.orderly_run orderly
  · exact orderly.of_projections ((leaves_perform c s).1.projections_eq silent)

theorem orderly_new (now : Instant) : (new now).tables.Orderly :=
  ⟨.nil, fun _ present => nomatch present⟩

/-- The projections of a reachable store are orderly. -/
theorem Reachable.orderly {s : Store} (reachable : s.Reachable) : s.tables.Orderly := by
  induction reachable with
  | new now => exact orderly_new now
  | step _ step ih =>
    cases step with
    | call c => exact orderly_perform c ih
    | meanwhile => exact ih
  | crash _ ih => exact ih

end Store

/-! ## Reading back -/

namespace ProjectionWrite

variable {w : ProjectionWrite} {s : Store}

/-- Data that are nested too deeply are accepted, and from then on neither their
projection nor the projections of its type can be read. -/
theorem accepted_illegible (orderly : s.tables.Orderly) (accepted : (w.action.run s).1 = .ok ())
    (illegible : ¬ w.data.Legible) :
    ((Store.getProjection w.type w.id).run (w.action.run s).2).1 = .error unreadable ∧
      ((Store.queryProjections w.type none).run (w.action.run s).2).1 = .error unreadable := by
  obtain ⟨row, type, id, data, stamped, sound, put⟩ := accepted_put orderly accepted
  generalize (w.action.run s).2 = after at sound put ⊢
  have fails : ¬ row.Readable := mt (stamped.readable_iff_legible data).1 illegible
  have found : after.tables.projection? w.type w.id = some row := by
    rw [put, ← type, ← id, Tables.projection?_put]
  have present : row ∈ after.tables.projectionsOf w.type [] :=
    Tables.mem_projectionsOf.2 ⟨(Tables.hasKey_of_projection? found).1, type, rfl⟩
  constructor
  · rw [Store.run_getProjection, found]
    simp [sound, ProjectionRow.read_of_unreadable fails, Except.map]
  · rw [Store.run_queryProjections_of_unreadable sound rfl (Statement.canList_nil _) present fails]

/-- What was accepted can be read exactly when its data are nested little enough.

Then the projection is found under its key with the data as they are read back. Where the
projections of its type could be read before, they can be read after: the written one and
all with other ids, in the order of their ids.

Otherwise neither the projection nor those of its type can be read. -/
theorem written_reads_back (orderly : s.tables.Orderly)
    (accepted : (w.action.run s).1 = .ok ()) :
    let after := (w.action.run s).2
    let found := ((Store.getProjection w.type w.id).run after).1
    let all (s : Store) := ((Store.queryProjections w.type none).run s).1
    (w.data.Legible → ∃ p, found = .ok (some p) ∧ p.type = w.type ∧ p.id = w.id ∧
      p.data = w.data.reread ∧
      ∀ rows, all s = .ok rows → ∃ rows', all after = .ok rows' ∧
        rows'.Pairwise (·.id < ·.id) ∧ ∀ q, q ∈ rows' ↔ q = p ∨ q ∈ rows ∧ q.id ≠ w.id) ∧
    (¬ w.data.Legible → found = .error unreadable ∧ all after = .error unreadable) := by
  intro after found all
  refine ⟨fun legible => ?_, accepted_illegible orderly accepted⟩
  obtain ⟨row, type, id, data, stamped, sound, put⟩ := accepted_put orderly accepted
  have orderlyAfter : after.tables.Orderly := orderly_run orderly
  obtain ⟨p, reads⟩ := (stamped.readable_iff_legible data).2 legible
  obtain ⟨typeP, idP, dataP, -⟩ := ProjectionRow.read_eq_ok_iff.1 reads
  refine ⟨p, ?_, typeP ▸ type, idP ▸ id, ?_, fun rows listed => ?_⟩
  · have there : after.tables.projection? w.type w.id = some row := by
      rw [put, ← type, ← id, Tables.projection?_put]
    simp only [found, Store.run_getProjection, there]
    simp [after, sound, reads, Except.map]
  · rw [data, legible.toJson?] at dataP
    exact (Option.some.inj dataP).symm
  -- The rows of the type are the one that was put and those that were read before.
  obtain ⟨readable, rfl⟩ := Store.queryProjections_eq_ok listed
  have readableAfter : ∀ other ∈ after.tables.projectionsOf w.type [], other.Readable := by
    intro other present
    obtain ⟨inAfter, ofType, -⟩ := Tables.mem_projectionsOf.1 present
    rw [put, Tables.mem_putProjection orderly.sorted] at inAfter
    rcases inAfter with rfl | ⟨was, -⟩
    · exact ⟨p, reads⟩
    · exact readable other (Tables.mem_projectionsOf.2 ⟨was, ofType, rfl⟩)
  have compiled : compileOptional none = .ok [] := rfl
  obtain ⟨metrics, ran⟩ := Store.run_queryProjections_of_readable sound compiled
    (Statement.canList_nil w.type) readableAfter
  refine ⟨_, congrArg Prod.fst ran, orderlyAfter.pairwise_listed _ _, fun q => ?_⟩
  rw [put, ← type, ← id]
  exact orderly.mem_listed_put reads

theorem queryProjections_new (type : String) (now : Instant) :
    ((Store.queryProjections type none).run (Store.new now)).1 = .ok [] := by
  have compiled : compileOptional none = .ok [] := rfl
  obtain ⟨metrics, ran⟩ := Store.run_queryProjections_of_readable (s := Store.new now) rfl compiled
    (Statement.canList_nil type) fun row present =>
      absurd (Tables.mem_projectionsOf.1 present).1 List.not_mem_nil
  exact congrArg Prod.fst ran

/-- A projection that is written to a new store is found and listed. -/
theorem written_reads_back_one :
    let w : ProjectionWrite := .save "T" "1" .null 1
    let after := (w.action.run (Store.new default)).2
    (w.action.run (Store.new default)).1 = .ok () ∧
      ∃ p, ((Store.getProjection "T" "1").run after).1 = .ok (some p) ∧ p.data = .null ∧
        ∃ rows, ((Store.queryProjections "T" none).run after).1 = .ok rows ∧ p ∈ rows := by
  intro w after
  have accepted : (w.action.run (Store.new default)).1 = .ok () := by
    simp only [w, action, Store.run_saveProjection]
    rfl
  have listed := queryProjections_new "T" default
  obtain ⟨back, -⟩ := written_reads_back (Store.orderly_new default) accepted
  obtain ⟨p, found, -, -, data, all⟩ := back (by decide)
  obtain ⟨rows, listedAfter, -, has⟩ := all [] listed
  exact ⟨accepted, p, found, data, rows, listedAfter, (has p).2 (.inl rfl)⟩

/-- Data of 128 levels are accepted by a new store, where all projections of the type
could be listed. After that there is one that cannot be read, and no list. -/
theorem nested_write_breaks_reads :
    let w : ProjectionWrite := .save "T" "1" (Json.nested .null 128) 1
    let after := (w.action.run (Store.new default)).2
    ((Store.queryProjections "T" none).run (Store.new default)).1 = .ok [] ∧
      (w.action.run (Store.new default)).1 = .ok () ∧
      ((Store.getProjection "T" "1").run after).1 = .error unreadable ∧
      ((Store.queryProjections "T" none).run after).1 = .error unreadable := by
  have depth : (Json.nested .null 128).depth = 128 := Json.depth_nested .null 128
  generalize Json.nested .null 128 = data at depth
  intro w after
  have storable : (Payload.value data).isStorable := by
    simp [Payload.isStorable, Payload.depth, depth, Payload.writeDepth]
  have illegible : ¬ data.Legible := by
    simp [Json.Legible, depth, Payload.readDepth]
  have accepted : (w.action.run (Store.new default)).1 = .ok () := by
    simp only [w, action, Store.run_saveProjection, storable]
    rfl
  exact ⟨queryProjections_new "T" default, accepted,
    accepted_illegible (Store.orderly_new default) accepted illegible⟩

end ProjectionWrite

end Chronicle
