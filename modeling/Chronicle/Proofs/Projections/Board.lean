import Chronicle.Proofs.Filter.Building
import Chronicle.Proofs.Projections.Writes
import Chronicle.Proofs.Text.ByteOrder
import Mathlib.Data.Finmap

/-!
# Projections as a map

The projections of a store are a finite map from types and ids to data and last
events (`Board`). The three kinds of writes change the map by three short rules
(`Board.write`), and anything else that is done leaves it. At every point of
every run in which the data written are nested little enough to be read, the table
shows the map (`Tables.Shows`), and the store answers from it
(`Board.projections_refine_board`): filters look at the data as they were written,
and answers have them as they are read back (`Entry.reread`).

So an answer can have another float than the map. And a filter can have more operands
than a statement may have parameters, so that a query with it fails, whatever the map has
(`Board.float_differs_and_wide_fails`).
-/

namespace Chronicle

/-- The data of a projection, and the last event folded into them. -/
structure Entry where
  data : Json
  lastEvent : EventId

/-- The entry as it is answered: its data are read back. -/
def Entry.reread (entry : Entry) : Entry := { entry with data := entry.data.reread }

/-- Projections by type and id. -/
abbrev Board := Finmap fun _ : String × String => Entry

/-- What a write answers, and the map that it leaves. Saving sets both fields.
Forcing replaces the data of an entry that is there. Updating sets both fields of an
entry that is absent or older. -/
def Board.write (b : Board) : ProjectionWrite → Except Fault Unit × Board
  | .save type id data event => (.ok (), b.insert (type, id) ⟨data, event⟩)
  | .force type id data =>
    match b.lookup (type, id) with
    | none => (.error (.notFound s!"projection {type}/{id}"), b)
    | some entry => (.ok (), b.insert (type, id) { entry with data := data })
  | .update type id data event =>
    if (b.lookup (type, id)).all (·.lastEvent < event) then
      (.ok (), b.insert (type, id) ⟨data, event⟩)
    else (.error (.staleSnapshot type id event), b)

/-- A write that fails leaves the map. -/
theorem Board.write_eq_error {b : Board} {w : ProjectionWrite} {fault : Fault}
    (failed : (b.write w).1 = .error fault) : (b.write w).2 = b := by
  cases w with
  | save => simp [write] at failed
  | force type id data =>
    cases found : b.lookup (type, id) with
    | none => simp [write, found]
    | some entry => simp [write, found] at failed
  | update type id data event =>
    by_cases older : (b.lookup (type, id)).all (·.lastEvent < event)
    · simp [write, older] at failed
    · simp [write, older]

def StoredProjection.entry (p : StoredProjection) : Entry := ⟨p.data, p.lastEvent⟩

/-- The tests of a filter, if there is one. -/
def testsOf (filter : Option Filter) : List FieldTest := (filter.map Filter.fieldTests).getD []

theorem compileOptional_of_valid {filter : Option Filter}
    (valid : ∀ f, filter = some f → f.Valid) : compileOptional filter = .ok (testsOf filter) := by
  cases filter with
  | none => rfl
  | some f => exact f.compile_of_valid (valid f rfl)

/-! ## What the table shows -/

/-- The row holds an entry, which can be read. -/
structure ProjectionRow.Shows (row : ProjectionRow) (entry : Entry) : Prop where
  data : row.data = .value entry.data
  legible : entry.data.Legible
  lastEvent : row.lastEvent = entry.lastEvent

theorem ProjectionRow.Shows.read {row : ProjectionRow} {entry : Entry} (shows : row.Shows entry)
    (stamped : row.Stamped) :
    ∃ p, row.read = .ok p ∧ p.type = row.type ∧ p.id = row.id ∧ p.entry = entry.reread := by
  obtain ⟨p, reads⟩ := (stamped.readable_iff_legible shows.data).2 shows.legible
  obtain ⟨type, id, data, event, -⟩ := ProjectionRow.read_eq_ok_iff.1 reads
  rw [shows.data, shows.legible.toJson?] at data
  have sameData : p.data = entry.data.reread := (Option.some.inj data).symm
  have sameEvent : p.lastEvent = entry.lastEvent := event.symm.trans shows.lastEvent
  exact ⟨p, reads, type.symm, id.symm, by
    rw [StoredProjection.entry, sameData, sameEvent, Entry.reread]⟩

/-- The table has a row for each entry of the map, and no other rows. -/
structure Tables.Shows (t : Tables) (b : Board) : Prop where
  orderly : t.Orderly
  agrees : ∀ type id,
    Option.Rel ProjectionRow.Shows (t.projection? type id) (b.lookup (type, id))

namespace Tables.Shows

variable {t u : Tables} {b : Board} {type id : String}

theorem new (now : Instant) : (Store.new now).tables.Shows ∅ :=
  ⟨Store.orderly_new now, fun _ _ => by
    rw [Finmap.lookup_empty]
    exact .none⟩

theorem of_projections (shows : t.Shows b) (same : u.projections = t.projections) :
    u.Shows b := by
  refine ⟨shows.orderly.of_projections same, fun type id => ?_⟩
  rw [Tables.projection?, same]
  exact shows.agrees type id

/-- What an absent or a present key says of the map. -/
theorem lookup_of_none (shows : t.Shows b) (absent : t.projection? type id = none) :
    b.lookup (type, id) = none := by
  have agrees := shows.agrees type id
  rw [absent] at agrees
  cases there : b.lookup (type, id) with
  | none => rfl
  | some entry =>
    rw [there] at agrees
    cases agrees

theorem lookup_of_some (shows : t.Shows b) {row : ProjectionRow}
    (found : t.projection? type id = some row) :
    ∃ entry, b.lookup (type, id) = some entry ∧ row.Shows entry := by
  have agrees := shows.agrees type id
  rw [found] at agrees
  cases there : b.lookup (type, id) with
  | none =>
    rw [there] at agrees
    cases agrees
  | some entry =>
    rw [there] at agrees
    cases agrees with
    | some same => exact ⟨entry, rfl, same⟩

/-- Every entry has its row. -/
theorem row_of_lookup (shows : t.Shows b) {entry : Entry}
    (there : b.lookup (type, id) = some entry) :
    ∃ row, t.projection? type id = some row ∧ row.Shows entry := by
  cases found : t.projection? type id with
  | none =>
    rw [shows.lookup_of_none found] at there
    cases there
  | some row =>
    obtain ⟨other, same, shown⟩ := shows.lookup_of_some found
    obtain rfl := Option.some.inj (same.symm.trans there)
    exact ⟨row, rfl, shown⟩

/-- Writing a row and inserting its entry go together. -/
theorem upsert (shows : t.Shows b) (now : Instant) (type id : String) {data : Json}
    (legible : data.Legible) (event : EventId) :
    (t.upsert now type id data event).Shows (b.insert (type, id) ⟨data, event⟩) := by
  refine ⟨shows.orderly.upsert .., fun type' id' => ?_⟩
  by_cases same : type = type' ∧ id = id'
  · obtain ⟨rfl, rfl⟩ := same
    obtain ⟨row, sameType, sameId, holds, last, -, put⟩ :=
      shows.orderly.upsert_eq now type id data event
    have found : (t.upsert now type id data event).projection? type id = some row := by
      rw [put, ← sameType, ← sameId, Tables.projection?_put]
    rw [found, Finmap.lookup_insert]
    exact .some ⟨holds, legible, last⟩
  · have other : (type', id') ≠ (type, id) := fun equal =>
      same ⟨(congrArg Prod.fst equal).symm, (congrArg Prod.snd equal).symm⟩
    rw [Tables.projection?_upsert_of_ne t now data event same,
      Finmap.lookup_insert_of_ne b other]
    exact shows.agrees type' id'

/-- All rows that the map has entries for can be read. -/
theorem readable (shows : t.Shows b) {row : ProjectionRow} (present : row ∈ t.projections) :
    row.Readable := by
  obtain ⟨entry, -, shown⟩ := shows.lookup_of_some (shows.orderly.mem_iff.1 present)
  obtain ⟨p, reads, -⟩ := shown.read (shows.orderly.stamped row present)
  exact ⟨p, reads⟩

/-- A list of a type has the entries of the type that pass the tests, read back. -/
theorem mem_listed (shows : t.Shows b) (tests : List FieldTest) (answered : Entry) :
    (∃ p ∈ t.listed type tests, p.id = id ∧ p.entry = answered) ↔
      ∃ entry, b.lookup (type, id) = some entry ∧ holdsAll tests (.value entry.data) ∧
        answered = entry.reread := by
  constructor
  · rintro ⟨p, listed, rfl, rfl⟩
    obtain ⟨row, present, rfl, passes, reads⟩ := Tables.mem_listed.1 listed
    obtain ⟨entry, there, shown⟩ := shows.lookup_of_some (shows.orderly.mem_iff.1 present)
    obtain ⟨q, readsQ, -, sameId, sameEntry⟩ := shown.read (shows.orderly.stamped row present)
    obtain rfl := Except.ok.inj (readsQ.symm.trans reads)
    rw [sameId]
    exact ⟨entry, there, shown.data ▸ passes, sameEntry⟩
  · rintro ⟨entry, there, passes, rfl⟩
    obtain ⟨row, found, shown⟩ := shows.row_of_lookup there
    obtain ⟨present, sameType, sameId⟩ := Tables.hasKey_of_projection? found
    obtain ⟨p, reads, -, idP, entryP⟩ := shown.read (shows.orderly.stamped row present)
    refine ⟨p, Tables.mem_listed.2 ⟨row, present, sameType, ?_, reads⟩, idP.trans sameId, entryP⟩
    rwa [shown.data]

end Tables.Shows

/-! ## What a store answers -/

section Answers

variable {s : Store} {b : Board}

/-- A store that nobody has crashed on does with a write what the map does. -/
theorem Tables.Shows.write (shows : s.tables.Shows b) (sound : s.poisoned = false)
    {w : ProjectionWrite} (legible : w.data.Legible) :
    (w.action.run s).1 = (b.write w).1 ∧ (w.action.run s).2.tables.Shows (b.write w).2 := by
  have storable := legible.isStorable
  cases w with
  | save type id data event =>
    rw [ProjectionWrite.data] at storable
    simp only [ProjectionWrite.action, Store.run_saveProjection, sound, storable, Board.write]
    exact ⟨rfl, shows.upsert s.now type id legible event⟩
  | force type id data =>
    rw [ProjectionWrite.data] at storable
    cases found : s.tables.projection? type id with
    | none =>
      have absent := shows.lookup_of_none found
      simp only [ProjectionWrite.action, Store.run_forceProjection, sound, found, Board.write,
        absent]
      exact ⟨rfl, shows⟩
    | some row =>
      obtain ⟨entry, there, shown⟩ := shows.lookup_of_some found
      simp only [ProjectionWrite.action, Store.run_forceProjection, sound, found, storable,
        Board.write, there, Tables.replaceData_eq_upsert found, shown.lastEvent]
      exact ⟨rfl, shows.upsert s.now type id legible entry.lastEvent⟩
  | update type id data event =>
    rw [ProjectionWrite.data] at storable
    have sameTest : (s.tables.projection? type id).all (·.lastEvent < event) =
        (b.lookup (type, id)).all (·.lastEvent < event) := by
      cases found : s.tables.projection? type id with
      | none => rw [shows.lookup_of_none found]; rfl
      | some row =>
        obtain ⟨entry, there, shown⟩ := shows.lookup_of_some found
        simp [there, shown.lastEvent]
    simp only [ProjectionWrite.action, Store.run_updateProjection, sound, storable, sameTest,
      Board.write]
    by_cases older : (b.lookup (type, id)).all (·.lastEvent < event)
    · simp only [older]
      exact ⟨rfl, shows.upsert s.now type id legible event⟩
    · simp only [older]
      exact ⟨rfl, shows⟩

theorem Tables.Shows.getProjection (shows : s.tables.Shows b) (sound : s.poisoned = false)
    (type id : String) :
    ∃ found, (Store.getProjection type id).run s = (.ok found, s) ∧
      found.map StoredProjection.entry = (b.lookup (type, id)).map Entry.reread ∧
      ∀ p ∈ found, p.type = type ∧ p.id = id := by
  rw [Store.run_getProjection]
  cases present : s.tables.projection? type id with
  | none => exact ⟨none, by simp [sound], by simp [shows.lookup_of_none present], by simp⟩
  | some row =>
    obtain ⟨entry, there, shown⟩ := shows.lookup_of_some present
    obtain ⟨inTable, rfl, rfl⟩ := Tables.hasKey_of_projection? present
    obtain ⟨p, reads, typeP, idP, entryP⟩ := shown.read (shows.orderly.stamped row inTable)
    refine ⟨some p, by simp [sound, reads, Except.map], ?_, ?_⟩
    · rw [there, Option.map_some, Option.map_some, entryP]
    · simp [typeP, idP]

/-- A query is answered when it can be prepared, and then it lists the entries of its
type that match. -/
theorem Tables.Shows.queryProjections (shows : s.tables.Shows b) (sound : s.poisoned = false)
    (type : String) {filter : Option Filter} (valid : ∀ f, filter = some f → f.Valid) :
    ((∃ rows, ((Store.queryProjections type filter).run s).1 = .ok rows) ↔
      Statement.canList type (testsOf filter)) ∧
    ∀ rows, ((Store.queryProjections type filter).run s).1 = .ok rows →
      rows = s.tables.listed type (testsOf filter) := by
  have compiled := compileOptional_of_valid valid
  by_cases can : Statement.canList type (testsOf filter)
  · obtain ⟨metrics, ran⟩ := Store.run_queryProjections_of_readable sound compiled can
      fun row present => shows.readable (Tables.mem_projectionsOf.1 present).1
    rw [ran]
    exact ⟨⟨fun _ => can, fun _ => ⟨_, rfl⟩⟩, fun rows same => (Except.ok.inj same).symm⟩
  · rw [Store.run_queryProjections_of_refused compiled can]
    simp [can]

end Answers

/-! ## Runs -/

namespace Board

/-- A projection is written with data that can be read; or anything else is asked
for, in particular that events be appended; or time passes. -/
inductive Step : Store × Board → Store × Board → Prop
  | write (s : Store) (b : Board) {w : ProjectionWrite} (legible : w.data.Legible) :
    Step (s, b) ((w.action.run s).2, (b.write w).2)
  | call (s : Store) (b : Board) {c : Store.Call} (silent : ∀ type id, c.writes type id = false) :
    Step (s, b) (c.perform s, b)
  | meanwhile (s : Store) (b : Board) (now : Instant) (metrics : Metrics) :
    Step (s, b) ({ s with now := now, metrics := metrics }, b)

/-- Any number of steps. -/
abbrev Steps : Store × Board → Store × Board → Prop := Relation.ReflTransGen Step

variable {s : Store} {b : Board}

/-- A step keeps the map and what the table shows the same. -/
theorem Step.shows {w w' : Store × Board} (step : Step w w') (sound : w.1.poisoned = false)
    (shows : w.1.tables.Shows w.2) :
    w'.1.poisoned = false ∧ w'.1.tables.Shows w'.2 := by
  cases step with
  | write s b legible =>
    exact ⟨(ProjectionWrite.poisoned_run s).trans sound, (shows.write sound legible).2⟩
  | call s b silent =>
    rename_i c
    obtain ⟨change, poisoned, -⟩ := Store.leaves_perform c s
    exact ⟨poisoned.trans sound, shows.of_projections (change.projections_eq silent)⟩
  | meanwhile => exact ⟨sound, shows⟩

theorem Steps.shows {now : Instant} {w : Store × Board} (run : Steps (Store.new now, ∅) w) :
    w.1.poisoned = false ∧ w.1.tables.Shows w.2 := by
  induction run with
  | refl => exact ⟨rfl, .new now⟩
  | tail _ step ih => exact step.shows ih.1 ih.2

/-- At every point of every run, the store answers from the map.

A projection is found when its key has an entry, and holds that entry as it is read
back. A query with a valid filter, or none, is answered exactly when its statement can
be prepared, with the entries of its type that match, in the order of the bytes of their
ids, each once and as it is read back. Reading changes nothing.

A write of data that can be read answers what the map answers. When it fails it
changes nothing. It always leaves the events and what is under other keys. -/
theorem projections_refine_board {now : Instant} (run : Steps (Store.new now, ∅) (s, b)) :
    (∀ type id, ∃ found, (Store.getProjection type id).run s = (.ok found, s) ∧
      found.map StoredProjection.entry = (b.lookup (type, id)).map Entry.reread ∧
      ∀ p ∈ found, p.type = type ∧ p.id = id) ∧
    (∀ (type : String) (filter : Option Filter), (∀ f, filter = some f → f.Valid) →
      let answer := (Store.queryProjections type filter).run s
      ((∃ rows, answer.1 = .ok rows) ↔ Statement.canList type (testsOf filter)) ∧
      (∀ rows, answer.1 = .ok rows →
        (rows.Pairwise fun p q => utf8 p.id < utf8 q.id) ∧ (∀ p ∈ rows, p.type = type) ∧
        ∀ id answered, (∃ p ∈ rows, p.id = id ∧ p.entry = answered) ↔
          ∃ entry, b.lookup (type, id) = some entry ∧
            holdsAll (testsOf filter) (.value entry.data) ∧ answered = entry.reread) ∧
      answer.2.content = s.content) ∧
    ∀ w : ProjectionWrite, w.data.Legible →
      let answer := w.action.run s
      answer.1 = (b.write w).1 ∧
      (∀ fault, answer.1 = .error fault → answer.2.content = s.content ∧ (b.write w).2 = b) ∧
      answer.2.tables.events = s.tables.events ∧
      ∀ type id, ¬ (w.type = type ∧ w.id = id) →
        answer.2.tables.projection? type id = s.tables.projection? type id := by
  obtain ⟨sound, shows⟩ := run.shows
  refine ⟨shows.getProjection sound, fun type filter valid => ?_, fun w legible => ?_⟩
  · obtain ⟨answered, lists⟩ := shows.queryProjections sound type valid
    refine ⟨answered, fun rows ran => ?_, Store.keeps_queryProjections type filter s⟩
    obtain rfl := lists rows ran
    refine ⟨(shows.orderly.pairwise_listed type _).imp lt_iff_utf8_lt.1, fun p listed => ?_,
      fun id answered => shows.mem_listed (testsOf filter) answered⟩
    obtain ⟨row, -, ofType, -, reads⟩ := Tables.mem_listed.1 listed
    exact (ProjectionRow.read_eq_ok_iff.1 reads).1.symm.trans ofType
  · obtain ⟨same, -⟩ := shows.write sound legible
    refine ⟨same, fun fault failed => ⟨w.content_of_error failed, ?_⟩, w.events_run s,
      fun type id other => w.projection?_run s other⟩
    exact write_eq_error (same.symm.trans failed)

/-- One projection is saved at event 5. It is found and listed, and an update at the
same event is refused. -/
theorem projections_refine_board_one :
    let s := ((ProjectionWrite.save "T" "1" .null 5).action.run (Store.new default)).2
    (∃ p, (Store.getProjection "T" "1").run s = (.ok (some p), s) ∧ p.entry = ⟨.null, 5⟩) ∧
      (∃ rows, ((Store.queryProjections "T" none).run s).1 = .ok rows ∧
        ∃ p ∈ rows, p.id = "1" ∧ p.entry = ⟨.null, 5⟩) ∧
      ((ProjectionWrite.update "T" "1" .null 5).action.run s).1 =
        .error (.staleSnapshot "T" "1" 5) := by
  intro s
  have legible : Json.null.Legible := by decide
  have run : Steps (Store.new default, ∅) (s, Finmap.insert ("T", "1") ⟨.null, 5⟩ ∅) :=
    .single (.write (w := .save "T" "1" .null 5) _ _ legible)
  have entry : (Finmap.insert ("T", "1") ⟨.null, 5⟩ ∅ : Board).lookup ("T", "1") =
      some ⟨.null, 5⟩ := Finmap.lookup_insert _
  obtain ⟨gets, queries, writes⟩ := projections_refine_board run
  refine ⟨?_, ?_, ?_⟩
  · obtain ⟨found, ran, same, -⟩ := gets "T" "1"
    rw [entry] at same
    obtain ⟨p, rfl, entryP⟩ := Option.map_eq_some_iff.1 same
    exact ⟨p, ran, entryP⟩
  · obtain ⟨answered, lists, -⟩ := queries "T" none nofun
    obtain ⟨rows, ran⟩ := answered.2 (Statement.canList_nil "T")
    obtain ⟨-, -, has⟩ := lists rows ran
    exact ⟨rows, ran, (has "1" ⟨.null, 5⟩).2 ⟨⟨.null, 5⟩, entry, rfl, rfl⟩⟩
  · obtain ⟨same, -⟩ := writes (.update "T" "1" .null 5) legible
    rw [same, Board.write, entry]
    rfl

/-! ## What is answered otherwise -/

/-- A field is among some texts, which are all the same. -/
def repeated (n : Nat) : Filter := Filter.empty.push "f" (.within (List.replicate n (.text "x")))

theorem repeated_valid (n : Nat) : (repeated n).Valid := by
  have finite : (List.replicate n (Scalar.text "x")).findSome? Scalar.nonFinite? = none := by
    rw [List.findSome?_eq_none_iff]
    intro operand present
    rw [List.eq_of_mem_replicate present]
    rfl
  have oneKind : Filter.ofOneKind (List.replicate n (.text "x")) = true := by
    cases n with
    | zero => rfl
    | succ n => simp [List.replicate_succ, Filter.ofOneKind]
  have condition : Filter.checkCondition (.within (List.replicate n (.text "x"))) = .ok () := by
    simp only [Filter.checkCondition, Condition.operands, finite, oneKind]
    rfl
  have name : Filter.checkName "f" = .ok () := rfl
  have built : repeated n = .build [("f", .within (List.replicate n (.text "x")))] := rfl
  rw [built]
  exact Filter.valid_build (List.forall_mem_singleton.2 ⟨name, condition⟩)

theorem params_repeated (n : Nat) : (allOf (testsOf (repeated n))).params.length = n := by
  simp [testsOf, repeated, Filter.push, Filter.pushField, Filter.empty, Filter.fieldTests,
    Filter.tests, Condition.test, allOf, Fragment.join, FieldTest.fragment, Relation.fragment]

/-- A store in which a projection was saved at event 5 with a float that is read as another
one. What is found is not what the map has. And a filter with as many operands as a statement
may have parameters is valid, but a query with it fails, though there is no projection, for
the type is one parameter more. -/
theorem float_differs_and_wide_fails :
    (let s := ((ProjectionWrite.save "T" "1" .roundData 5).action.run (Store.new default)).2
    let b : Board := Finmap.insert ("T", "1") ⟨.roundData, 5⟩ ∅
    Steps (Store.new default, ∅) (s, b) ∧ b.lookup ("T", "1") = some ⟨.roundData, 5⟩ ∧
      ∃ p, (Store.getProjection "T" "1").run s = (.ok (some p), s) ∧
        p.data = .beforeData ∧ p.data ≠ .roundData) ∧
    let filter := repeated Fragment.paramLimit
    filter.Valid ∧ Steps (Store.new default, ∅) (Store.new default, ∅) ∧
      (Store.queryProjections "T" (some filter)).run (Store.new default) =
        (.error (.storage "statement cannot be prepared"), Store.new default) := by
  constructor
  · intro s b
    have run : Steps (Store.new default, ∅) (s, b) :=
      .single (.write (w := .save "T" "1" .roundData 5) _ _ (by decide))
    have entry : b.lookup ("T", "1") = some ⟨.roundData, 5⟩ := Finmap.lookup_insert _
    obtain ⟨sound, shows⟩ := run.shows
    obtain ⟨found, ran, same, -⟩ := shows.getProjection sound "T" "1"
    rw [entry] at same
    obtain ⟨p, rfl, entryP⟩ := Option.map_eq_some_iff.1 same
    have data : p.data = .beforeData :=
      (congrArg Entry.data entryP).trans Json.reread_roundData
    exact ⟨run, entry, p, ran, data, data ▸ Json.beforeData_ne⟩
  · intro filter
    have valid := repeated_valid Fragment.paramLimit
    have refused : ¬ Statement.canList "T" (testsOf filter) := fun can => by
      have few := ((Statement.canList_iff _ _).1 can).2
      rw [Statement.listFits, params_repeated] at few
      simp [Fragment.paramLimit] at few
    have compiled : compileOptional (some filter) = .ok (testsOf (some filter)) :=
      compileOptional_of_valid fun f same => Option.some.inj same ▸ valid
    exact ⟨valid, .refl, Store.run_queryProjections_of_refused compiled refused⟩

end Board

end Chronicle
