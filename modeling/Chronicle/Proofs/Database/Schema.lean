import Chronicle.Proofs.Database.Order
import Chronicle.Proofs.Query.Indexes

/-!
# What initialising leaves

Initialising creates what a database lacks of the schema, and only then reads the
version (`Catalog.run_initialise_eq`). So it leaves the same whether the version is
accepted or refused: all that was there is as before, the tables that were not are
empty, and nothing is lacking (`Catalog.Completes`). Once more, it answers the same
and changes nothing, and a database that lacks nothing is left as it was found
(`Catalog.initialise_completes`). One that is refused may have been changed, though
(`Catalog.initialise_changes_refused`); so is every one of a newer version that had the
version table only when its file was overwritten (`Workspace.refused_image`).
-/

namespace Chronicle

namespace Index

variable {a b : Index}

theorem hasName_comm : a.hasName b.name ↔ b.hasName a.name := by
  rw [hasName_iff, hasName_iff]
  exact eq_comm

/-- A known index with the name of one of the schema is that one. -/
theorem IsKnown.eq_of_hasName (known : a.IsKnown) (schema : b ∈ Schema.indexes)
    (named : a.hasName b.name) : a = b := by
  rcases known with inSchema | ⟨table, field, rfl⟩
  · have apart : ∀ a ∈ Schema.indexes, ∀ b ∈ Schema.indexes,
        a.name.toList.map Char.toLower = b.name.toList.map Char.toLower → a = b := by decide
    exact apart a inSchema b schema (hasName_iff.1 named)
  · exact absurd (hasName_comm.1 named) (not_hasName_ofField schema)

end Index

namespace Catalog

variable {c d : Catalog}

/-! ## Completing -/

/-- The tables are there, the version has a row, and the name of each index of the
schema is taken. -/
structure LacksNothing (c : Catalog) : Prop where
  version : ∃ v, c.version = some (some v)
  events : ∃ rows, c.events = some rows
  projections : ∃ rows, c.projections = some rows
  indexes : ∀ index ∈ Schema.indexes, ∃ present ∈ c.indexes, present.hasName index.name

/-- The second database is the first with what it lacked: what was there is as before,
tables that were not are empty, and a version that was not is the supported one. The
indexes of the schema are among the indexes unless others had taken their names. -/
structure Completes (c d : Catalog) : Prop where
  lacksNothing : d.LacksNothing
  version : ∀ v, c.version = some (some v) → d.version = c.version
  unversioned : c.version.getD none = none → d.version = some (some Schema.supported)
  events : d.events = some (c.events.getD [])
  projections : d.projections = some (c.projections.getD [])
  barred : d.barred = c.barred
  indexes : ∃ added, d.indexes = c.indexes ++ added ∧ ∀ index ∈ added,
    index ∈ Schema.indexes ∧ ∀ present ∈ c.indexes, ¬ present.hasName index.name
  known : (∀ index ∈ c.indexes, index.IsKnown) → ∀ index ∈ Schema.indexes, index ∈ d.indexes

/-- The name of an index of the schema is taken once a database is completed. -/
theorem exists_hasName_completed (c : Catalog) {index : Index} (schema : index ∈ Schema.indexes) :
    ∃ present ∈ c.completed.indexes, present.hasName index.name := by
  rw [indexes_completed]
  by_cases taken : c.indexes.any (·.hasName index.name)
  · obtain ⟨present, has, named⟩ := List.any_eq_true.1 taken
    exact ⟨present, List.mem_append_left _ has, named⟩
  · have new : index ∈ Schema.indexes.filter fun i => ¬ c.indexes.any (·.hasName i.name) :=
      List.mem_filter.2 ⟨schema, decide_eq_true taken⟩
    exact ⟨index, List.mem_append_right _ new, by simp [Index.hasName]⟩

theorem completes_completed (c : Catalog) : c.Completes c.completed where
  lacksNothing := {
    version := by
      cases version : c.version.getD none with
      | none => exact ⟨Schema.supported, by simp [completed, withIndexes, version]⟩
      | some v => exact ⟨v, by simp [completed, withIndexes, version]⟩
    events := ⟨_, rfl⟩
    projections := ⟨_, rfl⟩
    indexes := fun _ schema => c.exists_hasName_completed schema }
  version v stored := by simp [completed, withIndexes, stored]
  unversioned none := by simp [completed, withIndexes, none]
  events := rfl
  projections := rfl
  barred := rfl
  indexes := by
    refine ⟨_, c.indexes_completed, fun index new => ?_⟩
    obtain ⟨schema, free⟩ := List.mem_filter.1 new
    exact ⟨schema, by simpa using free⟩
  known known index schema := by
    obtain ⟨present, has, named⟩ := c.exists_hasName_completed schema
    rw [indexes_completed] at has ⊢
    rcases List.mem_append.1 has with old | new
    · rw [← (known present old).eq_of_hasName schema named]
      exact List.mem_append_left _ old
    · have inSchema : present.IsKnown := .inl (List.mem_of_mem_filter new)
      rw [← inSchema.eq_of_hasName schema named]
      exact List.mem_append_right _ new

/-- A database that lacks nothing is complete. -/
theorem LacksNothing.completed_eq (lacks : c.LacksNothing) : c.completed = c := by
  have none_new :
      (Schema.indexes.filter fun index => ¬ c.indexes.any (·.hasName index.name)) = [] := by
    rw [List.filter_eq_nil_iff]
    intro index schema
    simpa using lacks.indexes index schema
  have indexes : c.completed.indexes = c.indexes := by
    rw [indexes_completed, none_new, List.append_nil]
  obtain ⟨version, events, projections, found, barred⟩ := c
  obtain ⟨v, rfl⟩ := lacks.version
  obtain ⟨rows, rfl⟩ := lacks.events
  obtain ⟨rows', rfl⟩ := lacks.projections
  exact congrArg (fun found => Catalog.mk (some (some v)) (some rows) (some rows') found barred)
    indexes

/-! ## Initialising -/

/-- The version in the row, which is the supported one if there was no row. -/
def rowVersion (c : Catalog) : Int := (c.version.getD none).getD Schema.supported

/-- What was there is of no newer version, and the version can be read. -/
def IsCurrent (c : Catalog) : Prop :=
  ∀ v, c.version = some (some v) → 0 ≤ v ∧ v ≤ Schema.supported

/-- There is a version, and it is newer than the supported one. -/
def IsNewer (c : Catalog) (v : Int) : Prop :=
  c.version = some (some v) ∧ Schema.supported < v ∧ v ≤ Schema.versionLimit

/-- What is said of a version that is newer than the supported one. -/
def newerMessage (v : Int) : String :=
  s!"Database schema version {v} is newer than supported version {Schema.supported}"

theorem run_initialise_eq (c : Catalog) :
    initialise.run c =
      (if c.rowVersion < 0 ∨ Schema.versionLimit < c.rowVersion then
        .error (.storage "schema version is out of range")
      else if Schema.supported < c.rowVersion then .error (.config (newerMessage c.rowVersion))
      else .ok (), c.completed) := by
  have row : c.completed.version.getD none = some c.rowVersion := by
    cases version : c.version.getD none <;> simp [completed, withIndexes, rowVersion, version]
  unfold initialise
  rw [Action.run_bind, Action.run_modify]
  simp only [Action.run_bind, Action.run_get, Action.run_ofExcept, row, Schema.readVersion,
    Schema.checkVersion]
  by_cases readable : 0 ≤ c.rowVersion ∧ c.rowVersion ≤ Schema.versionLimit
  · rw [if_pos readable, if_neg (by omega)]
    rfl
  · rw [if_neg readable, if_pos (by omega)]

/-- A database that is initialised again answers the same and is not changed. -/
theorem run_initialise_completed (c : Catalog) :
    initialise.run c.completed = initialise.run c := by
  have version : c.completed.rowVersion = c.rowVersion := by
    cases version : c.version.getD none <;> simp [completed, withIndexes, rowVersion, version]
  rw [run_initialise_eq, run_initialise_eq, version,
    c.completes_completed.lacksNothing.completed_eq]

theorem isCurrent_iff : c.IsCurrent ↔ 0 ≤ c.rowVersion ∧ c.rowVersion ≤ Schema.supported := by
  unfold IsCurrent rowVersion
  rcases c.version with - | - | v <;> simp [Schema.supported]

theorem isNewer_iff {v : Int} : c.IsNewer v ↔
    v = c.rowVersion ∧ Schema.supported < v ∧ v ≤ Schema.versionLimit := by
  have absent : ¬ (v = Schema.supported ∧ Schema.supported < v ∧ v ≤ Schema.versionLimit) := by
    omega
  unfold IsNewer rowVersion
  rcases c.version with - | - | w
  · exact iff_of_false (fun stored => nomatch stored.1) absent
  · exact iff_of_false (fun stored => nomatch stored.1) absent
  · simp [eq_comm]

/-- A newer version is refused when the database has been completed. -/
theorem run_initialise_of_newer {v : Int} (newer : c.IsNewer v) :
    initialise.run c = (.error (.config (newerMessage v)), c.completed) := by
  obtain ⟨rfl, above, below⟩ := isNewer_iff.1 newer
  have order : 0 ≤ Schema.supported := by decide
  rw [run_initialise_eq, if_neg (by omega), if_pos above]

/-- Initialising completes the database, whatever it answers, and once more answers the
same and changes nothing. It succeeds unless there is a version that is newer than the
supported one or cannot be read. -/
theorem initialise_completes (c : Catalog) :
    ∃ answer d, initialise.run c = (answer, d) ∧ c.Completes d ∧ (c.LacksNothing → d = c) ∧
      initialise.run d = (answer, d) ∧
      (answer = .ok () ↔ c.IsCurrent) ∧
      ∀ text, answer = .error (.config text) ↔ ∃ v, c.IsNewer v ∧ text = newerMessage v := by
  have order : 0 ≤ Schema.supported ∧ Schema.supported ≤ Schema.versionLimit := by decide
  refine ⟨_, _, c.run_initialise_eq, c.completes_completed, LacksNothing.completed_eq, ?_, ?_, ?_⟩
  · rw [run_initialise_completed, run_initialise_eq]
  · rw [isCurrent_iff]
    split_ifs with unreadable newer
    · exact iff_of_false nofun (by omega)
    · exact iff_of_false nofun (by omega)
    · exact iff_of_true rfl (by omega)
  · intro text
    simp only [isNewer_iff]
    split_ifs with unreadable newer
    · exact iff_of_false nofun (fun ⟨v, ⟨same, above, below⟩, _⟩ => by omega)
    · rw [Except.error.injEq, Fault.config.injEq]
      constructor
      · rintro rfl
        exact ⟨_, ⟨rfl, newer, by omega⟩, rfl⟩
      · rintro ⟨_, ⟨rfl, -⟩, rfl⟩
        rfl
    · exact iff_of_false nofun (fun ⟨v, ⟨same, above, below⟩, _⟩ => by omega)

/-- A database of a newer version that has the version table only. -/
def newerVersion : Catalog := ⟨some (some 99), none, none, [], []⟩

/-- A database of a newer version is refused, and not left as it was found: it has an
event table then. -/
theorem initialise_changes_refused :
    ∃ d, initialise.run newerVersion =
        (.error (.config "Database schema version 99 is newer than supported version 1"), d) ∧
      newerVersion.events = none ∧ d.events = some [] ∧ d ≠ newerVersion :=
  ⟨_, rfl, rfl, rfl, fun same => nomatch congrArg Catalog.events same⟩

end Catalog

/-! ## Through connections -/

/-- Initialising through a connection that can be used completes its tables. -/
theorem Store.completes_initialiseSchema {s : Store} (sound : s.poisoned = false) :
    s.tables.catalog.Completes (initialiseSchema.run s).2.tables.catalog := by
  rw [run_initialiseSchema, if_neg (by simp [sound])]
  exact s.tables.catalog.completes_completed

/-- Through a connection to a file, initialising answers and leaves in the file what it
does of the database there, of which tables may be missing, and nothing else changes. -/
theorem Workspace.run_initialiseSchema {w : Workspace} {n : Nat} {connection : Connection}
    {location : Location} {c : Catalog} (opened : w.connections[n]? = some connection)
    (file : connection.source = .file location) (sound : connection.poisoned = false)
    (found : w.disk.catalog location = .ok c) :
    (initialiseSchema n).run w = ((Catalog.initialise.run c).1,
      { w with disk := w.disk.putFile location (.database (Catalog.initialise.run c).2) }) := by
  unfold initialiseSchema
  simp [Action.run_bind, opened, file, sound, found, Except.mapError]

/-- A database file with nothing but a version that is newer lacks its tables, and has
them once initialising has refused it. -/
theorem Workspace.refused_version {w : Workspace} {n : Nat} {connection : Connection}
    {location : Location} {v : Int}
    (opened : w.connections[n]? = some connection) (file : connection.source = .file location)
    (sound : connection.poisoned = false)
    (holds : w.disk.file? location = some (.database ⟨some (some v), none, none, [], []⟩))
    (newer : Catalog.IsNewer ⟨some (some v), none, none, [], []⟩ v) :
    w.tables connection.source = .error (.storage "a table is missing") ∧
      ∃ w', (initialiseSchema n).run w = (.error (.config (Catalog.newerMessage v)), w') ∧
        w'.tables connection.source = .ok ⟨some v, [], [], Schema.indexes, []⟩ := by
  have found : w.disk.catalog location = .ok ⟨some (some v), none, none, [], []⟩ := by
    rw [Disk.catalog, holds]
  have indexes := Catalog.indexes_completed ⟨some (some v), none, none, [], []⟩
  have completed : Catalog.completed ⟨some (some v), none, none, [], []⟩ =
      ⟨some (some v), some [], some [], Schema.indexes, []⟩ :=
    congrArg (fun found => Catalog.mk (some (some v)) (some []) (some []) found []) indexes
  have ran := run_initialiseSchema opened file sound found
  rw [Catalog.run_initialise_of_newer newer, completed] at ran
  refine ⟨?_, _, ran, ?_⟩
  · rw [file, tables, holds]
    rfl
  · rw [file, tables, Disk.file?_putFile, if_pos rfl]
    rfl

end Chronicle
