import Chronicle.Proofs.Keyed
import Chronicle.Proofs.Log.Limits
import Chronicle.Proofs.Log.Runs
import Mathlib.Data.Prod.Lex
import Mathlib.Data.String.Basic

/-!
# The rows of projections

Rows of projections stand in the order of their keys, each key once, and have
time stamps that can be read (`Tables.Orderly`). A write puts one row at its
place, and what the table has under other keys stays (`mem_putProjection`). A query
lists the rows of a type in the order of their ids (`Tables.Orderly.pairwise_listed`).

A query needs all of its rows to be readable (`Store.run_queryProjections_of_readable`),
and one that is not makes it fail (`Store.run_queryProjections_of_unreadable`).
-/

namespace Chronicle

/-! ## Reading a row -/

namespace ProjectionRow

/-- Both time stamps are well formed. -/
def Stamped (row : ProjectionRow) : Prop := row.created.read?.isSome ∧ row.updated.read?.isSome

/-- The row can be read. -/
def Readable (row : ProjectionRow) : Prop := ∃ p, row.read = .ok p

/-- The row comes before another one: rows are in the order of their types, those of
a type in the order of their ids. -/
def Precedes (row other : ProjectionRow) : Prop :=
  row.type < other.type ∨ row.type = other.type ∧ row.id < other.id

variable {row other : ProjectionRow} {p : StoredProjection}

theorem hasKey_iff {type id : String} : row.hasKey type id ↔ row.type = type ∧ row.id = id := by
  simp [hasKey]

theorem read_eq_ok_iff :
    row.read = .ok p ↔ row.type = p.type ∧ row.id = p.id ∧ row.data.toJson? = some p.data ∧
      row.lastEvent = p.lastEvent ∧ row.created.read? = some p.created ∧
      row.updated.read? = some p.updated := by
  unfold read
  obtain ⟨type, id, data, event, created, updated⟩ := p
  cases row.data.toJson? <;> cases row.created.read? <;> cases row.updated.read? <;> simp

theorem read_of_unreadable (fails : ¬ row.Readable) : row.read = .error unreadable := by
  cases reads : row.read with
  | ok p => exact absurd ⟨p, reads⟩ fails
  | error fault =>
    unfold read at reads
    split at reads
    · cases reads
    · exact reads.symm ▸ rfl

theorem toOption_read : row.read.toOption = some p ↔ row.read = .ok p := by
  cases row.read <;> simp [Except.toOption]

/-- A row with well-formed time stamps can be read when its payload can. -/
theorem Stamped.readable_iff (stamped : row.Stamped) :
    row.Readable ↔ row.data.toJson?.isSome := by
  obtain ⟨created, isCreated⟩ := Option.isSome_iff_exists.1 stamped.1
  obtain ⟨updated, isUpdated⟩ := Option.isSome_iff_exists.1 stamped.2
  cases payload : row.data.toJson? <;> simp [Readable, read, payload, isCreated, isUpdated]

/-! ## The order of keys -/

/-- The key of a row, in the order in which rows stand. -/
def key (row : ProjectionRow) : String ×ₗ String := toLex (row.type, row.id)

theorem precedes_iff : row.Precedes other ↔ row.key < other.key := by
  rw [key, key, Prod.Lex.toLex_lt_toLex, Precedes]

theorem hasKey_iff_key : other.hasKey row.type row.id ↔ other.key = row.key := by
  rw [hasKey_iff, key, key, EmbeddingLike.apply_eq_iff_eq, Prod.mk.injEq]

end ProjectionRow

/-! ## Putting a row -/

namespace Tables

open ProjectionRow

variable {row other : ProjectionRow} {rows : List ProjectionRow}

theorem pairwise_precedes_iff :
    rows.Pairwise Precedes ↔ rows.Pairwise (ProjectionRow.key · < ProjectionRow.key ·) := by
  simp only [← precedes_iff]

theorem putProjection_eq (row : ProjectionRow) (rows : List ProjectionRow) :
    putProjection row rows = putByKey ProjectionRow.key row rows := by
  induction rows with
  | nil => rfl
  | cons head rest ih =>
    have order : row.type < head.type ∨ row.type = head.type ∧ row.id < head.id ↔
        row.key < head.key := precedes_iff
    simp only [putProjection, putByKey, ih, hasKey_iff_key, order]
    rcases lt_trichotomy row.key head.key with before | same | after
    · rw [if_neg before.ne', if_pos before, if_pos before]
    · rw [if_pos same.symm, if_neg same.not_lt, if_pos same]
    · rw [if_neg after.ne, if_neg after.not_gt, if_neg after.not_gt, if_neg after.ne']

/-- What a table has after a row was put: the row, and all rows with other keys. -/
theorem mem_putProjection (sorted : rows.Pairwise Precedes) :
    other ∈ putProjection row rows ↔
      other = row ∨ other ∈ rows ∧ ¬ other.hasKey row.type row.id := by
  rw [putProjection_eq, mem_putByKey (pairwise_precedes_iff.1 sorted), hasKey_iff_key]

theorem pairwise_putProjection (row : ProjectionRow) (sorted : rows.Pairwise Precedes) :
    (putProjection row rows).Pairwise Precedes := by
  rw [putProjection_eq, pairwise_precedes_iff]
  exact pairwise_putByKey row (pairwise_precedes_iff.1 sorted)

/-- In a sorted table a row is the one that is found under its key. -/
theorem find?_of_sorted (sorted : rows.Pairwise Precedes) (present : row ∈ rows) :
    rows.find? (·.hasKey row.type row.id) = some row := by
  have found := find?_of_nodup (nodup_of_sorted (pairwise_precedes_iff.1 sorted)) present
  simpa only [← hasKey_iff_key, Bool.decide_eq_true] using found

/-! ## Orderly tables -/

/-- The rows of projections are in the order of their keys, each key once, and their
time stamps can be read. -/
structure Orderly (t : Tables) : Prop where
  sorted : t.projections.Pairwise Precedes
  stamped : ∀ row ∈ t.projections, row.Stamped

namespace Orderly

variable {t u : Tables}

theorem of_projections (orderly : t.Orderly) (same : u.projections = t.projections) : u.Orderly :=
  ⟨same ▸ orderly.sorted, same ▸ orderly.stamped⟩

theorem put (orderly : t.Orderly) (stamped : row.Stamped) :
    ({ t with projections := putProjection row t.projections } : Tables).Orderly := by
  refine ⟨pairwise_putProjection row orderly.sorted, fun other present => ?_⟩
  rcases (mem_putProjection orderly.sorted).1 present with rfl | ⟨was, -⟩
  · exact stamped
  · exact orderly.stamped other was

theorem mem_iff (orderly : t.Orderly) :
    row ∈ t.projections ↔ t.projection? row.type row.id = some row :=
  ⟨find?_of_sorted orderly.sorted, List.mem_of_find?_eq_some⟩

end Orderly

theorem hasKey_of_projection? {t : Tables} {type id : String}
    (found : t.projection? type id = some row) :
    row ∈ t.projections ∧ row.type = type ∧ row.id = id :=
  ⟨List.mem_of_find?_eq_some found, hasKey_iff.1 (List.find?_eq_some_iff_append.1 found).1⟩

/-- A row that was put is found. -/
theorem projection?_put (t : Tables) (row : ProjectionRow) :
    ({ t with projections := putProjection row t.projections } : Tables).projection?
      row.type row.id = some row := by
  rw [projection?, find?_putProjection, if_pos (hasKey_iff.2 ⟨rfl, rfl⟩)]

/-! ## Listing the rows of a type -/

/-- The projections of a type that pass some tests and can be read, by id. -/
def listed (t : Tables) (type : String) (tests : List FieldTest) : List StoredProjection :=
  (t.projectionsOf type tests).filterMap fun row => row.read.toOption

variable {t : Tables} {type : String} {tests : List FieldTest}

theorem mem_projectionsOf :
    row ∈ t.projectionsOf type tests ↔
      row ∈ t.projections ∧ row.type = type ∧ holdsAll tests row.data := by
  simp [projectionsOf]

theorem mem_listed {p : StoredProjection} :
    p ∈ t.listed type tests ↔
      ∃ row ∈ t.projections, row.type = type ∧ holdsAll tests row.data ∧ row.read = .ok p := by
  simp [listed, mem_projectionsOf, toOption_read, and_assoc]

/-- With a row that was put, its type has the projection that is read from it and
those that it had under other ids. -/
theorem Orderly.mem_listed_put (orderly : t.Orderly) {p q : StoredProjection}
    (reads : row.read = .ok p) :
    q ∈ ({ t with projections := putProjection row t.projections } : Tables).listed row.type [] ↔
      q = p ∨ q ∈ t.listed row.type [] ∧ q.id ≠ row.id := by
  simp only [mem_listed, mem_putProjection orderly.sorted]
  constructor
  · rintro ⟨other, rfl | ⟨was, differs⟩, ofType, passes, readsOther⟩
    · exact .inl (Except.ok.inj (readsOther.symm.trans reads))
    · refine .inr ⟨⟨other, was, ofType, passes, readsOther⟩, fun sameId => differs ?_⟩
      obtain ⟨-, idQ, -⟩ := read_eq_ok_iff.1 readsOther
      exact hasKey_iff.2 ⟨ofType, idQ.trans sameId⟩
  · rintro (rfl | ⟨⟨other, was, ofType, passes, readsOther⟩, differs⟩)
    · exact ⟨row, .inl rfl, rfl, rfl, reads⟩
    · refine ⟨other, .inr ⟨was, fun same => differs ?_⟩, ofType, passes, readsOther⟩
      obtain ⟨-, idQ, -⟩ := read_eq_ok_iff.1 readsOther
      exact idQ.symm.trans (hasKey_iff.1 same).2

/-- A list has its projections in the order of their ids, each once. -/
theorem Orderly.pairwise_listed (orderly : t.Orderly) (type : String) (tests : List FieldTest) :
    (t.listed type tests).Pairwise (·.id < ·.id) := by
  have rows : (t.projectionsOf type tests).Pairwise Precedes := orderly.sorted.filter _
  refine List.pairwise_filterMap.2 (rows.imp_of_mem fun {row later} present inRest before => ?_)
  intro p reads q readsLater
  have id_p : row.id = p.id := (read_eq_ok_iff.1 (toOption_read.1 reads)).2.1
  have id_q : later.id = q.id := (read_eq_ok_iff.1 (toOption_read.1 readsLater)).2.1
  have sameType : row.type = later.type :=
    (mem_projectionsOf.1 present).2.1.trans (mem_projectionsOf.1 inRest).2.1.symm
  rcases before with lower | ⟨-, lower⟩
  · exact absurd lower (sameType ▸ String.lt_irrefl _)
  · rwa [← id_p, ← id_q]

theorem mapM_read_of_readable (readable : ∀ row ∈ rows, row.Readable) :
    rows.mapM ProjectionRow.read = .ok (rows.filterMap fun row => row.read.toOption) := by
  induction rows with
  | nil => rfl
  | cons row rest ih =>
    obtain ⟨p, reads⟩ := readable row List.mem_cons_self
    have others := ih fun later inRest => readable later (List.mem_cons_of_mem _ inRest)
    rw [List.mapM_cons, reads, others, List.filterMap_cons, toOption_read.2 reads]
    rfl

/-- One row that cannot be read is enough for none to be. -/
theorem mapM_read_of_unreadable (present : row ∈ rows) (fails : ¬ row.Readable) :
    rows.mapM ProjectionRow.read = .error unreadable := by
  induction rows with
  | nil => simp at present
  | cons head rest ih =>
    rw [List.mapM_cons]
    by_cases readable : head.Readable
    · obtain ⟨p, reads⟩ := readable
      have inRest : row ∈ rest := (List.mem_cons.1 present).resolve_left fun same =>
        fails ⟨p, same ▸ reads⟩
      rw [reads, ih inRest]
      rfl
    · rw [read_of_unreadable readable]
      rfl

end Tables

/-! ## Queries -/

namespace Store

variable {s : Store} {type : String} {filter : Option Filter} {tests : List FieldTest}

/-- A query that can be prepared lists the projections of its type that pass the
tests, when all of them can be read. -/
theorem run_queryProjections_of_readable (sound : s.poisoned = false)
    (compiled : compileOptional filter = .ok tests) (can : Statement.canList type tests)
    (readable : ∀ row ∈ s.tables.projectionsOf type tests, row.Readable) :
    ∃ metrics, (queryProjections type filter).run s =
      (.ok (s.tables.listed type tests), { s with metrics := metrics }) := by
  simp only [Statement.canList, Bool.and_eq_true, Bool.not_eq_true'] at can
  refine ⟨s.metrics.read (s.tables.listed type tests).length, ?_⟩
  rw [run_queryProjections, compiled]
  simp [sound, can.1, can.2, Tables.mapM_read_of_readable readable, Tables.listed]

/-- One projection that cannot be read makes the query fail. -/
theorem run_queryProjections_of_unreadable (sound : s.poisoned = false)
    (compiled : compileOptional filter = .ok tests) (can : Statement.canList type tests)
    {row : ProjectionRow} (present : row ∈ s.tables.projectionsOf type tests)
    (fails : ¬ row.Readable) :
    (queryProjections type filter).run s = (.error unreadable, s) := by
  simp only [Statement.canList, Bool.and_eq_true, Bool.not_eq_true'] at can
  rw [run_queryProjections, compiled]
  simp [sound, can.1, can.2, Tables.mapM_read_of_unreadable present fails]

theorem run_queryProjections_of_refused (compiled : compileOptional filter = .ok tests)
    (refused : ¬ Statement.canList type tests) :
    (queryProjections type filter).run s =
      (.error (if s.poisoned then .lock "connection mutex poisoned"
        else .storage "statement cannot be prepared"), s) := by
  have unprepared : Statement.testsNest tests ∨
      ¬ (Statement.selectProjections type tests).isPreparable := by
    by_contra prepared
    rw [not_or, not_not, Bool.not_eq_true] at prepared
    exact refused (by simp [Statement.canList, prepared])
  rw [run_queryProjections, compiled]
  simp only [if_pos unprepared]
  split <;> rfl

/-- An answered query of a whole type has read all of its projections. -/
theorem queryProjections_eq_ok {rows : List StoredProjection}
    (answered : ((queryProjections type none).run s).1 = .ok rows) :
    (∀ row ∈ s.tables.projectionsOf type [], row.Readable) ∧ rows = s.tables.listed type [] := by
  have compiled : compileOptional none = .ok [] := rfl
  have can := Statement.canList_nil type
  have sound : s.poisoned = false := by
    cases poisoned : s.poisoned with
    | false => rfl
    | true =>
      rw [run_queryProjections, compiled] at answered
      simp [poisoned] at answered
  have readable : ∀ row ∈ s.tables.projectionsOf type [], row.Readable := by
    by_contra! ⟨row, present, fails⟩
    rw [run_queryProjections_of_unreadable sound compiled can present fails] at answered
    cases answered
  obtain ⟨metrics, ran⟩ := run_queryProjections_of_readable sound compiled can readable
  rw [ran] at answered
  exact ⟨readable, (Except.ok.inj answered).symm⟩

end Store

end Chronicle
