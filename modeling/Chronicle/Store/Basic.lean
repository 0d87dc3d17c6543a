import Chronicle.EventLog
import Chronicle.Query.Nesting
import Chronicle.Store.Metrics
import Chronicle.Store.Schema

/-!
# Stores

A store is the tables of a database behind a lock, with the metrics of what was
done. Every operation takes the lock, except where it has nothing to ask of the
tables, and fails when a holder of the lock has crashed.
-/

namespace Chronicle

/-- A database in use. -/
structure Store where
  tables : Tables
  /-- A holder of the lock has crashed. -/
  poisoned : Bool
  /-- The time that rows are stamped with. -/
  now : Instant
  metrics : Metrics
  deriving Inhabited

namespace Store

def lock : Action Store Unit := do
  if (← get).poisoned then throw (.lock "connection mutex poisoned")

def count (f : Metrics → Metrics) : Action Store Unit :=
  modify fun s => { s with metrics := f s.metrics }

/-- Prepare a statement, whose condition may nest too deeply. -/
def prepare (statement : Fragment) (nestsTooDeeply : Bool) : Action Store Unit := do
  if nestsTooDeeply ∨ ¬ statement.isPreparable then throw (.storage "statement cannot be prepared")

def commit (tables : Tables) : Action Store Unit := modify fun s => { s with tables := tables }

@[simp]
theorem run_lock (s : Store) :
    lock.run s =
      (if s.poisoned then .error (.lock "connection mutex poisoned") else .ok (), s) := by
  by_cases poisoned : s.poisoned <;> simp [lock, Action.run_bind, poisoned]

@[simp]
theorem run_count (f : Metrics → Metrics) (s : Store) :
    (count f).run s = (.ok (), { s with metrics := f s.metrics }) := rfl

@[simp]
theorem run_prepare (statement : Fragment) (nestsTooDeeply : Bool) (s : Store) :
    (prepare statement nestsTooDeeply).run s =
      (if nestsTooDeeply ∨ ¬ statement.isPreparable then
        .error (.storage "statement cannot be prepared") else .ok (), s) := by
  unfold prepare
  rw [Action.run_ite]
  split <;> simp

@[simp]
theorem run_commit (tables : Tables) (s : Store) :
    (commit tables).run s = (.ok (), { s with tables := tables }) := rfl

def schemaVersion : Action Store Int := do
  lock
  Action.ofExcept (Schema.readVersion (← get).tables.version)

/-- Create what is missing of the schema, as on opening. -/
def initialiseSchema : Action Store Unit := do
  lock
  let s ← get
  let (answer, catalog) := Catalog.initialise.run s.tables.catalog
  commit (catalog.tables?.getD s.tables)
  Action.ofExcept answer

/-- Create an index on a payload field of the table with a name. -/
def createIndex (table field : String) : Action Store Unit := do
  lock
  match TableName.ofText? table with
  | none => throw (.config s!"Unknown table '{table}'")
  | some name =>
    let statement ← Action.ofExcept (Statement.createIndex table field)
    prepare statement false
    commit ((← get).tables.addIndex ⟨Statement.indexName table field, name⟩)

end Store

end Chronicle
