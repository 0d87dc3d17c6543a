import Chronicle.Action
import Chronicle.Store.Tables

/-!
# The schema

A database may lack any of its tables: a new one has none. Opening a database
creates what is missing and then checks the schema version (`Catalog.initialise`).
A version that is newer than the supported one is refused; what was created by
then stays.
-/

namespace Chronicle

/-- The content of a database of which any table may be missing. -/
structure Catalog where
  /-- The schema-version table, and the version if its row is there. -/
  version : Option (Option Int)
  events : Option (List EventRow)
  projections : Option (List ProjectionRow)
  indexes : List Index
  barred : List String
  deriving Inhabited

namespace Catalog

def empty : Catalog := ⟨none, none, none, [], []⟩

/-- The tables, if none is missing. -/
def tables? (c : Catalog) : Option Tables :=
  match c.version, c.events, c.projections with
  | some version, some events, some projections =>
    some ⟨version, events, projections, c.indexes, c.barred⟩
  | _, _, _ => none

end Catalog

/-- Tables as a catalog that lacks none. -/
def Tables.catalog (t : Tables) : Catalog :=
  ⟨some t.version, some t.events, some t.projections, t.indexes, t.barred⟩

namespace Schema

def supported : Int := 1

def versionLimit : Int := 4294967295

/-- The indexes that every database has. -/
def indexes : List Index :=
  [⟨"events_type_idx", .events⟩, ⟨"events_created_at_idx", .events⟩,
    ⟨"projections_type_idx", .projections⟩, ⟨"projections_latest_event_id_idx", .projections⟩]

/-- A schema version as it is read. -/
def readVersion : Option Int → Except Fault Int
  | none => .error (.notFound "keel_meta row")
  | some version =>
    if 0 ≤ version ∧ version ≤ versionLimit then .ok version
    else .error (.storage "schema version is out of range")

/-- A version that is not newer than the supported one. -/
def checkVersion (version : Int) : Except Fault Unit :=
  if supported < version then
    .error (.config
      s!"Database schema version {version} is newer than supported version {supported}")
  else .ok ()

end Schema

namespace Catalog

/-- Add the indexes of the schema that are missing. -/
def withIndexes (c : Catalog) : Catalog :=
  { c with indexes := Schema.indexes.foldl (fun found index =>
      if found.any (·.hasName index.name) then found else found ++ [index]) c.indexes }

def completed (c : Catalog) : Catalog :=
  withIndexes
    { c with
      version := some ((c.version.getD none).or (some Schema.supported))
      events := some (c.events.getD [])
      projections := some (c.projections.getD []) }

/-- Create what is missing and check the schema version. -/
def initialise : Action Catalog Unit := do
  modify completed
  let version ← Action.ofExcept (Schema.readVersion ((← get).version.getD none))
  Action.ofExcept (Schema.checkVersion version)

end Catalog

end Chronicle
