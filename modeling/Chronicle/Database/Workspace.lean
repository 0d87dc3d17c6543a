import Chronicle.Database.Disk
import Chronicle.Store.Basic
import Chronicle.Store.Config

/-!
# Workspaces

A workspace is a disk with open databases. Each opening makes a connection of
its own; connections to one file share its tables, and a connection in memory
has tables that nothing else sees. A connection lives on when the database it
was made for is closed or opened anew, since runners may hold it.

What is written to a database with a write-ahead log stands in the log until
the last connection is given up. What is written over the file of a new database
in the meantime is lost.
-/

namespace Chronicle

/-- Where a connection has its tables. -/
inductive Source where
  | memory (tables : Tables)
  | file (location : Location)

/-- The tables are those in the file at a location. -/
def Source.isFile (source : Source) (l : Location) : Bool :=
  match source with
  | .memory _ => false
  | .file location => location = l

/-- A connection, whose lock may be broken. -/
structure Connection where
  source : Source
  poisoned : Bool
  /-- It keeps a log with all that is in the file. -/
  logged : Bool

/-- An open database: the number of its connection, how it was opened, and its
directory. -/
structure Database where
  connection : Nat
  config : Config
  base : Option Path

/-- A disk, the connections ever made, and what was counted on them. -/
structure Workspace where
  disk : Disk
  connections : List Connection
  metrics : Metrics
  /-- The time that rows are stamped with. -/
  now : Instant

namespace Workspace

/-- The name of the file in a database directory. -/
def fileName : String := "events.db"

def empty (rootSize : Nat) (now : Instant) : Workspace := ⟨.empty rootSize, [], .empty, now⟩

def connect (source : Source) (logged : Bool) : Action Workspace Nat := do
  let w ← get
  set { w with connections := w.connections ++ [Connection.mk source false logged] }
  return w.connections.length

def openInMemory (config : Config) : Action Workspace Database := do
  let (answer, catalog) := Catalog.initialise.run .empty
  Action.ofExcept answer
  let number ← connect (.memory (catalog.tables?.getD default)) false
  return ⟨number, config, none⟩

/-- All that is in the file at a location is in a log. -/
def isLogged (w : Workspace) (l : Location) : Bool :=
  w.connections.any fun c => c.logged && c.source.isFile l

/-- Give up the connections that are not held. -/
def release (w : Workspace) (held : List Nat) : Workspace :=
  { w with connections := w.connections.mapIdx fun n c =>
      { c with logged := c.logged && held.contains n } }

def onDisk {α : Type} (act : Action Disk α) : Action Workspace α := do
  let w ← get
  let (answer, disk) := act.run w.disk
  set { w with disk := disk }
  Action.ofExcept answer

/-- Open a database in a file, making the directories it is in. What opening
creates in the file stays even if the database is then refused. -/
def openFile (path : Path) (config : Config) : Action Workspace Database := do
  onDisk (Disk.makeDirectories path.parent)
  let disk := (← get).disk
  match disk.databaseFile? path with
  | none => throw (.storage "unable to open database file")
  | some location =>
    let found ← Action.ofExcept (disk.catalog location)
    let (answer, catalog) := Catalog.initialise.run found
    modify fun w => { w with disk := disk.putFile location (.database catalog) }
    Action.ofExcept answer
    let logged := (← get).isLogged location || config.writeAhead && disk.isNew location
    let number ← connect (.file location) logged
    return ⟨number, { config with path := some path.text }, some path.parent⟩

def openWith (config : Config) : Action Workspace Database :=
  match config.path with
  | some path => openFile (.ofText path) config
  | none => openInMemory config

/-- Open the database in a directory, making the directory. -/
def openDirectory (path : Path) : Action Workspace Database := do
  onDisk (Disk.makeDirectories path)
  openFile (path.join fileName) .inMemory

/-- The tables of a connection. -/
def tables (w : Workspace) (source : Source) : Except Fault Tables :=
  match source with
  | .memory tables => .ok tables
  | .file location =>
    match w.disk.file? location with
    | some (.database catalog) =>
      match catalog.tables? with
      | some tables => .ok tables
      | none => .error (.storage "a table is missing")
    | _ => .error (.storage "file is not a database")

/-- The workspace after a connection was used. -/
def keep (w : Workspace) (number : Nat) (source : Source) (s : Store) : Workspace :=
  let (disk, source) := match source with
    | .memory _ => (w.disk, Source.memory s.tables)
    | .file location =>
      (w.disk.putFile location (.database s.tables.catalog), Source.file location)
  { w with
    disk := disk
    connections := w.connections.modify number fun c =>
      { c with source := source, poisoned := s.poisoned }
    metrics := s.metrics }

/-- Use a connection as a store. -/
def onConnection {α : Type} (number : Nat) (act : Action Store α) : Action Workspace α := do
  let w ← get
  match w.connections[number]? with
  | none => throw (.internal "no such connection")
  | some connection =>
    let tables ← Action.ofExcept (w.tables connection.source)
    let (answer, s) := act.run ⟨tables, connection.poisoned, w.now, w.metrics⟩
    set (w.keep number connection.source s)
    Action.ofExcept answer

/-- Create what is missing in the database of a connection, as on opening. -/
def initialiseSchema (number : Nat) : Action Workspace Unit := do
  let w ← get
  match w.connections[number]? with
  | none => throw (.internal "no such connection")
  | some connection =>
    match connection.source with
    | .memory _ => onConnection number Store.initialiseSchema
    | .file location =>
      if connection.poisoned then throw (.lock "connection mutex poisoned")
      let found ← Action.ofExcept
        ((w.disk.catalog location).mapError fun _ => .storage "file is not a database")
      let (answer, catalog) := Catalog.initialise.run found
      set { w with disk := w.disk.putFile location (.database catalog) }
      Action.ofExcept answer

/-- Write a file, also over that of a database. -/
def writeFile (path : Path) (content : FileContent) : Action Workspace Unit := do
  let w ← get
  onDisk (Disk.writeFile path content w.isLogged)

end Workspace

end Chronicle
