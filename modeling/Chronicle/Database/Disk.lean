import Chronicle.Action
import Chronicle.Database.Path
import Chronicle.Store.Schema

/-!
# Disks

The directory in which databases are kept, called the root here: further
directories, and files that hold a text or a database.

A path is followed from the root, part by part: each name on the way must be
that of a directory, also where the next part is `..` and leaves it again. The
storage engine instead works the location of its file out of the path alone.
-/

namespace Chronicle

/-- Where something is: the names that lead to it from the root. What lies
above the root is reached by `..` only. -/
abbrev Location := List String

namespace Location

/-- The directories that the root lies in, and the root. -/
def isAbove (l : Location) : Bool := l.all (· = "..")

/-- The directory that a location is in. -/
def up (l : Location) : Location := if isAbove l then ".." :: l else l.dropLast

/-- The location that a path has if all its names are those of directories. -/
def ofPath (path : Path) : Location :=
  path.parts.foldl (fun here part =>
    if Path.isIdle part then here else if part = ".." then up here else here ++ [part]) []

end Location

/-- What a file holds. -/
inductive FileContent where
  | text (content : String)
  | database (catalog : Catalog)

/-- The directories and files of a disk. -/
structure Disk where
  /-- The length of the root's own full name, in bytes. -/
  rootSize : Nat
  directories : List Location
  files : List (Location × FileContent)

namespace Disk

def empty (rootSize : Nat) : Disk := ⟨rootSize, [], []⟩

/-- The longest full name that a file or directory is looked up by, in bytes. -/
def pathLimit : Nat := 4095

/-- The longest name of a file or directory, in bytes. -/
def nameLimit : Nat := 255

/-- The longest full name of a database file, in bytes. -/
def databaseLimit : Nat := 504

def hasDirectory (d : Disk) (l : Location) : Bool :=
  Location.isAbove l || d.directories.contains l

def file? (d : Disk) (l : Location) : Option FileContent :=
  (d.files.find? (·.1 = l)).map (·.2)

/-- Put a file in the place of one with its location. -/
def putFile (d : Disk) (l : Location) (content : FileContent) : Disk :=
  { d with files := (l, content) :: d.files.filter (·.1 ≠ l) }

/-- A path that can be looked up at all. -/
def admits (d : Disk) (path : Path) : Bool :=
  d.rootSize + 1 + path.spelled.utf8ByteSize ≤ pathLimit && !path.spelled.contains '\x00'

/-- Where one part of a path leads from a directory. -/
def enter? (d : Disk) (here : Location) (part : String) : Option Location :=
  if Path.isIdle part then some here
  else if part = ".." then some (Location.up here)
  else if d.hasDirectory (here ++ [part]) then some (here ++ [part])
  else none

/-- The directory that a path leads to. -/
def directory? (d : Disk) (path : Path) : Option Location := path.parts.foldlM d.enter? []

/-- Where a path that ends in a name puts a file or directory of that name. -/
def place? (d : Disk) (path : Path) : Option Location :=
  match path.split? with
  | some (before, name) =>
    if name.utf8ByteSize ≤ nameLimit then (d.directory? before).map (· ++ [name]) else none
  | none => none

/-- The answer to a path that leads nowhere. -/
def noWay {α : Type} : Action Disk α := throw (.io "no such file or directory")

/-- Make the directory that a path leads to, unless it is there. -/
def makeDirectory (path : Path) : Action Disk Unit := do
  let d ← get
  if (d.directory? path).isSome then return
  match d.place? path.unslashed with
  | some l =>
    if (d.file? l).isSome then noWay else set { d with directories := l :: d.directories }
  | none => noWay

/-- Make the directory that a path leads to and those it goes through. Those
that were made before one could not be made stay. -/
def makeDirectories (path : Path) : Action Disk Unit := do
  if (← get).admits path then path.ways.forM makeDirectory else noWay

/-- Write a file into a directory that is there. A file that is guarded stays as
it was. -/
def writeFile (path : Path) (content : FileContent) (guarded : Location → Bool) :
    Action Disk Unit := do
  let d ← get
  match if d.admits path then d.place? path else none with
  | some l =>
    if d.hasDirectory l then noWay
    else if !guarded l then set (d.putFile l content)
  | none => noWay

/-- The location of a database file. -/
def databaseFile? (d : Disk) (path : Path) : Option Location :=
  let l := Location.ofPath path
  let fits := d.rootSize + 1 + ("/".intercalate l).utf8ByteSize ≤ databaseLimit &&
    l.all (·.utf8ByteSize ≤ nameLimit) && !path.spelled.contains '\x00'
  if fits && !d.hasDirectory l && d.hasDirectory (Location.up l) then some l else none

/-- There is no file at a location, or an empty one. -/
def isNew (d : Disk) (l : Location) : Bool :=
  match d.file? l with
  | none => true
  | some (.text content) => content = ""
  | some (.database _) => false

/-- The database at a location. A file that is not there or is empty becomes
one without tables. -/
def catalog (d : Disk) (l : Location) : Except Fault Catalog :=
  match d.file? l with
  | none => .ok .empty
  | some (.database catalog) => .ok catalog
  | some (.text content) =>
    if content = "" then .ok .empty else .error (.config "file is not a database")

end Disk

end Chronicle
