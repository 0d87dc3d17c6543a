/-!
# Paths

A path is kept as it is written, since it is shown that way: `x/./y` and `x//y`
lead to one place and are two paths. Only at the ends of a path, parts that
lead nowhere are left out when it is shown.
-/

namespace Chronicle

/-- A path as the parts between its slashes. A part is the name of a file or
directory, `..` for the directory above, or leads nowhere. -/
structure Path where
  parts : List String
  deriving DecidableEq

namespace Path

def ofText (text : String) : Path := ⟨text.splitOn "/"⟩

def spelled (path : Path) : String := "/".intercalate path.parts

/-- A part that leads nowhere. -/
def isIdle (part : String) : Bool := part = "" || part = "."

/-- A part that names a file or directory. -/
def isName (part : String) : Bool := !isIdle part && part ≠ ".."

/-- The path without the idle parts at its ends. -/
def trimmed (path : Path) : Path :=
  ⟨((path.parts.dropWhile isIdle).reverse.dropWhile isIdle).reverse⟩

/-- The path as it is shown. -/
def text (path : Path) : String := path.trimmed.spelled

/-- The path to a name in the directory that a path leads to. A slash at the
end of the path is not doubled. -/
def join (path : Path) (name : String) : Path :=
  if path.parts.getLast? = some "" then ⟨path.parts.dropLast ++ [name]⟩
  else ⟨path.parts ++ [name]⟩

/-- The path less its last part, whatever that part is. A path that leads
nowhere has the directory above for its parent. -/
def parent (path : Path) : Path :=
  match path.trimmed.parts with
  | [] => ⟨[".."]⟩
  | parts => ⟨parts.dropLast⟩

/-- The path without slashes at its end. -/
def unslashed (path : Path) : Path := ⟨(path.parts.reverse.dropWhile (· = "")).reverse⟩

/-- A path that ends in a name, as the path to that name's directory and the
name. -/
def split? (path : Path) : Option (Path × String) :=
  match path.parts.getLast? with
  | some name => if isName name then some (⟨path.parts.dropLast⟩, name) else none
  | none => none

/-- The directories that a path goes through, from the first to the one it
leads to. -/
def ways (path : Path) : List Path :=
  let before := path.parent.parts
  (List.range before.length).map (fun n => ⟨before.take (n + 1)⟩) ++ [path]

end Path

end Chronicle
