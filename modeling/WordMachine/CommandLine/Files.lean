import WordMachine.CommandLine.Path

/-!
# Files

The access to files that a tool needs, and a tree of files in memory that grants it. Paths in the
tree are relative to its root, and nothing is outside of it.
-/

namespace WordMachine

class FileAccess (m : Type → Type) where
  /-- The content of a file, if it can be read as text. -/
  read? (path : String) : m (Option String)
  /-- Creates a directory with those that it stands in; whether the directory is there now. -/
  makeDirectory (path : String) : m Bool
  /-- Creates or replaces a file; whether that was possible. -/
  write (path content : String) : m Bool

/-- Files and directories, by the names on the way to them from the root. -/
structure FileTree where
  files : List (List (List Char) × String) := []
  /-- The directories that need not hold a file. -/
  directories : List (List (List Char)) := []

namespace FileTree

def content? (t : FileTree) (location : List (List Char)) : Option String :=
  t.files.lookup location

/-- Whether a location is a directory: the root, one that was made, or the place of a file. -/
def isDirectory (t : FileTree) (location : List (List Char)) : Bool :=
  location.isEmpty || t.directories.contains location ||
    t.files.any fun (file, _) => location.isPrefixOf file && location != file

/-- Follows one component from a location, which has to be a directory. -/
def enter? (t : FileTree) (location : List (List Char)) (component : List Char) :
    Option (List (List Char)) :=
  if !t.isDirectory location then none
  else if Path.isTrivial component then some location
  else if component = ['.', '.'] then
    if location.isEmpty then none else some location.dropLast
  else some (location ++ [component])

/-- The location of a path. Every component but the last has to lead to a directory. -/
def locate? (t : FileTree) (path : String) : Option (List (List Char)) :=
  if path.startsWith "/" then none else (Path.components path).foldlM t.enter? []

def read? (t : FileTree) (path : String) : Option String :=
  t.locate? path >>= t.content?

def put (t : FileTree) (location : List (List Char)) (content : String) : FileTree :=
  { t with files := (location, content) :: t.files.filter (·.1 != location) }

/-- Creates or replaces the file with a path. -/
def write? (t : FileTree) (path content : String) : Option FileTree := do
  let location ← t.locate? path
  if t.isDirectory location then none else some (t.put location content)

/-- Follows one component and makes it a directory if nothing is there. -/
def enterOrMake? (at? : FileTree × List (List Char)) (component : List Char) :
    Option (FileTree × List (List Char)) := do
  let (t, location) := at?
  let next ← t.enter? location component
  if t.isDirectory next then some (t, next)
  else if (t.content? next).isSome then none
  else some ({ t with directories := next :: t.directories }, next)

/-- Creates the directory with a path and those that it stands in. -/
def makeDirectory? (t : FileTree) (path : String) : Option FileTree :=
  if path.startsWith "/" then none
  else ((Path.components path).foldlM enterOrMake? (t, [])).map (·.1)

end FileTree

/-- Tools that work on a tree of files in memory. -/
abbrev OnFiles := StateM FileTree

instance : FileAccess OnFiles where
  read? path := do return (← get).read? path
  makeDirectory path := do
    match (← get).makeDirectory? path with
    | some t => set t; return true
    | none => return false
  write path content := do
    match (← get).write? path content with
    | some t => set t; return true
    | none => return false

end WordMachine
