import AtomProbe.Files.Storage

/-!
# `AtomProbe.Files.Tree`: a file system as a value

A tree knows what lies at each location. A path is followed name by
name from the working directory, or from the root if it is absolute;
each name but the last must be that of a directory. A path that ends
with a slash must be that of a directory.

Left out are links, so that each file has one location, the permissions
of files, and writes that are half done: a file is written as a whole or
stays as it was.
-/

set_option autoImplicit false

namespace AtomProbe

/-- A location: the names from the innermost to the root. -/
abbrev Location := List String

/-- What lies at a location. -/
inductive FileEntry
  | file (content : ByteArray)
  | directory
  /-- A device that swallows what is written and is always empty. -/
  | sink

/-- What lies where. -/
structure FileTree where
  workingDirectory : Location
  /-- The entries of the tree; an earlier one counts before a later one
  at the same location. -/
  entries : List (Location × FileEntry)

namespace FileTree

/-- What lies at a location. -/
def at? (t : FileTree) (location : Location) : Option FileEntry :=
  if location = [] then some .directory else t.entries.lookup location

/-- Put an entry at a location. -/
def set (t : FileTree) (location : Location) (entry : FileEntry) : FileTree :=
  { t with entries := (location, entry) :: t.entries.filter (·.1 != location) }

/-! ### Following a path -/

/-- The most bytes of a name. -/
def maximalName : Nat := 255

/-- The bytes that a path must stay below. -/
def pathLimit : Nat := 4096

/-- Whether the location is that of a directory. -/
def requireDirectory (t : FileTree) (location : Location) : Except FileError Unit :=
  match t.at? location with
  | some .directory => .ok ()
  | some _ => .error .notADirectory
  | none => .error .notFound

/-- From a location to a name below it. -/
def enter (t : FileTree) (location : Location) (name : String) : Except FileError Location := do
  t.requireDirectory location
  if name = "" ∨ name = "." then return location
  else if name = ".." then return location.tail
  else if maximalName < name.utf8ByteSize then throw .nameTooLong
  else return name :: location

/-- The names between the slashes of a path. -/
def namesOf (path : String) : List String :=
  (path.toList.splitOn '/').map String.ofList

/-- Where a path begins. -/
def origin (t : FileTree) (path : String) : Location :=
  if path.toList.head? = some '/' then [] else t.workingDirectory

/-- Whether the path may be followed at all. -/
def checkPath (path : String) : Except FileError Unit :=
  if path.toList.contains '\x00' then .error .zeroInPath
  else if path = "" then .error .notFound
  else if pathLimit ≤ path.utf8ByteSize then .error .nameTooLong
  else .ok ()

/-- The location that a path leads to. -/
def follow (t : FileTree) (path : String) : Except FileError Location := do
  checkPath path
  (namesOf path).foldlM t.enter (t.origin path)

/-- What a path leads to. -/
def find (t : FileTree) (path : String) : Except FileError FileEntry := do
  match t.at? (← t.follow path) with
  | some entry => return entry
  | none => throw .notFound

/-- The location at which a path may create a file. A path that ends
with a slash or with dots can only be that of a directory. -/
def place (t : FileTree) (path : String) : Except FileError Location := do
  checkPath path
  let names := namesOf path
  -- slashes at the end follow the last name, but are no names
  match names.reverse.dropWhile (· == "") with
  | [] => throw .isADirectory
  | last :: before => do
    let above ← before.reverse.foldlM t.enter (t.origin path)
    t.requireDirectory above
    if names.getLast? = some "" ∨ last = "." ∨ last = ".." then throw .isADirectory
    t.enter above last

/-! ### Reading and writing -/

/-- The content of the file that a path leads to. -/
def read (t : FileTree) (path : String) : Except FileError ByteArray := do
  match ← t.find path with
  | .file content => return content
  | .sink => return .empty
  | .directory => throw .isADirectory

/-- Write a file. -/
def write (t : FileTree) (path : String) (content : ByteArray) : Except FileError FileTree := do
  let location ← t.place path
  match t.at? location with
  | some .directory => throw .isADirectory
  | some .sink => return t
  | some (.file _) => return t.set location (.file content)
  | none => return t.set location (.file content)

/-- Whether a path leads to something. -/
def isPresent (t : FileTree) (path : String) : Bool :=
  (t.find path).isOk

/-- How many bytes the file has that a path leads to. A device has none,
and the size of a directory is not known. -/
def size (t : FileTree) (path : String) : Except FileError Nat := do
  return (← t.read path).size

end FileTree

end AtomProbe
