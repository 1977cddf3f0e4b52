/-!
# `AtomProbe.Files.Path`: file paths as texts

A path is kept as it was written, since messages show it so. Its names
stand between slashes; empty names and names of a single dot inside of a
path and at its end do not count.
-/

set_option autoImplicit false

namespace AtomProbe.Path

/-- The characters of a path in reverse order, without the slashes and
single dots behind its last name. -/
def trimEnd : List Char → List Char
  | ['/'] => ['/']
  | '/' :: cs => trimEnd cs
  | '.' :: cs@('/' :: _) => trimEnd cs
  | cs => cs

/-- Whether a path begins at the root. -/
def isAbsolute (path : String) : Bool :=
  path.toList.head? == some '/'

/-- The last name of a path, if it ends with a name. -/
def fileName? (path : String) : Option String :=
  let name := ((trimEnd path.toList.reverse).takeWhile (· != '/')).reverse
  if name = [] ∨ name = ['.'] ∨ name = ['.', '.'] then none else some (String.ofList name)

/-- The path without its last name. The root and the empty path have
none. -/
def parent? (path : String) : Option String :=
  let trimmed := trimEnd path.toList.reverse
  if trimmed = [] ∨ trimmed = ['/'] then none
  else some (String.ofList (trimEnd (trimmed.dropWhile (· != '/'))).reverse)

/-- A path seen from a directory. An absolute path stays as it is. -/
def join (directory path : String) : String :=
  if isAbsolute path ∨ directory = "" then path
  else if directory.toList.getLast? = some '/' then directory ++ path
  else directory ++ "/" ++ path

end AtomProbe.Path
