/-!
# `AtomProbe.Files.Error`: why a file cannot be used
-/

set_option autoImplicit false

namespace AtomProbe

/-- The causes for which a file cannot be read or written. -/
inductive FileError
  | notFound
  | notADirectory
  | isADirectory
  | nameTooLong
  /-- The path holds the character zero. -/
  | zeroInPath
  /-- The content is no text. -/
  | notText
  /-- Another cause that the system reports. -/
  | other (description : String)
  deriving DecidableEq, Repr

/-- The wording of an error. -/
def FileError.message : FileError → String
  | .notFound => "No such file or directory (os error 2)"
  | .notADirectory => "Not a directory (os error 20)"
  | .isADirectory => "Is a directory (os error 21)"
  | .nameTooLong => "File name too long (os error 36)"
  | .zeroInPath => "file name contained an unexpected NUL byte"
  | .notText => "stream did not contain valid UTF-8"
  | .other description => description

end AtomProbe
