import AtomProbe.Files.Error

/-!
# `AtomProbe.Files.Storage`: reading and writing files

The conversions of this library need no more of a file system than the
four operations below.
-/

set_option autoImplicit false

namespace AtomProbe

/-- Operations on files. -/
class Storage (m : Type → Type) where
  /-- Whether there is a file or directory under the path. -/
  isPresent : String → m Bool
  /-- The content of the file under the path. -/
  read : String → m (Except FileError ByteArray)
  /-- Write a file, in place of an earlier one under the path. -/
  write : String → ByteArray → m (Except FileError Unit)
  /-- How many bytes the system gives for the file under the path. -/
  size : String → m (Except FileError Nat)

namespace Storage

variable {m n : Type → Type}

instance [MonadLift m n] [Storage m] : Storage n where
  isPresent path := liftM (isPresent path : m Bool)
  read path := liftM (read path : m (Except FileError ByteArray))
  write path content := liftM (write path content : m (Except FileError Unit))
  size path := liftM (size path : m (Except FileError Nat))

/-- The content as a text. -/
def decode (content : ByteArray) : Except FileError String :=
  match String.fromUTF8? content with
  | some text => .ok text
  | none => .error .notText

/-- The content of a file as a text. -/
def readText [Monad m] [Storage m] (path : String) : m (Except FileError String) := do
  return (← read path) >>= decode

/-- Write a text. -/
def writeText [Storage m] (path text : String) : m (Except FileError Unit) :=
  write path text.toUTF8

end Storage

end AtomProbe
