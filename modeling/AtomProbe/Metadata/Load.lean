import AtomProbe.Files.Path
import AtomProbe.Files.Storage
import AtomProbe.Journal
import AtomProbe.Metadata.Flatten
import AtomProbe.Text.ByteSize
import AtomProbe.Text.Quoted

/-!
# `AtomProbe.Metadata.Load`: stores from files

An input whose name shows another kind of content, or that does not
exist, is passed over with a warning. A file that is there but cannot be
read is an error.
-/

set_option autoImplicit false

namespace AtomProbe

/-- Why no store can be made of a file. -/
inductive MetadataError
  | missingFile (path : String)
  | file (cause : FileError)
  | document (cause : Yaml.Error)
  /-- The document is neither empty nor a mapping. -/
  | rootNotMapping
  deriving DecidableEq, Repr

/-- The wording of an error. -/
def MetadataError.message : MetadataError → String
  | .missingFile path =>
    "Failed to load metadata as file " ++ Text.quoted path ++ " does not exist"
  | .file cause => "Metadata failed due to IO error: " ++ cause.message
  | .document cause => "Metadata failed to parse YAML: " ++ cause.message
  | .rootNotMapping => "Metadata expected a YAML mapping at the document root"

namespace Store

/-- The value that a text stands for. -/
def parse (text : String) : Except MetadataError Yaml.Value :=
  (Yaml.Value.ofText text).mapError .document

/-- The store of a document. -/
def ofValue (value : Yaml.Value) : Except MetadataError Store :=
  match ofValue? value with
  | some store => .ok store
  | none => .error .rootNotMapping

/-- The store that a text stands for. -/
def ofText (text : String) : Except MetadataError Store :=
  parse text >>= ofValue

/-- The report of a pair that is left out. -/
def skippedText (above : String) : String :=
  "Skipping metadata with a non-scalar key below " ++ Text.quoted above

variable {m : Type → Type} [Monad m] [Storage m] [Journal m]

/-- The store of a file, and the size of the file. -/
def readSized (path : String) : ExceptT MetadataError m (Store × Nat) := do
  if !(← Storage.isPresent path) then throw (.missingFile path)
  let content ← ExceptT.lift (Storage.readText path)
  let text ← liftExcept (content.mapError MetadataError.file)
  let value ← liftExcept (parse text)
  for above in skipped value do
    Journal.detail (skippedText above)
  return (← liftExcept (ofValue value), text.utf8ByteSize)

/-- The store of a file. -/
def read (path : String) : ExceptT MetadataError m Store :=
  Prod.fst <$> readSized path

/-- Whether the name of a file ends with one of the accepted endings. -/
def isAccepted (endings : List String) (path : String) : Bool :=
  let name := ((Path.fileName? path).getD "").toList
  endings.any fun ending => ending.toList.isSuffixOf name

/-- The store of an input, unless it is passed over. -/
def load (endings : List String) (path : String) : ExceptT MetadataError m (Option Store) := do
  if isAccepted endings path then
    match ← ExceptT.lift (readSized path).run with
    | .ok (store, size) => do
      Journal.info s!"Extracted {store.size} keys from {path} ({Text.byteSize size})"
      for (key, value) in store.toList do
        Journal.detail s!"key: {key}, value: {value.display}"
      return some store
    -- an input that does not exist is no failure, all else is
    | .error (.missingFile missing) => do
      Journal.warn s!"File {missing} not found, skipping"
      return none
    | .error e => throw e
  else do
    Journal.warn <| path ++ " is not an accepted input (expected a name ending in " ++
      " or ".intercalate endings ++ "), skipping"
    return none

end Store

end AtomProbe
