import AtomProbe.Entry
import AtomProbe.Yaml.Tree

/-!
# `AtomProbe.Config`: what a batch is to do

A configuration names the directory for the templates and lists the
entries. It is valid if there are entries, and if their identifiers
begin at one and differ.
-/

set_option autoImplicit false

namespace AtomProbe

/-- A configuration. -/
structure Config where
  /-- The directory for the templates. -/
  output : String
  isVerbose : Bool
  entries : List Entry
  deriving DecidableEq, Repr

/-- Why a configuration cannot be used. -/
inductive ConfigError
  | missingFile (path : String)
  | file (cause : FileError)
  | document (cause : Yaml.Error)
  | noEntries
  | invalidId (id : UInt32)
  | duplicateId (id : UInt32)
  deriving DecidableEq, Repr

/-- The wording of an error. -/
def ConfigError.message : ConfigError → String
  | .missingFile path =>
    "Failed to load configuration as file " ++ Text.quoted path ++ " does not exist"
  | .file cause => "Config failed due to IO error: " ++ cause.message
  | .document cause => "Config failed to parse YAML: " ++ cause.message
  | .noEntries => "Config does not list any entries to process"
  | .invalidId id =>
    s!"Config contains invalid entry id {id.toNat}; entry ids start at 1"
  | .duplicateId id => s!"Config lists entry id {id.toNat} more than once"

namespace Config

/-- An example to be filled out. -/
def placeholder : Config where
  output := "None"
  isVerbose := false
  entries := [⟨1, some "None.eln_data.yaml", some "None.oasis.specific.yaml", none⟩]

/-! ### Validity -/

/-- Check identifiers in order, where `seen` are those before. -/
def checkIds (seen : List UInt32) : List UInt32 → Except ConfigError Unit
  | [] => .ok ()
  | id :: ids =>
    if id = 0 then .error (.invalidId id)
    else if id ∈ seen then .error (.duplicateId id)
    else checkIds (id :: seen) ids

/-- Check that there is something to do and that the identifiers can be
used. -/
def validate (config : Config) : Except ConfigError Unit :=
  if config.entries.isEmpty then .error .noEntries
  else checkIds [] (config.entries.map (·.id))

/-! ### The document of a configuration -/

open Yaml (Tree)

/-- A path that may be missing. -/
def optionalPath : Option String → Tree
  | none => .word "null"
  | some path => .text path

/-- An entry as a part of a document. -/
def entryTree (entry : Entry) : Tree :=
  .mapping [
    ("entry_id", .word (toString entry.id.toNat)),
    ("eln_path", optionalPath entry.notebook),
    ("oasis_config_path", optionalPath entry.deployment),
    ("cameca_path", optionalPath entry.vendor)]

/-- The text of a configuration. -/
def document (config : Config) : String :=
  Tree.document [
    ("output_path", .text config.output),
    ("verbose", .word (if config.isVerbose then "true" else "false")),
    ("entries", .sequence (config.entries.map entryTree))]

/-! ### Files -/

/-- The digits of an identifier, four of them at least. -/
def entryDigits (id : UInt32) : String :=
  String.ofList (Calendar.padded 4 id.toNat)

/-- The path of the template of an entry. -/
def templatePath (config : Config) (id : UInt32) : String :=
  Path.join config.output ("entry_" ++ entryDigits id ++ ".yaml")

variable {m : Type → Type} [Monad m] [Storage m]

/-- The path of the template of an entry, if its directory exists. -/
def findTemplatePath (config : Config) (id : UInt32) : ExceptT ConfigError m String := do
  if ← Storage.isPresent config.output then return config.templatePath id
  else throw (.missingFile config.output)

/-- Write a configuration. -/
def write (config : Config) (path : String) : ExceptT ConfigError m Unit := do
  let result ← ExceptT.lift (Storage.writeText path config.document)
  liftExcept (result.mapError ConfigError.file)

end Config

end AtomProbe
