import AtomProbe.Digest.Sha256
import AtomProbe.Mapping
import AtomProbe.Metadata.Load

/-!
# `AtomProbe.Source.Step`: what a source does to a template

A source of metadata is converted step by step: tables are applied to
stores, and checksums of files are taken. A step that fails ends the
conversion; what the steps before it wrote stays in the template.
-/

set_option autoImplicit false

namespace AtomProbe

/-- Why the conversion of a source ends early. -/
inductive SourceError
  | metadata (cause : MetadataError)
  | mapping (cause : MappingError)
  | checksum (path : String) (cause : FileError)
  deriving DecidableEq, Repr

/-- The wording of an error. -/
def SourceError.message : SourceError → String
  | .metadata cause => "Parser failed due to Metadata error: " ++ cause.message
  | .mapping cause => "Parser failed due to Mapping error: " ++ cause.message
  | .checksum path cause =>
    "Parser failed to compute the checksum of " ++ Text.quoted path ++
      " due to IO error: " ++ cause.message

/-- The identifier under which an entry is written. They begin at one. -/
def entryNumber (id : UInt32) : UInt32 := if id = 0 then 1 else id

namespace Source

/-- A step of a conversion. -/
inductive Step
  | report (r : Record)
  | apply (table : Table) (store : Store) (ids : List UInt32)
  /-- Write the checksum of the file that the text under a key names. -/
  | checksum (target : String) (ids : List UInt32) (key path : String)

/-- A conversion: it may fail, and changes a template. -/
abbrev Conversion (m : Type → Type) := ExceptT SourceError (StateT Template m)

/-- Identifiers in a report. -/
def showIds (ids : List UInt32) : String :=
  "[" ++ ", ".intercalate (ids.map fun id => toString id.toNat) ++ "]"

/-- The report of a table that was applied. -/
def summary (table : Table) (ids : List UInt32) (outcomes : List Outcome) : String :=
  let written := outcomes.countP Outcome.isWritten
  s!"Mapping {table.name} with identifier {showIds ids}: {written} written, " ++
    s!"{outcomes.length - written} skipped"

variable {m : Type → Type} [Monad m] [Storage m] [Journal m]

/-- Write the checksum of a file under a path. -/
def writeChecksum (target : String) (ids : List UInt32) (key path : String) :
    Conversion m Unit := do
  if ← Storage.isPresent path then
    match ← ExceptT.lift (Storage.read path) with
    | .error e => throw (.checksum path e)
    | .ok content =>
      match VariadicPath.resolve? target ids with
      | none => return
      | some resolved => do
        let digest := Digest.ofContent content
        Journal.detail s!"Checksum of {path}: {digest}"
        modify fun (template : Template) => template.insert resolved (.text digest)
  else Journal.warn s!"Workflow file {path} does not exist, no checksum written for {key}"

/-- Apply a table. -/
def applyTable (table : Table) (store : Store) (ids : List UInt32) : Conversion m Unit := do
  let (template, result) := table.apply store ids (← get)
  -- what was written before a failure stays
  set template
  match result with
  | .error e => throw (.mapping e)
  | .ok outcomes => Journal.detail (summary table ids outcomes)

/-- Do a step. -/
def Step.run : Step → Conversion m Unit
  | .report r => Journal.report r
  | .apply table store ids => applyTable table store ids
  | .checksum target ids key path => writeChecksum target ids key path

/-- Do steps in order. -/
def runAll : List Step → Conversion m Unit
  | [] => return
  | step :: steps => do
    step.run
    runAll steps

end Source

end AtomProbe
