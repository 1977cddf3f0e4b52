import AtomProbe.Source.Step
import AtomProbe.Vocabulary.ApplicationDefinition
import AtomProbe.Vocabulary.Deployment
import AtomProbe.Vocabulary.Notebook
import AtomProbe.Vocabulary.Vendor

/-!
# `AtomProbe.Source.Input`: the inputs of an entry

An entry has up to three inputs: the configuration of the facility, the
laboratory notebook and the metadata of the vendor. From the store of an
input follow the steps of its conversion. A store without keys has none.

Users and citations are numbered from one, without those that hold
nothing; laser sources are numbered by their places. A notebook names
the files of the workflow relative to its own directory.
-/

set_option autoImplicit false

namespace AtomProbe.Source

/-- The kinds of inputs. -/
inductive Input
  | notebook
  | deployment
  | vendor
  deriving DecidableEq, Repr

namespace Input

/-- The accepted endings of the names of files. -/
def endings : Input → List String
  | .notebook => ["eln_data.yaml", "eln_data.yml"]
  | .deployment => [".oasis.specific.yaml", ".oasis.specific.yml"]
  | .vendor => [".cameca"]

/-- The report before a file is read. -/
def announcement : Input → String
  | .notebook => "Extracting data from ELN file: "
  | .deployment => "Extracting data from deployment-specific configuration file: "
  | .vendor => "Extracting data from IVAS/APSuite file: "

end Input

/-- The steps that apply a table to records, numbered from one. -/
def numbered (id : UInt32) (steps : Store → List UInt32 → List Step) (records : List Store) :
    List Step :=
  (records.zipIdx 1).flatMap fun (record, n) => steps record [id, UInt32.ofNat n]

/-- The records that hold something. -/
def nonempty (records : List Store) : List Store :=
  records.filter (!·.isEmpty)

namespace Notebook

open Vocabulary

/-- The key of the users. -/
def userKey : String := "user"

/-- The key of the identifier of a user. -/
def userIdentifierKey : String := "orcid"

/-- The key of the mode of the pulser. -/
def pulseModeKey : String := "instrument/pulser/pulse_mode"

/-- The mode of a pulser without a laser. -/
def voltageMode : String := "voltage"

/-- The key of the laser sources. -/
def laserSourceKey : String := "instrument/pulser/laser_source"

/-- The steps for one user. -/
def userSteps (user : Store) (ids : List UInt32) : List Step :=
  .apply Vocabulary.user user ids ::
    if user.contains userIdentifierKey then [.apply userIdentifier user ids] else []

/-- The steps for the users. -/
def usersSteps (store : Store) (id : UInt32) : List Step :=
  match store.records? userKey with
  | none => []
  | some records =>
    let users := nonempty records
    numbered id userSteps users ++
      [.report ⟨.detail, s!"Parsed {users.length} user(s) for entry {id.toNat}"⟩]

/-- The steps for one laser source. -/
def laserSteps (laser : Store) (ids : List UInt32) : List Step :=
  [.apply laserSourceStatic laser ids, .apply laserSourceDynamic laser ids]

/-- The steps for the laser sources. With voltage pulses there are none. -/
def lasersSteps (store : Store) (id : UInt32) : List Step :=
  if store.text? pulseModeKey = some voltageMode then []
  else
    match store.records? laserSourceKey with
    | none => [.report ⟨.warning, "pulse_mode != voltage but no laser details specified!"⟩]
    | some lasers => numbered id laserSteps lasers

/-- The steps for the files of the workflow. -/
def workflowSteps (directory : String) (store : Store) (id : UInt32) : List Step :=
  workflowChecksums.filterMap fun (target, source) =>
    let key := workflowSource ++ "/" ++ source
    -- a value that is no text names no file
    (store.text? key).map fun name =>
      .checksum (workflowTarget ++ "/" ++ target) [id] key (Path.join directory name)

/-- The steps of a notebook in a directory. -/
def steps (directory : String) (store : Store) (id : UInt32) : List Step :=
  usersSteps store id ++ lasersSteps store id ++
    entryTables.map (fun table => .apply table store [id]) ++
    workflowSteps directory store id

end Notebook

namespace Deployment

open Vocabulary

/-- The key of the citations. -/
def citationKey : String := "citation"

/-- The steps of the configuration of a facility. -/
def steps (store : Store) (id : UInt32) : List Step :=
  .apply facilityInstrument store [id] :: .apply coordinateSystem store [id] ::
    match store.records? citationKey with
    | none => []
    | some records =>
      numbered id (fun record ids => [.apply citation record ids]) (nonempty records)

end Deployment

/-- The steps of an input whose file lies in a directory, for an entry. -/
def Input.steps (input : Input) (directory : String) (store : Store) (id : UInt32) : List Step :=
  let number := entryNumber id
  if store.isEmpty then []
  else
    match input with
    | .notebook => Notebook.steps directory store number
    | .deployment => Deployment.steps store number
    | .vendor => [.apply Vocabulary.vendor store [number]]

/-- The steps that need no input. -/
def definitionSteps (id : UInt32) : List Step :=
  [.apply Vocabulary.applicationDefinition .empty [entryNumber id]]

variable {m : Type → Type} [Monad m] [Storage m] [Journal m]

/-- Load an input. -/
def Input.load (input : Input) (path : String) : ExceptT SourceError m (Option Store) := do
  Journal.info (input.announcement ++ path)
  match ← ExceptT.lift (Store.load input.endings path).run with
  | .ok store => return store
  | .error e => throw (.metadata e)

/-- Convert the input under a path into a template. -/
def Input.convert (input : Input) (path : String) (id : UInt32) : Conversion m Unit := do
  match ← ExceptT.lift (liftM (input.load path : ExceptT SourceError m (Option Store)).run) with
  | .error e => throw e
  | .ok none => return
  | .ok (some store) => runAll (input.steps ((Path.parent? path).getD "") store id)

end AtomProbe.Source
