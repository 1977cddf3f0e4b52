import AtomProbe.Batch
import AtomProbe.CommandLine

/-!
# `AtomProbe.Program`: the program as a whole

The program reports what it does in a log file, which it makes anew. A
failure is reported there; the exit status only says whether the
arguments were understood.
-/

set_option autoImplicit false

namespace AtomProbe.Program

/-- The path of the log file. -/
def logPath : String := "./apm_mapper.log"

variable {m : Type → Type} [Monad m] [Storage m] [Journal m] [Listener m]

/-- Make a template configuration. -/
def create (path : String) : m Unit := do
  Journal.info s!"Making a template config at {path}..."
  match ← (Config.placeholder.write path).run with
  | .ok () => Journal.info "Done."
  | .error e => Journal.error s!"Could not create template config file: {e.message}"

/-- Convert the entries, and say how it ended. -/
def mapAll (config : Config) : m Unit := do
  match ← (Batch.run config).run with
  | .ok () => Journal.info "Successfully mapped all entries!"
  | .error e => Journal.error s!"Mapping failed with error: {e.message}"
  Journal.info "Done."

/-- Convert the entries, once it is settled whether details are kept. -/
def mapLogged (hasLog : Bool) (config : Config) : m Unit := do
  if hasLog then Journal.info s!"Logging to {logPath} while mapping..."
  mapAll config

/-- Convert the entries of a valid configuration. -/
def convertAll (hasLog isVerbose : Bool) (config : Config) : m Unit := do
  Journal.info "Config successfully loaded."
  Journal.info s!"Output Path: {config.output}"
  Journal.info s!"Number of Entries: {config.entries.length}"
  if isVerbose || config.isVerbose then Journal.keepDetails
  mapLogged hasLog config

/-- Convert the entries of the configuration under a path. -/
def convert (hasLog isVerbose : Bool) (path : String) : m Unit := do
  Journal.info s!"Loading config from {path}..."
  match ← (Config.read path).run with
  | .error e => Journal.error e.message
  | .ok config =>
    match config.validate with
    | .error e => Journal.error e.message
    | .ok () => convertAll hasLog isVerbose config

/-- The report of a lacking path. -/
def pathRequired : String := "A configuration path is required"

/-- Convert what lies under a path, if one is given. -/
def convertGiven (hasLog isVerbose : Bool) : Option String → m Unit
  | none => Journal.error pathRequired
  | some path => convert hasLog isVerbose path

/-- Make a template configuration, if a path is given for it. -/
def createGiven : Option String → m Unit
  | none => Journal.error pathRequired
  | some path => create path

/-- Make the log file. The program goes on without it if that fails. -/
def openLog : m Bool := do
  return (← Storage.writeText logPath "").isOk

/-- Do what the arguments ask for, and give the exit status. -/
def run (arguments : List String) : m UInt32 := do
  match CommandLine.parse arguments with
  | .refused => return 2
  | .help => return 0
  | .create path => do
    let _ ← openLog
    createGiven path
    return 0
  | .convert path isVerbose => do
    let hasLog ← openLog
    convertGiven hasLog isVerbose path
    return 0

end AtomProbe.Program
