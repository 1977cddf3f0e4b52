import AtomProbe.Batch.Status
import AtomProbe.Config.Reader
import AtomProbe.Template.Document

/-!
# `AtomProbe.Batch`: converting the entries of a configuration

The entries are converted in order, each into a file of its own. The
first failure ends the batch; the files of earlier entries stay.
-/

set_option autoImplicit false

namespace AtomProbe

/-- Why a template cannot be written. -/
inductive TemplateError
  | file (cause : FileError)
  deriving DecidableEq, Repr

/-- The wording of an error. -/
def TemplateError.message : TemplateError → String
  | .file cause => "Template failed due to IO error: " ++ cause.message

/-- Why a batch ends early. -/
inductive BatchError
  | config (cause : ConfigError)
  | source (cause : SourceError)
  | template (cause : TemplateError)
  /-- Nobody listens. -/
  | send
  deriving DecidableEq, Repr

/-- The wording of an error. -/
def BatchError.message : BatchError → String
  | .config cause => "Processor failed due to Config error: " ++ cause.message
  | .source cause => "Processor failed due to Parser error: " ++ cause.message
  | .template cause => "Processor failed due to Template error: " ++ cause.message
  | .send => "Processor failed due to Send error: sending on a closed channel"

variable {m : Type → Type} [Monad m]

/-- Write the document of a template. -/
def Template.writeFile [Storage m] (template : Template) (path : String) :
    ExceptT TemplateError m Unit := do
  let result ← ExceptT.lift (Storage.writeText path template.document)
  liftExcept (result.mapError TemplateError.file)

namespace Batch

/-- An action, with its error in another wording. -/
def within {α ε : Type} (wrap : ε → BatchError) (action : ExceptT ε m α) :
    ExceptT BatchError m α := do
  liftExcept ((← ExceptT.lift action.run).mapError wrap)

variable [Storage m] [Journal m] [Listener m]

/-- Send a message, which somebody must receive. -/
def send (status : Status) : ExceptT BatchError m Unit := do
  if !(← Listener.send status) then throw .send

/-- Convert an entry and write its template. -/
def convert (config : Config) (entry : Entry) : ExceptT BatchError m Unit := do
  Journal.info s!"Processing entry {entry.id.toNat}..."
  send (.begun entry.id)
  let path ← within .config (config.findTemplatePath entry.id)
  let template ← within .source entry.template
  within .template (template.writeFile path)
  let size ← Storage.size path
  let shown := Text.byteSize (size.toOption.getD 0)
  Journal.info s!"Wrote {template.size} paths to {path} ({shown})"
  send (.finished entry.id)
  Journal.info s!"Finished processing entry {entry.id.toNat}."

/-- Convert entries in order. -/
def convertAll (config : Config) : List Entry → ExceptT BatchError m Unit
  | [] => return
  | entry :: entries => do
    convert config entry
    convertAll config entries

/-- Convert the entries of a valid configuration. -/
def run (config : Config) : ExceptT BatchError m Unit := do
  within .config (liftExcept config.validate)
  convertAll config config.entries

end Batch

end AtomProbe
