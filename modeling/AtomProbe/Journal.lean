/-!
# `AtomProbe.Journal`: what a run reports

A run reports what it does in records of four levels. The records of the
last level are only kept once they have been asked for.
-/

set_option autoImplicit false

namespace AtomProbe

/-- How much a record matters. -/
inductive Level
  | error
  | warning
  | info
  | detail
  deriving DecidableEq, Repr

/-- The name of a level in a log file. -/
def Level.name : Level → String
  | .error => "error"
  | .warning => "warn"
  | .info => "info"
  | .detail => "debug"

/-- A record. -/
structure Record where
  level : Level
  text : String
  deriving DecidableEq, Repr

/-- Where a run reports. -/
class Journal (m : Type → Type) where
  /-- Report a record. -/
  report : Record → m Unit
  /-- From now on keep the details as well. -/
  keepDetails : m Unit

namespace Journal

instance {m n : Type → Type} [MonadLift m n] [Journal m] : Journal n where
  report r := liftM (report r : m Unit)
  keepDetails := liftM (keepDetails : m Unit)

variable {m : Type → Type} [Journal m]

/-- Report an error. -/
def error (text : String) : m Unit := report ⟨.error, text⟩

/-- Report that something was passed over. -/
def warn (text : String) : m Unit := report ⟨.warning, text⟩

/-- Report a step. -/
def info (text : String) : m Unit := report ⟨.info, text⟩

/-- Report a detail. -/
def detail (text : String) : m Unit := report ⟨.detail, text⟩

end Journal

end AtomProbe
