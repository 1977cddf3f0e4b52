import AtomProbe.Source.Input

/-!
# `AtomProbe.Entry`: the inputs of a measurement

An entry of a batch names its inputs, each of which may be missing. Its
template is filled in a fixed order: the application definition, the
configuration of the facility, the notebook, the metadata of the vendor.
What comes later takes precedence.
-/

set_option autoImplicit false

namespace AtomProbe

/-- An entry: its identifier and the paths of its inputs. -/
structure Entry where
  id : UInt32
  notebook : Option String
  deployment : Option String
  vendor : Option String
  deriving DecidableEq, Repr

namespace Entry

open Source

/-- The inputs of an entry in the order in which they are converted. -/
def inputs (entry : Entry) : List (Input × String) :=
  (entry.deployment.map fun path => (Input.deployment, path)).toList ++
    (entry.notebook.map fun path => (Input.notebook, path)).toList ++
    (entry.vendor.map fun path => (Input.vendor, path)).toList

variable {m : Type → Type} [Monad m] [Storage m] [Journal m]

/-- Convert inputs in order. -/
def convertAll (id : UInt32) : List (Input × String) → Conversion m Unit
  | [] => return
  | (input, path) :: more => do
    input.convert path id
    convertAll id more

/-- Fill a template with what is known about an entry. -/
def fill (entry : Entry) : Conversion m Unit := do
  runAll (definitionSteps entry.id)
  convertAll entry.id entry.inputs

/-- The template of an entry. -/
def template (entry : Entry) : ExceptT SourceError m Template := do
  let (result, template) ← ExceptT.lift ((entry.fill (m := m)).run.run .empty)
  match result with
  | .ok () => return template
  | .error e => throw e

end Entry

end AtomProbe
