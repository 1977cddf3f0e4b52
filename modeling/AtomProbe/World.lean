import AtomProbe.Batch.Status
import AtomProbe.Files.Tree
import AtomProbe.Journal

/-!
# `AtomProbe.World`: runs as functions

Everything that a run can see and change is a value: the files, the
journal and the receiver of messages. Run on a world, a conversion is a
function, about which facts can be stated.
-/

set_option autoImplicit false

namespace AtomProbe

/-- What a run can see and change. -/
structure World where
  files : FileTree
  /-- The records, the latest first. -/
  records : List Record
  /-- Whether details are kept. -/
  keepsDetails : Bool
  receiver : Receiver

namespace World

/-- A world with the given files, an empty journal and a receiver that
listens to the end. -/
def ofFiles (files : FileTree) : World := ⟨files, [], false, .patient⟩

/-- The world with one more record, if records of its level are kept. -/
def report (w : World) (r : Record) : World :=
  if r.level = .detail ∧ ¬ w.keepsDetails then w else { w with records := r :: w.records }

/-- The records in order. -/
def journal (w : World) : List Record := w.records.reverse

instance : Storage (StateM World) where
  isPresent path := do return (← get).files.isPresent path
  read path := do return (← get).files.read path
  write path content := do
    match (← get).files.write path content with
    | .error e => return .error e
    | .ok files => do
      modify fun w => { w with files := files }
      return .ok ()
  size path := do return (← get).files.size path

instance : Journal (StateM World) where
  report r := modify (·.report r)
  keepDetails := modify fun w => { w with keepsDetails := true }

instance : Listener (StateM World) where
  send status := do
    let (isReceived, receiver) := (← get).receiver.receive status
    modify fun w => { w with receiver := receiver }
    return isReceived

end World

end AtomProbe
