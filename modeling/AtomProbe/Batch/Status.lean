/-!
# `AtomProbe.Batch.Status`: the progress of a batch

Whoever watches a batch is told when an entry begins and when it is
finished. A batch stops once nobody listens.
-/

set_option autoImplicit false

namespace AtomProbe

/-- A message about an entry. -/
structure Status where
  /-- The part of the entry that is done, from zero to one. -/
  progress : Float32
  entry : UInt32
  deriving DecidableEq, Repr

namespace Status

/-- The entry begins. -/
def begun (entry : UInt32) : Status := ⟨Float32.ofNat 0, entry⟩

/-- The entry is finished. -/
def finished (entry : UInt32) : Status := ⟨Float32.ofNat 1, entry⟩

/-- Whether the whole of the entry is done. -/
def isFinished (s : Status) : Bool := Float32.ofNat 1 ≤ s.progress

end Status

/-- Who watches a batch. -/
class Listener (m : Type → Type) where
  /-- Send a message. It is lost if nobody listens. -/
  send : Status → m Bool

instance {m n : Type → Type} [MonadLift m n] [Listener m] : Listener n where
  send status := liftM (Listener.send status : m Bool)

/-- Messages that were received, up to the point where the receiver
stops to listen. -/
structure Receiver where
  /-- How many messages more can be sent before the receiver is gone, if
  it goes. -/
  left : Option Nat
  /-- The messages, the latest first. -/
  received : List Status

namespace Receiver

/-- A receiver that listens to the end. -/
def patient : Receiver := ⟨none, []⟩

/-- A receiver that stops after `n` messages. -/
def upTo (n : Nat) : Receiver := ⟨some n, []⟩

/-- Receive a message, if the receiver still listens. What is counted are
the messages that can be sent before the receiver is gone, since the channel
keeps those that the receiver has not taken yet. -/
def receive (r : Receiver) (status : Status) : Bool × Receiver :=
  match r.left with
  | none => (true, { r with received := status :: r.received })
  | some 0 => (false, r)
  | some (n + 1) => (true, ⟨some n, status :: r.received⟩)

/-- The messages in order. -/
def messages (r : Receiver) : List Status := r.received.reverse

end Receiver

end AtomProbe
