import AtomProbe.Yaml.Token

/-!
# `AtomProbe.Yaml.Node`: the nodes of a document

A node is a scalar, a sequence or a mapping, or an alias in the place of
an earlier node. What an alias refers to is a parameter of the type:
first the name of an anchor, later the number of a place.
-/

set_option autoImplicit false

namespace AtomProbe.Yaml

/-- What may stand before a node: a name for aliases and a tag. -/
structure Properties where
  anchor : Option String
  tag : Option Tag
  deriving DecidableEq, Repr

/-- A node whose aliases refer to a `ρ`. -/
inductive Node (ρ : Type) where
  | alias (target : ρ)
  | scalar (properties : Properties) (style : ScalarStyle) (text : String)
  | sequence (properties : Properties) (items : List (Node ρ))
  | mapping (properties : Properties) (pairs : List (Node ρ × Node ρ))
  deriving Repr

namespace Properties

/-- No anchor and no tag. -/
def none : Properties := ⟨.none, .none⟩

/-- Whether an anchor or a tag is given. -/
def isSome (p : Properties) : Bool := p.anchor.isSome || p.tag.isSome

end Properties

namespace Node

variable {ρ : Type}

/-- The node that stands where nothing is written. -/
def missing : Node ρ := .scalar .none .plain ""

instance : Inhabited (Node ρ) := ⟨missing⟩

mutual

/-- The size of a node: one for a scalar or an alias, and two for a
collection besides its content. -/
def size : Node ρ → Nat
  | .alias _ => 1
  | .scalar .. => 1
  | .sequence _ items => 2 + sizeOfItems items
  | .mapping _ pairs => 2 + sizeOfPairs pairs

/-- The size of the items of a sequence. -/
def sizeOfItems : List (Node ρ) → Nat
  | [] => 0
  | item :: items => item.size + sizeOfItems items

/-- The size of the pairs of a mapping. -/
def sizeOfPairs : List (Node ρ × Node ρ) → Nat
  | [] => 0
  | (key, value) :: pairs => key.size + value.size + sizeOfPairs pairs

end

end Node

end AtomProbe.Yaml
