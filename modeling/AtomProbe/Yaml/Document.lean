import AtomProbe.Yaml.Node.Grammar
import AtomProbe.Yaml.Token.Lexer

/-!
# `AtomProbe.Yaml.Document`: nodes and the places that aliases refer to

An anchor gets the number of the names before it, and an alias refers to
the number of the latest anchor of its name. If a name is given again,
two anchors may get one number; then the later of the two nodes counts
for every alias with this number.
-/

set_option autoImplicit false

namespace AtomProbe.Yaml

/-- The numbers of the names so far. -/
abbrev Names := List (String × Nat)

/-- Give a number to a name. -/
def Names.add (names : Names) (name : String) : Names :=
  (name, names.length) :: names.filter (·.1 != name)

/-- The nodes with an anchor and their numbers, in the order in which
the nodes begin. -/
abbrev Anchored := List (Nat × Node Nat)

/-- A document whose aliases refer to numbered nodes. -/
structure Document where
  root : Node Nat
  anchored : Anchored
  deriving Repr

namespace Document

/-- The node that an alias refers to. -/
def find? (d : Document) (number : Nat) : Option (Node Nat) :=
  (d.anchored.reverse.find? (·.1 == number)).map (·.2)

/-- Number the anchor of a node, if it has one, before its content. -/
def anchor {α : Type} (p : Properties) (names : Names)
    (content : Names → Except Error (α × Anchored × Names))
    (make : α → Node Nat) : Except Error (Node Nat × Anchored × Names) := do
  match p.anchor with
  | none => do
    let (x, inner, names) ← content names
    return (make x, inner, names)
  | some name => do
    let (x, inner, after) ← content (names.add name)
    return (make x, (names.length, make x) :: inner, after)

mutual

/-- Number the anchors of a node, and let its aliases refer to the
numbers. -/
def number (names : Names) :
    Node String → Except Error (Node Nat × Anchored × Names)
  | .alias name =>
    match names.lookup name with
    | some n => .ok (.alias n, [], names)
    | none => .error .unknownAnchor
  | .scalar p style text => anchor p names (fun names => .ok ((), [], names)) fun _ =>
    .scalar p style text
  | .sequence p items => anchor p names (fun names => numberItems names items) (.sequence p)
  | .mapping p pairs => anchor p names (fun names => numberPairs names pairs) (.mapping p)

/-- Number the anchors of the items of a sequence. -/
def numberItems (names : Names) :
    List (Node String) → Except Error (List (Node Nat) × Anchored × Names)
  | [] => .ok ([], [], names)
  | item :: items => do
    let (item, inItem, names) ← number names item
    let (items, inItems, names) ← numberItems names items
    return (item :: items, inItem ++ inItems, names)

/-- Number the anchors of the pairs of a mapping. -/
def numberPairs (names : Names) :
    List (Node String × Node String) →
      Except Error (List (Node Nat × Node Nat) × Anchored × Names)
  | [] => .ok ([], [], names)
  | (key, value) :: pairs => do
    let (key, inKey, names) ← number names key
    let (value, inValue, names) ← number names value
    let (pairs, inPairs, names) ← numberPairs names pairs
    return ((key, value) :: pairs, inKey ++ inValue ++ inPairs, names)

end

/-- The document that a text holds. -/
def ofText (text : String) : Except Error Document := do
  let node ← Node.ofTokens (← Token.ofText text)
  let (root, anchored, _) ← number [] node
  return ⟨root, anchored⟩

end Document

end AtomProbe.Yaml
