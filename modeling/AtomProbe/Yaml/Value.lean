import AtomProbe.Yaml.Document
import AtomProbe.Yaml.Schema

/-!
# `AtomProbe.Yaml.Value`: what a document stands for

Aliases are replaced by what they refer to, and plain scalars are read
by the schema. A local tag is kept beside its value if it is a text;
the tags of the schema say how a scalar is read, and all others make it
a text. A mapping holds no key twice. Collections are nested at most
128 deep, and aliases are followed a limited number of times.
-/

set_option autoImplicit false

namespace AtomProbe.Yaml

/-- The value of a document or a part of it. -/
inductive Value where
  | null
  | boolean (b : Bool)
  | number (n : Number)
  | text (s : String)
  | sequence (items : List Value)
  | mapping (pairs : List (Value × Value))
  | tagged (tag : String) (value : Value)
  deriving Repr

namespace Value

instance : Inhabited Value := ⟨.null⟩

/-- The value of a scalar. -/
def ofScalar : Scalar → Value
  | .null => .null
  | .boolean b => .boolean b
  | .number n => .number n
  | .text s => .text s

/-! ### Equality of keys -/

/-- A tag without a bang in front, unless it is a lone bang. -/
def bareTag (tag : String) : String :=
  match tag.toList with
  | '!' :: c :: cs => String.ofList (c :: cs)
  | _ => tag

/-- Whether two numbers are the same key: real numbers are compared as
numbers, and what is not a number is the same as itself. -/
def sameNumber : Number → Number → Bool
  | .real x, .real y => (x.isNaN && y.isNaN) || x == y
  | m, n => decide (m = n)

mutual

/-- Whether two values are the same key. The order of the pairs of a
mapping does not matter. -/
def same : Value → Value → Bool
  | .null, .null => true
  | .boolean a, .boolean b => a == b
  | .number m, .number n => sameNumber m n
  | .text s, .text t => s == t
  | .sequence xs, .sequence ys => sameItems xs ys
  | .mapping ps, .mapping qs => ps.length == qs.length && pairsIn ps qs
  | .tagged s x, .tagged t y => bareTag s == bareTag t && same x y
  | _, _ => false

/-- Whether two lists hold the same values in order. -/
def sameItems : List Value → List Value → Bool
  | [], [] => true
  | x :: xs, y :: ys => same x y && sameItems xs ys
  | _, _ => false

/-- Whether all pairs of the first list are in the second one. -/
def pairsIn : List (Value × Value) → List (Value × Value) → Bool
  | [], _ => true
  | (k, v) :: ps, qs => qs.any (fun q => same k q.1 && same v q.2) && pairsIn ps qs

end

/-- Whether a later pair has the key of an earlier one. -/
def hasDuplicate : List (Value × Value) → Bool
  | [] => false
  | (k, _) :: ps => ps.any (fun p => same k p.1) || hasDuplicate ps

/-! ### Scalars -/

/-- The tags of the schema. -/
def booleanTag : Tag := .ofString "tag:yaml.org,2002:bool"
def integerTag : Tag := .ofString "tag:yaml.org,2002:int"
def realTag : Tag := .ofString "tag:yaml.org,2002:float"
def nullTag : Tag := .ofString "tag:yaml.org,2002:null"

/-- The name of a tag that is kept. -/
def keptTag? (tag : Option Tag) : Option String := do
  let tag ← tag
  if tag.isLocal then return bareTag (← tag.text?) else none

/-- A value with the tag that is kept beside it. -/
def withTag (tag : Option Tag) (value : Value) : Value :=
  match keptTag? tag with
  | some name => .tagged name value
  | none => value

/-- A value, or the refusal of a scalar that its tag does not accept. -/
def accept (value : Option Value) : Except Error Value :=
  match value with
  | some v => .ok v
  | none => .error .invalidScalar

/-- The value of a scalar with its tag. -/
def ofNode (tag : Option Tag) (style : ScalarStyle) (text : String) : Except Error Value :=
  let untagged := if style = .plain then ofScalar <$> Schema.resolve text else .ok (.text text)
  match tag with
  | none => untagged
  | some given =>
    -- a local tag says nothing of how its scalar is read
    if given.isLocal then withTag tag <$> untagged
    else if given = booleanTag then accept ((Schema.boolean? text).map .boolean)
    else if given = integerTag then do accept ((← Schema.wholeNumber? text.toList).map .number)
    else if given = realTag then accept ((Schema.real? text).map fun x => .number (.real x))
    else if given = nullTag then accept (if Schema.isNull text then some .null else none)
    else .ok (.text text)

/-! ### Whole documents -/

/-- How deep collections may be nested. -/
def maximalDepth : Nat := 128

/-- How often an alias may be followed for each unit of the size of the
document. -/
def repetitions : Nat := 100

/-- Reading a value counts the aliases that may still be followed. -/
abbrev Reading (α : Type) := StateT Nat (Except Error) α

/-- The node that an alias refers to, or the node itself. -/
def follow (d : Document) : Node Nat → Reading (Node Nat)
  | .alias n => do
    match ← get with
    | 0 => throw .repetitionLimit
    | left + 1 => do
      set left
      -- a node with an anchor is never an alias, so one step is enough
      match d.find? n with
      | some target => return target
      | none => throw .unknownAnchor
  | node => return node

/-- The value of a node that may hold `depth` levels of collections. -/
def read (d : Document) : (depth : Nat) → Node Nat → Reading Value
  | 0, node => do
    match ← follow d node with
    | .alias _ => throw .unknownAnchor
    | .scalar p style s => ofNode p.tag style s
    | _ => throw .nestedTooDeep
  | depth + 1, node => do
    match ← follow d node with
    | .alias _ => throw .unknownAnchor
    | .scalar p style s => ofNode p.tag style s
    | .sequence p items => do
      let items ← items.mapM (read d depth)
      return withTag p.tag (.sequence items)
    | .mapping p pairs => do
      let pairs ← pairs.mapM fun (k, v) => do return (← read d depth k, ← read d depth v)
      if hasDuplicate pairs then throw .duplicateKey
      return withTag p.tag (.mapping pairs)

/-- The value of a document. -/
def ofDocument (d : Document) : Except Error Value :=
  (read d maximalDepth d.root).run' (repetitions * d.root.size)

/-- The value that a text stands for. -/
def ofText (text : String) : Except Error Value :=
  Document.ofText text >>= ofDocument

end Value

end AtomProbe.Yaml
