import AtomProbe.Config
import AtomProbe.Yaml.Value

/-!
# `AtomProbe.Config.Reader`: configurations from documents

A configuration is read from the nodes of its document, since its fields
say what their scalars stand for: a path is the text of any scalar, also
of one that would be a number. Fields with other names are passed over.
A field that is given twice is refused, and so is the lack of a field
without a default. Tags are passed over on records.
-/

set_option autoImplicit false

namespace AtomProbe.Config

open Yaml (Document Node)

/-- A node whose aliases are numbered. -/
abbrev Part := Node Nat

/-- The node that an alias refers to, or the node itself. -/
def target (d : Document) (node : Part) : Except Yaml.Error Part :=
  match node with
  | .alias n =>
    match d.find? n with
    | some node => .ok node
    | none => .error .unknownAnchor
  | node => .ok node

/-- The text of a scalar in any style. -/
def readText (d : Document) (node : Part) : Except Yaml.Error String := do
  match ← target d node with
  | .scalar _ _ s => return s
  | _ => throw .invalidKind

/-- A text that may be missing: nothing is said by an empty scalar or a
null without quotes, unless a tag says that it is a text. -/
def readOptionalText (d : Document) (node : Part) : Except Yaml.Error (Option String) := do
  match ← target d node with
  | .scalar p style s =>
    if style ≠ .plain then return some s
    else
      match p.tag with
      | none => return if s = "" || Yaml.Schema.isNull s then none else some s
      | some tag =>
        if tag ≠ Yaml.Value.nullTag then return some s
        else if Yaml.Schema.isNull s then return none
        else throw .invalidScalar
  | _ => throw .invalidKind

/-- The text of a scalar that may stand for something else than a text:
one without quotes, or a literal one with the tag of its type. -/
def readTyped (d : Document) (expectedTag : Yaml.Tag) (node : Part) : Except Yaml.Error String := do
  match ← target d node with
  | .scalar p style s =>
    if style = .plain ∨ (style = .literal ∧ p.tag = some expectedTag) then return s
    else throw .invalidKind
  | _ => throw .invalidKind

/-- An identifier. -/
def readId (d : Document) (node : Part) : Except Yaml.Error UInt32 := do
  let s ← readTyped d Yaml.Value.integerTag node
  -- a minus is refused even before a zero
  match s.toList.head?, (Yaml.Schema.integer? s.toList).bind Decimal.toUInt32? with
  | some '-', _ => throw .invalidScalar
  | _, some id => return id
  | _, none => throw .invalidScalar

/-- A boolean. -/
def readBoolean (d : Document) (node : Part) : Except Yaml.Error Bool := do
  match Yaml.Schema.boolean? (← readTyped d Yaml.Value.booleanTag node) with
  | some b => return b
  | none => throw .invalidScalar

/-- The pairs of a record. An empty scalar has none. -/
def readPairs (d : Document) (node : Part) : Except Yaml.Error (List (Part × Part)) := do
  match ← target d node with
  | .mapping _ pairs => return pairs
  | .scalar _ .plain "" => return []
  | _ => throw .invalidKind

/-- The items of a list. An empty scalar has none. -/
def readItems (d : Document) (node : Part) : Except Yaml.Error (List Part) := do
  match ← target d node with
  | .sequence _ items => return items
  | .scalar _ .plain "" => return []
  | _ => throw .invalidKind

/-- The fields of a record with the given names, in their order in the
document. -/
def readFields (d : Document) (names : List String) (node : Part) :
    Except Yaml.Error (List (String × Part)) := do
  -- the name of a field may be a scalar of any style
  let named ← (← readPairs d node).mapM fun (key, value) => do return (← readText d key, value)
  let fields := named.filter fun (name, _) => names.contains name
  if fields.any fun (name, _) => 1 < fields.countP (·.1 == name) then throw .duplicateKey
  return fields

/-- A field that must be given. -/
def required {α : Type} (fields : List (String × Part)) (name : String)
    (read : Part → Except Yaml.Error α) : Except Yaml.Error α :=
  match fields.lookup name with
  | some node => read node
  | none => .error (.missingField name)

/-- A field with a default. -/
def withDefault {α : Type} (fields : List (String × Part)) (name : String)
    (read : Part → Except Yaml.Error α) (value : α) : Except Yaml.Error α :=
  match fields.lookup name with
  | some node => read node
  | none => .ok value

/-- An entry. -/
def readEntry (d : Document) (node : Part) : Except Yaml.Error Entry := do
  let fields ← readFields d ["entry_id", "eln_path", "oasis_config_path", "cameca_path"] node
  return {
    id := ← required fields "entry_id" (readId d)
    notebook := ← withDefault fields "eln_path" (readOptionalText d) none
    deployment := ← withDefault fields "oasis_config_path" (readOptionalText d) none
    vendor := ← withDefault fields "cameca_path" (readOptionalText d) none }

/-- The configuration of a document. -/
def ofDocument (d : Document) : Except Yaml.Error Config := do
  let fields ← readFields d ["output_path", "verbose", "entries"] d.root
  return {
    output := ← required fields "output_path" (readText d)
    isVerbose := ← withDefault fields "verbose" (readBoolean d) false
    entries := ← required fields "entries" fun node => do
      (← readItems d node).mapM (readEntry d) }

/-- The configuration that a text stands for. -/
def ofText (text : String) : Except ConfigError Config :=
  (Document.ofText text >>= ofDocument).mapError .document

variable {m : Type → Type} [Monad m] [Storage m]

/-- The configuration in a file. -/
def read (path : String) : ExceptT ConfigError m Config := do
  if !(← Storage.isPresent path) then throw (.missingFile path)
  let content ← ExceptT.lift (Storage.readText path)
  let text ← liftExcept (content.mapError ConfigError.file)
  liftExcept (ofText text)

end AtomProbe.Config
