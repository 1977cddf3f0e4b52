import AtomProbe.Template
import AtomProbe.VariadicPath

/-!
# `AtomProbe.Mapping`: tables that say where metadata goes

A rule takes values of a store, or a literal, and writes what it makes
of them under a target path. A table holds the rules of one concept,
with what their sources and their targets have in common.

A missing source is no error: the rule is passed over and says so, and
so is a rule whose target cannot be resolved. A source that is there but
cannot be converted is an error, and ends the table; what earlier rules
wrote stays written.

What a table writes depends on the store and the identifiers alone. It
is worked out first (`Table.effects`), and then written (`apply`).
-/

set_option autoImplicit false

namespace AtomProbe

/-- A value that a rule writes without a source. -/
inductive Literal
  | text (s : String)
  | boolean (b : Bool)
  deriving DecidableEq, Repr

/-- What is made of one value. -/
inductive Reading
  /-- The value as it is. -/
  | copy
  | boolean
  | number
  /-- An unsigned 32-bit integer. -/
  | unsigned
  /-- A number times a factor. -/
  | scaled (factor : Float)
  /-- Seconds of the UNIX epoch as date and time. -/
  | timestamp
  deriving DecidableEq, Repr

/-- What is made of several values. -/
inductive Combination
  /-- An array of real numbers. -/
  | reals
  /-- An array of numbers. -/
  | numbers
  /-- The texts of the values with spaces between them. -/
  | joined
  deriving DecidableEq, Repr

/-- What a rule does. -/
inductive Action
  /-- Write a literal. -/
  | use (literal : Literal)
  /-- Read one source. If it is left out, it is named like the target. -/
  | read (reading : Reading) (source : Option String)
  /-- Read several sources. -/
  | combine (combination : Combination) (sources : List String)
  deriving DecidableEq, Repr

/-- The name of the family of an action. -/
def Action.family : Action → String
  | .use _ => "use"
  | .read .copy _ => "map_to_str"
  | .read .boolean _ => "map_to_bool"
  | .read .number _ => "map_to_real"
  | .read .unsigned _ => "map_to_real"
  | .read (.scaled _) _ => "map_to_real_and_multiply"
  | .read .timestamp _ => "unix_to_iso8601"
  | .combine .reals _ => "map_to_real"
  | .combine .numbers _ => "map_to_real_and_join"
  | .combine .joined _ => "join_str"

/-- A rule of a table. The target lies below that of the table. -/
structure Rule where
  target : String
  action : Action
  deriving DecidableEq, Repr

namespace Rule

/-- Write a text. -/
def use (target text : String) : Rule := ⟨target, .use (.text text)⟩

/-- Write a boolean. -/
def useBoolean (target : String) (b : Bool) : Rule := ⟨target, .use (.boolean b)⟩

/-- Copy the source that is named like the target. -/
def copy (target : String) : Rule := ⟨target, .read .copy none⟩

/-- Copy a source. -/
def copyFrom (target source : String) : Rule := ⟨target, .read .copy (some source)⟩

/-- Read the source that is named like the target as a boolean. -/
def boolean (target : String) : Rule := ⟨target, .read .boolean none⟩

/-- Read a source as a number. -/
def numberFrom (target source : String) : Rule := ⟨target, .read .number (some source)⟩

/-- Read a source as an unsigned 32-bit integer. -/
def unsignedFrom (target source : String) : Rule := ⟨target, .read .unsigned (some source)⟩

/-- Join the texts of several sources. -/
def join (target : String) (sources : List String) : Rule := ⟨target, .combine .joined sources⟩

end Rule

/-- The rules of one concept. -/
structure Table where
  name : String
  /-- The path below which the targets lie. -/
  target : Option String
  /-- The same, for a table without the above. -/
  olderTarget : Option String
  /-- The key below which the sources lie. -/
  source : Option String
  rules : List Rule
  deriving DecidableEq, Repr

/-- Why a table ends early. -/
inductive MappingError
  /-- The table says nowhere where its targets lie. -/
  | missingTarget (table : String)
  /-- The value under the key is refused. -/
  | conversion (key : String) (cause : ConversionError)
  /-- The value under the key has no place in a template. -/
  | unsupportedValue (key : String)
  deriving DecidableEq, Repr

/-- The wording of an error. -/
def MappingError.message : MappingError → String
  | .missingTarget table =>
    "Mapping table " ++ table ++ " has neither a prefix nor a prefix_trg"
  | .conversion key cause =>
    "Mapping failed to convert source key " ++ key ++ ": " ++ cause.message
  | .unsupportedValue key =>
    "Mapping found records or nested lists under source key " ++ key ++
      " which cannot be copied into the template"

/-- What became of a rule. -/
inductive Outcome
  | written (path : String)
  | missingSource (key : String)
  | unresolvablePath (path : String)
  deriving DecidableEq, Repr

/-- Whether the rule wrote a value. -/
def Outcome.isWritten : Outcome → Bool
  | .written _ => true
  | _ => false

/-- A value that a rule makes, or the key that it misses. -/
inductive Product
  | value (v : TemplateValue)
  | missing (key : String)
  deriving DecidableEq, Repr

/-- What a rule does to a template. -/
inductive Effect
  | write (path : String) (value : TemplateValue)
  | missingSource (key : String)
  | unresolvablePath (path : String)
  deriving DecidableEq, Repr

namespace Effect

/-- The outcome of the rule. -/
def outcome : Effect → Outcome
  | .write path _ => .written path
  | .missingSource key => .missingSource key
  | .unresolvablePath path => .unresolvablePath path

/-- The value that is written, with its path. -/
def write? : Effect → Option (String × TemplateValue)
  | .write path value => some (path, value)
  | _ => none

end Effect

namespace Table

/-- The path below which the targets lie. -/
def targetPath (table : Table) : Except MappingError String :=
  match table.target.or table.olderTarget with
  | some path => .ok path
  | none => .error (.missingTarget table.name)

/-- The full key of a source of the table. -/
def sourceKey (table : Table) (source : String) : String :=
  match table.source with
  | none => source
  | some above =>
    if above = "" then source
    else if above.toList.getLast? = some '/' then above ++ source
    else above ++ "/" ++ source

end Table

/-! ### What one rule makes of its sources -/

/-- The value of a literal. -/
def Literal.value : Literal → TemplateValue
  | .text s => .text s
  | .boolean b => .boolean b

/-- A conversion of the value under a key, which an error names. -/
def under {α : Type} (key : String) (result : Except ConversionError α) : Except MappingError α :=
  result.mapError (.conversion key)

/-- What is made of the value under a key. -/
def Reading.apply (reading : Reading) (key : String) (value : Metadata) :
    Except MappingError TemplateValue :=
  match reading with
  | .copy =>
    match TemplateValue.ofMetadata? value with
    | some v => .ok v
    | none => .error (.unsupportedValue key)
  | .boolean => .boolean <$> under key value.toBoolean
  | .number => .ofNumber <$> under key value.toNumber
  | .unsigned => (fun n => .integer (Int64.ofNat n.toNat)) <$> under key value.toUnsigned
  | .scaled factor => (fun n => .real (factor * n.toReal)) <$> under key value.toNumber
  | .timestamp => .text <$> under key (value.toTimestamp >>= iso8601)

namespace Combination

/-- The numbers under several keys. -/
def numbersOf (sources : List (String × Metadata)) : Except MappingError (List Metadata.Number) :=
  sources.mapM fun (key, value) => under key value.toNumber

/-- What is made of the values under several keys. -/
def apply (combination : Combination) (sources : List (String × Metadata)) :
    Except MappingError TemplateValue :=
  match combination with
  | .reals => (fun numbers => .reals (numbers.map (·.toReal))) <$> numbersOf sources
  | .numbers => TemplateValue.ofNumbers <$> numbersOf sources
  | .joined => .ok (.text (" ".intercalate (sources.map fun source => source.2.display)))

end Combination

/-- The values under the keys, or the first key without a value. -/
def lookUp (store : Store) : List String → Except String (List (String × Metadata))
  | [] => .ok []
  | key :: keys =>
    match store.get? key with
    | none => .error key
    | some value => (lookUp store keys).map ((key, value) :: ·)

namespace Rule

/-- What a rule makes of a store. -/
def product (table : Table) (store : Store) (rule : Rule) : Except MappingError Product :=
  match rule.action with
  | .use literal => .ok (.value literal.value)
  | .read reading source =>
    let key := table.sourceKey (source.getD rule.target)
    match store.get? key with
    | none => .ok (.missing key)
    | some value => .value <$> reading.apply key value
  | .combine combination sources =>
    -- all sources are looked up before the first of them is converted
    match lookUp store (sources.map table.sourceKey) with
    | .error key => .ok (.missing key)
    | .ok found => .value <$> combination.apply found

/-- What a rule does to a template, where `path` is the target path of
the table. -/
def effect (table : Table) (path : String) (store : Store) (ids : List UInt32) (rule : Rule) :
    Except MappingError Effect := do
  -- a refused source fails even where the path could not be resolved
  match ← rule.product table store with
  | .missing key => return .missingSource key
  | .value value =>
    let full := path ++ "/" ++ rule.target
    match VariadicPath.resolve? full ids with
    | some resolved => return .write resolved value
    | none => return .unresolvablePath full

end Rule

/-! ### What a table does -/

/-- What is done up to the first failure, and the failure. -/
structure Progress (α ε : Type) where
  done : List α
  failure : Option ε

/-- Do things in order until one fails. -/
def Progress.ofList {α β ε : Type} (f : α → Except ε β) : List α → Progress β ε
  | [] => ⟨[], none⟩
  | x :: xs =>
    match f x with
    | .error e => ⟨[], some e⟩
    | .ok y =>
      let p := ofList f xs
      ⟨y :: p.done, p.failure⟩

namespace Table

/-- What the rules do in order, until one fails. -/
def effects (table : Table) (store : Store) (ids : List UInt32) : Progress Effect MappingError :=
  match table.targetPath with
  | .error e => ⟨[], some e⟩
  | .ok path => .ofList (Rule.effect table path store ids) table.rules

/-- What a table writes in order. -/
def writes (table : Table) (store : Store) (ids : List UInt32) : List (String × TemplateValue) :=
  (table.effects store ids).done.filterMap Effect.write?

/-- Write what a table makes of a store into a template. The outcomes
are those of the rules in order. -/
def apply (table : Table) (store : Store) (ids : List UInt32) (template : Template) :
    Template × Except MappingError (List Outcome) :=
  let p := table.effects store ids
  (template.insertAll (table.writes store ids),
    match p.failure with
    | some e => .error e
    | none => .ok (p.done.map Effect.outcome))

end Table

end AtomProbe
