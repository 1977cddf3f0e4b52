import AtomProbe.Metadata
import AtomProbe.Yaml.Value

/-!
# `AtomProbe.Metadata.Flatten`: documents as stores

Nested mappings are collapsed: the keys on the way to a value are joined
by slashes. A null is left out, and a tag is ignored. A sequence of
mappings becomes records, each flattened on its own; any other sequence
becomes a list, in which a mapping is a single record. A pair whose key
is no scalar is left out, and noted.
-/

set_option autoImplicit false

namespace AtomProbe.Metadata

open Yaml (Value)

/-- What stands between the keys of nested mappings. -/
def delimiter : String := "/"

/-- The text of a key, if the key is a scalar. -/
def keyText? : Value → Option String
  | .text s => some s
  | .number n => some n.write
  | .boolean b => some (if b then "true" else "false")
  | _ => none

/-- A key below the keys `above` it. -/
def joinKey (above key : String) : String :=
  if above = "" then key else above ++ delimiter ++ key

/-- A number as a value: an integer of 64 bits if it is one. -/
def ofNumber : Yaml.Number → Metadata
  | .natural n =>
    if n.toNat < Nat.pow 2 63 then .integer (Int64.ofNat n.toNat) else .real (Float.ofNat n.toNat)
  | .negative n => .integer n
  | .real x => .real x

/-- A value without the tags on it. -/
def untagged : Value → Value
  | .tagged _ value => untagged value
  | value => value

/-- Whether a value is a mapping, with or without tags. -/
def isMapping (value : Value) : Bool :=
  match untagged value with
  | .mapping _ => true
  | _ => false

mutual

/-- The value at the end of a chain of keys. -/
def ofLeaf? : Value → Option Metadata
  | .null => none
  | .boolean b => some (.boolean b)
  | .number n => some (ofNumber n)
  | .text s => some (.text s)
  | .sequence items =>
    if !items.isEmpty && items.all isMapping then some (.records (rows items))
    else some (.list (ofItems items))
  | .mapping pairs => some (.records [(SortedMap.ofList (flatten "" pairs)).toList])
  | .tagged _ value => ofLeaf? value

/-- The values of the items of a list. -/
def ofItems : List Value → List Metadata
  | [] => []
  | item :: items => (ofLeaf? item).toList ++ ofItems items

/-- The record that a mapping makes. -/
def row : Value → List (List (String × Metadata))
  | .mapping pairs => [(SortedMap.ofList (flatten "" pairs)).toList]
  | .tagged _ value => row value
  | _ => []

/-- The records of a sequence of mappings. -/
def rows : List Value → List (List (String × Metadata))
  | [] => []
  | item :: items => row item ++ rows items

/-- The values below the keys `above`, each under its joined key, in the
order of the document. -/
def flatten (above : String) : List (Value × Value) → List (String × Metadata)
  | [] => []
  | (key, value) :: pairs =>
    -- only a mapping without a tag is gone into
    (match keyText? key, value with
      | none, _ => []
      | some key, .mapping nested => flatten (joinKey above key) nested
      | some key, value => ((ofLeaf? value).map fun v => (joinKey above key, v)).toList) ++
    flatten above pairs

end

mutual

/-- The joined keys above the pairs of a value whose keys are no
scalars, in the order of the document. -/
def skippedIn : Value → List String
  | .sequence items => skippedInItems items
  | .mapping pairs => skipped "" pairs
  | .tagged _ value => skippedIn value
  | _ => []

/-- The same for the items of a sequence. -/
def skippedInItems : List Value → List String
  | [] => []
  | item :: items => skippedIn item ++ skippedInItems items

/-- The same for the pairs below the keys `above`. -/
def skipped (above : String) : List (Value × Value) → List String
  | [] => []
  | (key, value) :: pairs =>
    (match keyText? key, value with
      | none, _ => [above]
      | some key, .mapping nested => skipped (joinKey above key) nested
      | some _, value => skippedIn value) ++
    skipped above pairs

end

end Metadata

namespace Store

open Yaml (Value)

/-- The store of a document, if there is a mapping at its root. An
empty document has an empty store. -/
def ofValue? (value : Value) : Option Store :=
  match Metadata.untagged value with
  | .null => some .empty
  | .mapping pairs => some (.ofList (Metadata.flatten "" pairs))
  | _ => none

/-- The joined keys above the pairs of a document that are left out. -/
def skipped (value : Value) : List String :=
  match Metadata.untagged value with
  | .mapping pairs => Metadata.skipped "" pairs
  | _ => []

end Store

end AtomProbe
