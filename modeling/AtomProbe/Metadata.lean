import AtomProbe.Decimal.Layout
import AtomProbe.SortedMap

/-!
# `AtomProbe.Metadata`: what is known about a measurement

A metadata value is a scalar, a list of values, or a list of records. A
record holds values under keys, for instance those of one user or of
one laser source. A `Store` holds the values of a whole document.
-/

set_option autoImplicit false

namespace AtomProbe

/-- A value of the metadata. -/
inductive Metadata where
  | text (s : String)
  | integer (n : Int64)
  | real (x : Float)
  | boolean (b : Bool)
  | list (items : List Metadata)
  /-- Records, each with its keys and values in ascending order. -/
  | records (rows : List (List (String × Metadata)))
  deriving Repr

/-- Metadata values under their keys. -/
abbrev Store := SortedMap Metadata

namespace Metadata

instance : Inhabited Metadata := ⟨.list []⟩

/-- The text of a value that is one. -/
def text? : Metadata → Option String
  | .text s => some s
  | _ => none

/-- The records of a value that holds records. -/
def records? : Metadata → Option (List Store)
  | .records rows => some (rows.map SortedMap.ofList)
  | _ => none

/-- The value that holds the given records. -/
def ofRecords (stores : List Store) : Metadata :=
  .records (stores.map (·.toList))

/-- Real numbers in messages and joined texts: always positional, and
without a point behind a whole number. -/
def realLayout : Decimal.Layout where
  tie := .up
  isPositional _ := true
  wholeMark := []
  infinityWord := ['i', 'n', 'f']
  notANumberWord := ['N', 'a', 'N']

mutual

/-- The text that shows a value. -/
def display : Metadata → String
  | .text s => s
  | .integer n => toString n.toInt
  | .real x => String.ofList (realLayout.write x)
  | .boolean b => if b then "true" else "false"
  | .list items => "[" ++ ", ".intercalate (displayAll items) ++ "]"
  | .records rows => "<" ++ toString rows.length ++ " records>"

/-- The texts that show the items of a list. -/
def displayAll : List Metadata → List String
  | [] => []
  | item :: items => display item :: displayAll items

end

end Metadata

namespace SortedMap

/-- The text under a key, if there is a text. -/
def text? (store : SortedMap Metadata) (key : String) : Option String :=
  (store.get? key).bind Metadata.text?

/-- The records under a key, if there are records. -/
def records? (store : SortedMap Metadata) (key : String) : Option (List Store) :=
  (store.get? key).bind Metadata.records?

end SortedMap

end AtomProbe
