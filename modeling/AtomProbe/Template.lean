import AtomProbe.Metadata.Conversion

/-!
# `AtomProbe.Template`: the values that are handed on

The template of an entry holds values under resolved paths. It is only
written to; the last value under a path stays.
-/

set_option autoImplicit false

namespace AtomProbe

/-- A value of a template. -/
inductive TemplateValue
  | text (s : String)
  | boolean (b : Bool)
  | integer (n : Int64)
  | real (x : Float)
  | texts (items : List String)
  | integers (items : List Int64)
  | reals (items : List Float)
  deriving DecidableEq, Repr

/-- Template values under resolved paths. -/
abbrev Template := SortedMap TemplateValue

namespace TemplateValue

/-- A number as a value. -/
def ofNumber : Metadata.Number → TemplateValue
  | .integer n => .integer n
  | .real x => .real x

/-- Integers, unless a real number is among the numbers. -/
def ofNumbers (numbers : List Metadata.Number) : TemplateValue :=
  match numbers.mapM Metadata.Number.integer? with
  | some items => .integers items
  | none => .reals (numbers.map (·.toReal))

/-- The number that an item of a list is. -/
def itemNumber? : Metadata → Option Metadata.Number
  | .integer n => some (.integer n)
  | .real x => some (.real x)
  | _ => none

/-- Whether an item of a list has items of its own. -/
def isNested : Metadata → Bool
  | .list _ => true
  | .records _ => true
  | _ => false

/-- A list as an array of numbers, or else of texts. An empty list is an
array of texts. -/
def ofItems? (items : List Metadata) : Option TemplateValue :=
  if items.any isNested then none
  else if items.isEmpty then some (.texts [])
  else
    match items.mapM itemNumber? with
    | some numbers => some (ofNumbers numbers)
    | none => some (.texts (items.map Metadata.display))

/-- A metadata value as it is. Records and nested lists have no place in
a template. -/
def ofMetadata? : Metadata → Option TemplateValue
  | .text s => some (.text s)
  | .integer n => some (.integer n)
  | .real x => some (.real x)
  | .boolean b => some (.boolean b)
  | .list items => ofItems? items
  | .records _ => none

end TemplateValue

end AtomProbe
