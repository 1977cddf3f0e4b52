import AtomProbe.Decimal.Layout

/-!
# `AtomProbe.Yaml.Number`: the numbers of a document
-/

set_option autoImplicit false

namespace AtomProbe.Yaml

/-- A number: a whole number of 64 bits or a real number. -/
inductive Number
  | natural (n : UInt64)
  | negative (n : Int64)
  | real (x : Float)
  deriving DecidableEq, Repr

/-- Real numbers of a document: positional between `1e-5` and `1e16`, with `.0`
behind a whole number, and otherwise with a power of ten; an exact tie
between two numerals goes to the even digit. -/
def realLayout : Decimal.Layout where
  tie := .toEven
  isPositional place := -5 < place && place ≤ 16
  wholeMark := ['.', '0']
  infinityWord := ['.', 'i', 'n', 'f']
  notANumberWord := ['.', 'n', 'a', 'n']

/-- The text of a real number. -/
def writeReal (x : Float) : String := String.ofList (realLayout.write x)

/-- The text of a number. -/
def Number.write : Number → String
  | .natural n => toString n.toNat
  | .negative n => toString n.toInt
  | .real x => writeReal x

end AtomProbe.Yaml
