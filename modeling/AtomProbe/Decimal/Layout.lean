import AtomProbe.Decimal.Shortest

/-!
# `AtomProbe.Decimal.Layout`: the text of a float

A `Layout` lists the decisions that a format leaves open once the
significant digits are known: from which size on a power of ten is
written, what follows a whole number, and the words for the values
without digits.
-/

set_option autoImplicit false

namespace AtomProbe.Decimal

/-- The decisions of a format for 64-bit floats. -/
structure Layout where
  /-- Which of two equally near numerals is written. -/
  tie : Tie
  /-- Whether a number whose first digit has this place is written
  without a power of ten; the place of the units is one. -/
  isPositional : Int → Bool
  /-- What follows a whole number without a power of ten. -/
  wholeMark : List Char
  /-- The word for positive infinity. -/
  infinityWord : List Char
  /-- The word for what is not a number. -/
  notANumberWord : List Char

namespace Layout

/-- The digits with the point behind the first `place` of them. -/
def positional (layout : Layout) (digits : List Char) (place : Int) : List Char :=
  let count : Int := digits.length
  if count ≤ place then
    digits ++ List.replicate (place - count).toNat '0' ++ layout.wholeMark
  else if 0 < place then
    digits.take place.toNat ++ '.' :: digits.drop place.toNat
  else
    '0' :: '.' :: List.replicate (-place).toNat '0' ++ digits

/-- One digit, the others behind a point, and the power of ten. -/
def scientific (digits : List Char) (place : Int) : List Char :=
  digits.take 1 ++ (if digits.length = 1 then [] else '.' :: digits.drop 1) ++
    'e' :: (toString (place - 1)).toList

/-- The text of a positive finite float. -/
def magnitude (layout : Layout) (x : Float) : List Char :=
  let s := Significand.ofFloat layout.tie x
  let digits := Nat.toDigits 10 s.digits
  -- the place of the first digit, the units being place one
  let place := s.exponent + digits.length
  if layout.isPositional place then layout.positional digits place
  else scientific digits place

/-- The text of a float. -/
def write (layout : Layout) (x : Float) : List Char :=
  let sign := if x.toBits.toNat < Nat.pow 2 63 then [] else ['-']
  if x.isNaN then layout.notANumberWord
  else if x.isInf then sign ++ layout.infinityWord
  else if x.toBits.toNat % Nat.pow 2 63 = 0 then sign ++ '0' :: layout.wholeMark
  else sign ++ layout.magnitude x.abs

end Layout

end AtomProbe.Decimal
