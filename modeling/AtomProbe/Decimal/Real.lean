import AtomProbe.Decimal.Digits

/-!
# `AtomProbe.Decimal.Real`: reading 64-bit floats

A numeral is an optional sign, digits with at most one point among or
around them, and an optional exponent of ten with its own sign. It
stands for the float nearest to its exact value; a value beyond the
largest float is infinite and one too small is a zero of its sign. The
words for infinity and for what is not a number are read in any case.
-/

set_option autoImplicit false

namespace AtomProbe.Decimal

/-- Whether the character is one of the ten digits. -/
def isDigit (c : Char) : Bool := '0' ≤ c && c ≤ '9'

/-- Positive infinity. -/
def infinity : Float := Float.ofBits 0x7ff0000000000000

/-- The value that is not a number. -/
def notANumber : Float := Float.ofBits 0x7ff8000000000000

/-- The float nearest to `mantissa * 10 ^ exponent`. An exponent that
settles the answer alone is not raised to a power of ten. -/
def scale (mantissa : Nat) (exponent : Int) : Float :=
  if mantissa = 0 then Float.ofNat 0
  else if 400 < exponent then infinity
  else if exponent < -400 - (mantissa.log2 : Int) then Float.ofNat 0
  else Float.ofScientific mantissa (decide (exponent < 0)) exponent.natAbs

/-- The exponent part that ends a numeral: nothing, or a mark and a
whole number. -/
def exponentPart? : List Char → Option Int
  | [] => some 0
  | c :: cs => if c = 'e' ∨ c = 'E' then integer? 10 cs else none

/-- The absolute value of a numeral, read without its sign. -/
def unsignedReal? (cs : List Char) : Option Float :=
  let whole := cs.takeWhile isDigit
  let rest := cs.dropWhile isDigit
  let (fraction, tail) := match rest with
    | '.' :: rest => (rest.takeWhile isDigit, rest.dropWhile isDigit)
    | rest => ([], rest)
  match natural? 10 (whole ++ fraction), exponentPart? tail with
  | some mantissa, some exponent => some (scale mantissa (exponent - fraction.length))
  | _, _ => none

/-- The words beside the numerals. -/
def realWord? (cs : List Char) : Option Float :=
  let word := cs.map Char.toLower
  if word = ['i', 'n', 'f'] ∨ word = ['i', 'n', 'f', 'i', 'n', 'i', 't', 'y'] then some infinity
  else if word = ['n', 'a', 'n'] then some notANumber
  else none

/-- A numeral or word with an optional sign. -/
def real? (cs : List Char) : Option Float :=
  let magnitude? (cs : List Char) := (realWord? cs).or (unsignedReal? cs)
  match cs with
  | '+' :: cs => magnitude? cs
  | '-' :: cs => (magnitude? cs).map Float.neg
  | cs => magnitude? cs

end AtomProbe.Decimal
