import AtomProbe.Yaml.Error
import AtomProbe.Yaml.Number

/-!
# `AtomProbe.Yaml.Schema`: what a plain scalar stands for

Without quotes a scalar may stand for nothing, a boolean or a number;
otherwise it stands for its own text. Only the words below are booleans
and null. A whole number is decimal, or hexadecimal, octal or binary
behind `0x`, `0o` or `0b`. Digits with a zero in front are a text.
-/

set_option autoImplicit false

namespace AtomProbe.Yaml

/-- What a scalar stands for. -/
inductive Scalar
  | null
  | boolean (b : Bool)
  | number (n : Number)
  | text (s : String)
  deriving DecidableEq, Repr

namespace Schema

/-- Whether the text is one of the words for nothing. -/
def isNull (text : String) : Bool :=
  ["null", "Null", "NULL", "~"].contains text

/-- The boolean that a word stands for. -/
def boolean? (text : String) : Option Bool :=
  if ["true", "True", "TRUE"].contains text then some true
  else if ["false", "False", "FALSE"].contains text then some false
  else none

/-- Behind an optional sign, two or more digits of which the first is a
zero. -/
def hasLeadingZero (cs : List Char) : Bool :=
  match (match cs with | '+' :: ds => ds | '-' :: ds => ds | ds => ds) with
  | '0' :: d :: ds => (d :: ds).all Decimal.isDigit
  | _ => false

/-- A whole number without its sign. -/
def magnitude? : List Char → Option Nat
  | '0' :: 'x' :: ds => Decimal.natural? 16 ds
  | '0' :: 'o' :: ds => Decimal.natural? 8 ds
  | '0' :: 'b' :: ds => Decimal.natural? 2 ds
  | ds => if hasLeadingZero ds then none else Decimal.natural? 10 ds

/-- A whole number of any size. -/
def integer? : List Char → Option Int
  | '+' :: ds => (magnitude? ds).map fun n => (n : Int)
  | '-' :: ds => (magnitude? ds).map fun n => -(n : Int)
  | ds => (magnitude? ds).map fun n => (n : Int)

/-- Whether a whole number that is no word of 64 bits is still one of
128 bits. Such a number is refused, and a larger one is read as a real
number or a text. -/
def isWide (n : Int) : Bool := -Int.pow 2 127 ≤ n && n < Int.pow 2 128

/-- A whole number as a number of a document. A number that is too large
for any is none. -/
def wholeNumber? (cs : List Char) : Except Error (Option Number) :=
  match integer? cs with
  | none => .ok none
  | some n =>
    if 0 ≤ n ∧ n < Int.pow 2 64 then .ok (some (.natural (UInt64.ofNat n.toNat)))
    else if -Int.pow 2 63 ≤ n ∧ n < 0 then .ok (some (.negative (Int64.ofInt n)))
    else if isWide n then .error .integerOutOfRange
    else .ok none

/-- A real number: a numeral for a finite one, or a word. -/
def real? (text : String) : Option Float :=
  if [".inf", ".Inf", ".INF", "+.inf", "+.Inf", "+.INF"].contains text then some Decimal.infinity
  else if ["-.inf", "-.Inf", "-.INF"].contains text then some Decimal.infinity.neg
  else if [".nan", ".NaN", ".NAN"].contains text then some Decimal.notANumber
  else (Decimal.real? text.toList).filter (·.isFinite)

/-- What a scalar without quotes stands for. -/
def resolve (text : String) : Except Error Scalar := do
  if text = "" || isNull text then return .null
  if let some b := boolean? text then return .boolean b
  if let some n ← wholeNumber? text.toList then return .number n
  if !hasLeadingZero text.toList then
    if let some x := real? text then return .number (.real x)
  return .text text

end Schema

end AtomProbe.Yaml
