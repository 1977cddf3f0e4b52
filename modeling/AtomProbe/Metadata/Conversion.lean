import AtomProbe.Calendar.Timestamp
import AtomProbe.Decimal.Real
import AtomProbe.Metadata
import AtomProbe.Text.Blank
import AtomProbe.Text.Lower
import AtomProbe.Text.Quoted

/-!
# `AtomProbe.Metadata.Conversion`: values as numbers, booleans and times

People type values in many ways, so a text is read as well, without the
blanks around it. A value that cannot be read is refused and shown.
-/

set_option autoImplicit false

namespace AtomProbe

/-- Why a value is refused. Each cause but the last shows the value. -/
inductive ConversionError
  | notANumber (shown : String)
  | notAnUnsigned (shown : String)
  | notABoolean (shown : String)
  | notATimestamp (shown : String)
  /-- The year of the timestamp cannot be written. -/
  | timestampRange (seconds : Int64)
  deriving DecidableEq, Repr

/-- The wording of a refusal. -/
def ConversionError.message : ConversionError → String
  | .notANumber shown => "Could not interpret value " ++ Text.quoted shown ++ " as a number"
  | .notAnUnsigned shown =>
    "Could not interpret value " ++ Text.quoted shown ++ " as an unsigned 32-bit integer"
  | .notABoolean shown => "Could not interpret value " ++ Text.quoted shown ++ " as a boolean"
  | .notATimestamp shown =>
    "Could not interpret value " ++ Text.quoted shown ++ " as a UNIX timestamp"
  | .timestampRange seconds =>
    "UNIX timestamp " ++ toString seconds.toInt ++
      " is outside of the representable range: timestamp was not in range"

namespace Metadata

/-- A number read from the metadata. Counters and serial numbers stay
integers. -/
inductive Number
  | integer (n : Int64)
  | real (x : Float)
  deriving DecidableEq, Repr

/-- The number as a float. -/
def Number.toReal : Number → Float
  | .integer n => Float.ofInt n.toInt
  | .real x => x

/-- The integer that the number is, if it is one. -/
def Number.integer? : Number → Option Int64
  | .integer n => some n
  | .real _ => none

/-- The integer that a text holds between blanks, if it holds one. -/
def integerText? (s : String) : Option Int64 :=
  Decimal.int64? (Text.trimChars s.toList)

/-- Read a value as a number. A text is an integer if it can be. -/
def toNumber : Metadata → Except ConversionError Number
  | .integer n => .ok (.integer n)
  | .real x => .ok (.real x)
  | .text s =>
    match integerText? s, Decimal.real? (Text.trimChars s.toList) with
    | some n, _ => .ok (.integer n)
    | none, some x => .ok (.real x)
    | none, none => .error (.notANumber s)
  | value => .error (.notANumber value.display)

/-- Read a value as an unsigned 32-bit integer. -/
def toUnsigned (value : Metadata) : Except ConversionError UInt32 :=
  match value.toNumber with
  | .ok (.integer n) =>
    match Decimal.toUInt32? n.toInt with
    | some n => .ok n
    | none => .error (.notAnUnsigned value.display)
  | _ => .error (.notAnUnsigned value.display)

/-- The words for true. -/
def trueWords : List String := ["true", "yes", "y", "on", "1", "t"]

/-- The words for false. -/
def falseWords : List String := ["false", "no", "n", "off", "0", "f"]

/-- A word without the blanks around it and in small letters. -/
def lowered (s : String) : String :=
  String.ofList (Text.lowerChars (Text.trimChars s.toList))

/-- Read a value as a boolean. -/
def toBoolean : Metadata → Except ConversionError Bool
  | .boolean b => .ok b
  | .integer n =>
    if n = 0 then .ok false
    else if n = 1 then .ok true
    else .error (.notABoolean (display (.integer n)))
  | .text s =>
    if trueWords.contains (lowered s) then .ok true
    else if falseWords.contains (lowered s) then .ok false
    else .error (.notABoolean s)
  | value => .error (.notABoolean value.display)

/-- Read a value as seconds of the UNIX epoch. -/
def toTimestamp : Metadata → Except ConversionError Int64
  | .integer n => .ok n
  | .text s =>
    match integerText? s with
    | some n => .ok n
    | none => .error (.notATimestamp s)
  | value => .error (.notATimestamp value.display)

end Metadata

/-- Seconds of the UNIX epoch as date and time. -/
def iso8601 (seconds : Int64) : Except ConversionError String :=
  match Calendar.iso8601? seconds.toInt with
  | some text => .ok text
  | none => .error (.timestampRange seconds)

end AtomProbe
