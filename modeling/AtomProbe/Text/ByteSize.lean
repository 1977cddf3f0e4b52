import AtomProbe.Decimal.Shortest

/-!
# `AtomProbe.Text.ByteSize`: sizes of files in messages

A size is written with the largest unit that it reaches, in powers of
1024, and with at most one decimal place.
-/

set_option autoImplicit false

namespace AtomProbe.Text

/-- The units in ascending order. -/
def units : List String := ["B", "KiB", "MiB", "GiB", "TiB", "PiB", "EiB", "ZiB", "YiB"]

/-- A positive finite float in tenths. A half goes to the even neighbour. -/
def tenths (x : Float) : Nat :=
  let v := Decimal.Fraction.ofFloat x
  let whole := 10 * v.numerator / v.denominator
  let rest := 10 * v.numerator % v.denominator
  if v.denominator < 2 * rest ∨ (2 * rest = v.denominator ∧ whole % 2 = 1) then whole + 1
  else whole

/-- Tenths as a text, without a zero behind the point. -/
def writeTenths (n : Nat) : String :=
  if n % 10 = 0 then toString (n / 10) else toString (n / 10) ++ "." ++ toString (n % 10)

/-- The text of a size in bytes. -/
def byteSize (bytes : Nat) : String :=
  if bytes = 0 then "0 B"
  else
    let base := Float.log10 (Float.ofNat bytes) / Float.log10 (Float.ofNat 1024)
    let power := Float.floor base
    let amount := Float.pow (Float.ofNat 1024) (base - power)
    writeTenths (tenths amount) ++ " " ++ units.getD power.toUInt64.toNat ""

end AtomProbe.Text
