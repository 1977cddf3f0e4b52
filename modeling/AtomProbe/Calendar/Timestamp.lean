import AtomProbe.Calendar.Date

/-!
# `AtomProbe.Calendar.Timestamp`: seconds of the UNIX epoch as ISO 8601

A timestamp counts the seconds since the beginning of 1970 in
universal time, without leap seconds. Its text holds the date, the
time of the day and the offset `+00:00`. Only years of four digits can
be written; a year before year zero carries a sign.
-/

set_option autoImplicit false

namespace AtomProbe.Calendar

/-- The decimal digits of `n` with zeros in front up to `width`. -/
def padded (width n : Nat) : List Char :=
  let digits := Nat.toDigits 10 n
  List.replicate (width - digits.length) '0' ++ digits

/-- The years that a timestamp may lie in. -/
def isWritableYear (year : Int) : Bool := -9999 ≤ year && year ≤ 9999

/-- The number of seconds in a day. -/
def secondsPerDay : Int := 86400

/-- The text of a date. -/
def Date.write (d : Date) : List Char :=
  (if d.year < 0 then ['-'] else []) ++ padded 4 d.year.natAbs ++
    '-' :: padded 2 d.month.toNat ++ '-' :: padded 2 d.day.toNat

/-- The text of a second of the day. -/
def writeTime (second : Nat) : List Char :=
  padded 2 (second / 3600) ++ ':' :: padded 2 (second / 60 % 60) ++ ':' :: padded 2 (second % 60)

/-- The text of a timestamp, if its year can be written. -/
def iso8601? (seconds : Int) : Option String :=
  let date := Date.ofDayNumber (seconds / secondsPerDay)
  if isWritableYear date.year then
    some <| String.ofList <| date.write ++ 'T' :: writeTime (seconds % secondsPerDay).toNat ++
      ['+', '0', '0', ':', '0', '0']
  else none

end AtomProbe.Calendar
