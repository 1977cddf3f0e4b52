import AtomProbe.Decimal.Real

/-!
# `AtomProbe.Decimal.Shortest`: the fewest digits that read back

A finite float is written with as few significant digits as a reader
needs to get the same float again, and among the numerals with that
many digits the nearest one is taken. The search tries one digit, two
digits and so on up to seventeen; on each of these grids only the two
neighbours of the exact value can be nearest. Should none of them read
back, the exact value is taken, which always does.

Main statement: `Significand.value_shortest?`, a numeral that the
search returns reads back.
-/

set_option autoImplicit false

namespace AtomProbe.Decimal

/-- The positive decimal number `digits * 10 ^ exponent`. -/
structure Significand where
  digits : Nat
  exponent : Int
  deriving DecidableEq, Repr

/-- Which of two neighbours at the same distance is taken. -/
inductive Tie
  | up
  | toEven
  deriving DecidableEq, Repr

/-- A positive fraction, the exact value of a positive float. -/
structure Fraction where
  numerator : Nat
  denominator : Nat

namespace Fraction

/-- The exact value of the absolute value of a finite float. -/
def ofFloat (x : Float) : Fraction :=
  let bits := x.toBits.toNat % Nat.pow 2 63
  let field := bits / Nat.pow 2 52
  let mantissa := bits % Nat.pow 2 52
  -- the smallest exponent lacks the leading bit of the mantissa
  if field = 0 then ⟨mantissa, Nat.pow 2 1074⟩
  else if 1075 ≤ field then ⟨(mantissa + Nat.pow 2 52) * Nat.pow 2 (field - 1075), 1⟩
  else ⟨mantissa + Nat.pow 2 52, Nat.pow 2 (1075 - field)⟩

/-- The fraction over ten to the given power. -/
def overTen (v : Fraction) (exponent : Int) : Fraction :=
  if exponent < 0 then ⟨v.numerator * Nat.pow 10 exponent.natAbs, v.denominator⟩
  else ⟨v.numerator, v.denominator * Nat.pow 10 exponent.natAbs⟩

/-- Raise the exponent until the power of ten exceeds the fraction. -/
def magnitudeUp (v : Fraction) : Nat → Int → Int
  | 0, e => e
  | fuel + 1, e =>
    let w := v.overTen e
    if w.denominator ≤ w.numerator then magnitudeUp v fuel (e + 1) else e

/-- The power `e` of ten with `10 ^ (e - 1) ≤ v < 10 ^ e`, for a
positive fraction of the size of a float. -/
def magnitude (v : Fraction) : Int :=
  let bits : Int := (v.numerator.log2 : Int) - (v.denominator.log2 : Int)
  -- the decimal logarithm of a power of two not above the fraction
  magnitudeUp v 400 (Int.fdiv ((bits - 1) * 30103) 100000)

end Fraction

namespace Significand

/-- The float that the decimal number reads as. -/
def value (s : Significand) : Float := scale s.digits s.exponent

/-- Move zeros at the end of the digits, at most `fuel` of them, into
the exponent. -/
def trimZeros (digits : Nat) (exponent : Int) : (fuel : Nat) → Significand
  | 0 => ⟨digits, exponent⟩
  | fuel + 1 =>
    if digits % 10 = 0 ∧ digits ≠ 0 then trimZeros (digits / 10) (exponent + 1) fuel
    else ⟨digits, exponent⟩

/-- The nearest of the two neighbours on a decimal grid that read back
as `x`, if one of them does. -/
def onGrid? (tie : Tie) (x : Float) (v : Fraction) (exponent : Int) : Option Significand :=
  let w := v.overTen exponent
  -- the exact value lies from `low` up to `low + 1` units of the grid
  let low := w.numerator / w.denominator
  let rest := w.numerator % w.denominator
  let upperFirst : Bool :=
    if 2 * rest = w.denominator then tie == .up || low % 2 == 1
    else decide (w.denominator < 2 * rest)
  let candidates := if upperFirst then [low + 1, low] else [low, low + 1]
  (candidates.map fun digits => trimZeros digits exponent 20).find? fun s =>
    s.value.toBits == x.toBits

/-- The first grid with a numeral that reads back, from the coarsest. -/
def shortest? (tie : Tie) (x : Float) (v : Fraction) (magnitude : Int) :
    List Nat → Option Significand
  | [] => none
  | n :: ns =>
    match onGrid? tie x v (magnitude - n) with
    | some s => some s
    | none => shortest? tie x v magnitude ns

/-- The exact value of the fraction of a float, whose denominator is a
power of two. -/
def exact (v : Fraction) : Significand :=
  let places := v.denominator.log2
  ⟨v.numerator * Nat.pow 5 places, -(places : Int)⟩

/-- The fewest digits that read back as the positive finite float `x`,
without zeros at the end. -/
def ofFloat (tie : Tie) (x : Float) : Significand :=
  let v := Fraction.ofFloat x
  (shortest? tie x v v.magnitude (List.range' 1 17)).getD (exact v)

theorem value_onGrid? {tie : Tie} {x : Float} {v : Fraction} {e : Int} {s : Significand}
    (h : onGrid? tie x v e = some s) : s.value.toBits = x.toBits := by
  unfold onGrid? at h
  simpa using List.find?_some h

/-- A numeral that the search returns reads back. -/
theorem value_shortest? {tie : Tie} {x : Float} {v : Fraction} {magnitude : Int}
    {grids : List Nat} {s : Significand} (h : shortest? tie x v magnitude grids = some s) :
    s.value.toBits = x.toBits := by
  induction grids with
  | nil => simp [shortest?] at h
  | cons n ns ih =>
    rw [shortest?] at h
    split at h
    · next hs => cases h; exact value_onGrid? hs
    · exact ih h

end Significand

end AtomProbe.Decimal
