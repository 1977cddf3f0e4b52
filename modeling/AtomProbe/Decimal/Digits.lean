/-!
# `AtomProbe.Decimal.Digits`: whole numbers as texts

A whole number is an optional sign and one or more digits of a base.
Nothing else may stand in the text: no blanks, no separators, no base
mark.
-/

set_option autoImplicit false

namespace AtomProbe.Decimal

/-- The value of a digit of the base; letters of either case follow
the nine. -/
def digit? (base : Nat) (c : Char) : Option Nat :=
  let value :=
    if '0' ≤ c ∧ c ≤ '9' then c.toNat - 48
    else if 'a' ≤ c ∧ c ≤ 'z' then c.toNat - 87
    else if 'A' ≤ c ∧ c ≤ 'Z' then c.toNat - 55
    else base
  if value < base then some value else none

/-- Read digits on from the number `acc` that the earlier ones gave. -/
def accumulate (base acc : Nat) : List Char → Option Nat
  | [] => some acc
  | c :: cs => (digit? base c).bind fun d => accumulate base (acc * base + d) cs

/-- One or more digits of the base. -/
def natural? (base : Nat) (cs : List Char) : Option Nat :=
  if cs.isEmpty then none else accumulate base 0 cs

/-- An optional sign and one or more digits of the base. -/
def integer? (base : Nat) : List Char → Option Int
  | '+' :: cs => (natural? base cs).map fun n => (n : Int)
  | '-' :: cs => (natural? base cs).map fun n => -(n : Int)
  | cs => (natural? base cs).map fun n => (n : Int)

/-- The number as a signed 64-bit word, if it is one. -/
def toInt64? (n : Int) : Option Int64 :=
  if -Int.pow 2 63 ≤ n ∧ n < Int.pow 2 63 then some (Int64.ofInt n) else none

/-- The number as an unsigned 32-bit word, if it is one. -/
def toUInt32? (n : Int) : Option UInt32 :=
  if 0 ≤ n ∧ n < Int.pow 2 32 then some (UInt32.ofNat n.toNat) else none

/-- A signed 64-bit word written in base ten. -/
def int64? (cs : List Char) : Option Int64 :=
  (integer? 10 cs).bind toInt64?

theorem toInt_of_toInt64? {n : Int} {w : Int64} (h : toInt64? n = some w) : w.toInt = n := by
  unfold toInt64? at h
  split at h
  · next hn => cases h; exact Int64.toInt_ofInt_of_le hn.1 hn.2
  · cases h

end AtomProbe.Decimal
