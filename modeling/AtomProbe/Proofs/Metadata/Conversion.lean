import AtomProbe.Metadata.Conversion
import AtomProbe.Proofs.Decimal.Integer
import AtomProbe.Proofs.Text.Blank

/-!
# `AtomProbe.Proofs.Metadata.Conversion`: values that are read as integers

There are three ways to read a value as an integer: as a number, as an
unsigned integer and as a timestamp. They read the same integers, each
as far as its words reach.

* `integerText?_eq_some_iff`: the texts that are read as an integer are
  numerals with blanks around them, of integers that fit into a word of
  64 bits.
* `integers_agree`: the three ways against each other and against the
  numerals. A numeral of an integer that does not fit is read as a real
  number, and never as another integer.
-/

set_option autoImplicit false

namespace AtomProbe.Decimal

theorem toInt64?_eq_some_iff {n : Int} {w : Int64} : toInt64? n = some w ↔ w.toInt = n := by
  refine ⟨toInt_of_toInt64?, ?_⟩
  rintro rfl
  have hrange : -Int.pow 2 63 ≤ w.toInt ∧ w.toInt < Int.pow 2 63 := ⟨w.le_toInt, w.toInt_lt⟩
  rw [toInt64?, if_pos hrange, Int64.ofInt_toInt]

theorem toUInt32?_eq_some_iff {n : Int} {w : UInt32} :
    toUInt32? n = some w ↔ (w.toNat : Int) = n := by
  have hpow : Int.pow 2 32 = (UInt32.size : Int) := rfl
  rw [toUInt32?, hpow]
  constructor
  · intro h
    split at h
    · next hn =>
      cases h
      rw [UInt32.toNat_ofNat_of_lt' (by omega)]
      omega
    · cases h
  · rintro rfl
    rw [if_pos ⟨by omega, Int.ofNat_lt.2 w.toNat_lt_size⟩, Int.toNat_natCast, UInt32.ofNat_toNat]

end AtomProbe.Decimal

namespace AtomProbe.Metadata

open Decimal (Denotes)
open Text (AllBlank)

/-- A text that holds a numeral of a whole number, with blanks around
it. -/
def Spells (s : String) (n : Int) : Prop :=
  ∃ before numeral after, s.toList = before ++ numeral ++ after ∧ AllBlank before ∧
    AllBlank after ∧ Denotes numeral n

/-- A value that is read as a number, and the number is an integer. -/
def IsInteger (value : Metadata) (n : Int) : Prop :=
  ∃ w : Int64, value.toNumber = .ok (.integer w) ∧ w.toInt = n

/-! ### Texts -/

/-- No character of a numeral is a blank. -/
theorem not_isBlank_of_denotes {cs : List Char} {n : Int} (h : Denotes cs n) {c : Char}
    (hc : c ∈ cs) : Text.isBlank c = false := by
  rcases h.mem hc with hdigit | rfl | rfl
  · rw [Decimal.isDigit, Bool.and_eq_true, decide_eq_true_iff, decide_eq_true_iff] at hdigit
    obtain ⟨hlow, hhigh⟩ := hdigit
    -- all blanks are smaller than the digits or larger
    have hlow : 48 ≤ c.toNat := UInt32.le_iff_toNat_le.1 hlow
    have hhigh : c.toNat ≤ 57 := UInt32.le_iff_toNat_le.1 hhigh
    simp only [Text.isBlank, Bool.or_eq_false_iff, Bool.and_eq_false_iff, decide_eq_false_iff_not,
      beq_eq_false_iff_ne]
    omega
  · decide
  · decide

theorem trimChars_of_denotes {before numeral after : List Char} {n : Int}
    (hbefore : AllBlank before) (hafter : AllBlank after) (h : Denotes numeral n) :
    Text.trimChars (before ++ numeral ++ after) = numeral :=
  Text.trimChars_append hbefore hafter
    (fun _ hc => not_isBlank_of_denotes h (List.mem_of_mem_head? hc))
    (fun _ hc => not_isBlank_of_denotes h (List.mem_of_mem_getLast? hc))

theorem spells_iff {s : String} {n : Int} :
    Spells s n ↔ Denotes (Text.trimChars s.toList) n := by
  constructor
  · rintro ⟨before, numeral, after, hs, hbefore, hafter, h⟩
    rw [hs, trimChars_of_denotes hbefore hafter h]
    exact h
  · intro h
    obtain ⟨before, after, hs, hbefore, hafter⟩ := Text.exists_eq_append_trimChars s.toList
    exact ⟨before, _, after, hs, hbefore, hafter, h⟩

/-- A text spells at most one integer. -/
theorem Spells.unique {s : String} {m n : Int} (hm : Spells s m) (hn : Spells s n) : m = n := by
  rw [spells_iff, ← Decimal.integer?_eq_some_iff] at hm hn
  exact Option.some.inj (hm.symm.trans hn)

/-- A text holds the integers that it spells, if they fit into a word. -/
theorem integerText?_eq_some_iff {s : String} {w : Int64} :
    integerText? s = some w ↔ Spells s w.toInt := by
  rw [integerText?, Decimal.int64?, Option.bind_eq_some_iff, spells_iff]
  simp only [Decimal.toInt64?_eq_some_iff, Decimal.integer?_eq_some_iff]
  exact ⟨fun ⟨n, hn, hw⟩ => hw ▸ hn, fun h => ⟨_, h, rfl⟩⟩

theorem toNumber_text_eq_integer_iff {s : String} {w : Int64} :
    (text s).toNumber = .ok (.integer w) ↔ integerText? s = some w := by
  rw [toNumber]
  cases integerText? s with
  | some n => simp
  | none => cases Decimal.real? (Text.trimChars s.toList) <;> simp

/-! ### Values -/

/-- The two ways to read a value as a 64-bit integer are the same. -/
theorem toTimestamp_eq_ok_iff {value : Metadata} {w : Int64} :
    value.toTimestamp = .ok w ↔ value.toNumber = .ok (.integer w) := by
  cases value with
  | text s =>
    rw [toNumber_text_eq_integer_iff, toTimestamp]
    cases integerText? s <;> simp
  | integer n => simp [toTimestamp, toNumber]
  | real x => simp [toTimestamp, toNumber]
  | boolean b => simp [toTimestamp, toNumber]
  | list items => simp [toTimestamp, toNumber]
  | records rows => simp [toTimestamp, toNumber]

/-- The unsigned integers of a value are its integers, as far as an
unsigned word reaches. -/
theorem toUnsigned_eq_ok_iff {value : Metadata} {n : UInt32} :
    value.toUnsigned = .ok n ↔ value.IsInteger n.toNat := by
  rw [toUnsigned, IsInteger]
  cases value.toNumber with
  | error e => simp
  | ok number =>
    cases number with
    | real x => simp
    | integer w =>
      simp only [Except.ok.injEq, Number.integer.injEq, exists_eq_left']
      rw [eq_comm (a := w.toInt), ← Decimal.toUInt32?_eq_some_iff]
      cases Decimal.toUInt32? w.toInt <;> simp

/-- The integers of a text are those that it spells and that fit into a
word. -/
theorem isInteger_text_iff {s : String} {n : Int} :
    IsInteger (.text s) n ↔ Spells s n ∧ -2 ^ 63 ≤ n ∧ n ≤ 2 ^ 63 - 1 := by
  simp only [IsInteger, toNumber_text_eq_integer_iff, integerText?_eq_some_iff]
  constructor
  · rintro ⟨w, hw, rfl⟩
    exact ⟨hw, w.le_toInt, Int.le_sub_one_of_lt w.toInt_lt⟩
  · rintro ⟨h, hlow, hhigh⟩
    have hw := Int64.toInt_ofInt_of_le hlow (Int.lt_of_le_sub_one hhigh)
    exact ⟨Int64.ofInt n, by rwa [hw], hw⟩

/-- An integer that fits into no word is read as a real number. -/
theorem exists_real_of_spells {s : String} {n : Int} (h : Spells s n)
    (hrange : ¬ (-2 ^ 63 ≤ n ∧ n ≤ 2 ^ 63 - 1)) : ∃ x, (text s).toNumber = .ok (.real x) := by
  have hnone : integerText? s = none := by
    rw [Option.eq_none_iff_forall_ne_some]
    intro w hw
    obtain rfl := h.unique (integerText?_eq_some_iff.1 hw)
    exact hrange ⟨w.le_toInt, Int.le_sub_one_of_lt w.toInt_lt⟩
  obtain ⟨x, hx⟩ := Decimal.exists_real?_of_denotes (spells_iff.1 h)
  exact ⟨x, by rw [toNumber, hnone, hx]⟩

/-- A timestamp is read from a value where an integer is, and an unsigned
integer where this integer is neither negative nor too large. A text is
read as an integer if it spells one that fits into 64 bits. So each such
integer is read back from its decimal text, with any blanks around it,
and one that does not fit is read as a real number instead. -/
theorem integers_agree :
    (∀ (value : Metadata) (n : Int),
      ((∃ w : Int64, value.toTimestamp = .ok w ∧ w.toInt = n) ↔ value.IsInteger n) ∧
      ((∃ w : UInt32, value.toUnsigned = .ok w ∧ w.toNat = n) ↔
        value.IsInteger n ∧ 0 ≤ n ∧ n ≤ 2 ^ 32 - 1)) ∧
    ∀ s : String,
      (∀ n, IsInteger (.text s) n ↔ Spells s n ∧ -2 ^ 63 ≤ n ∧ n ≤ 2 ^ 63 - 1) ∧
      (∀ before after (w : Int64), AllBlank before → AllBlank after →
        s.toList = before ++ (toString w.toInt).toList ++ after →
          (text s).toNumber = .ok (.integer w)) ∧
      ∀ n, Spells s n → ¬ (-2 ^ 63 ≤ n ∧ n ≤ 2 ^ 63 - 1) →
        ∃ x, (text s).toNumber = .ok (.real x) := by
  refine ⟨fun value n => ⟨?_, ?_⟩, fun s => ⟨fun n => isInteger_text_iff, ?_,
    fun n => exists_real_of_spells⟩⟩
  · simp only [toTimestamp_eq_ok_iff]
    rfl
  · simp only [toUnsigned_eq_ok_iff]
    constructor
    · rintro ⟨w, hw, rfl⟩
      exact ⟨hw, by omega, Int.le_sub_one_of_lt (Int.ofNat_lt.2 w.toNat_lt)⟩
    · rintro ⟨h, hlow, hhigh⟩
      -- the bounds are those of 32 bits, so nothing is cut off
      have hw : ((UInt32.ofNat n.toNat).toNat : Int) = n := by
        rw [UInt32.toNat_ofNat_of_lt' (by rw [UInt32.size]; omega)]
        omega
      exact ⟨UInt32.ofNat n.toNat, hw.symm ▸ h, hw⟩
  · intro before after w hbefore hafter hs
    rw [toNumber_text_eq_integer_iff, integerText?_eq_some_iff]
    exact ⟨before, _, after, hs, hbefore, hafter,
      Decimal.integer?_eq_some_iff.1 (Decimal.integer?_toString w.toInt)⟩

/-- The least word is read between blanks, and one below it is not read
as an integer. -/
theorem integers_agree_least :
    (text "\u2003-9223372036854775808\n").toNumber = .ok (.integer Int64.minValue) ∧
      Spells "-9223372036854775809" (-9223372036854775809) ∧
      ∃ x, (text "-9223372036854775809").toNumber = .ok (.real x) := by
  have hspells : Spells "-9223372036854775809" (-9223372036854775809) := by
    refine spells_iff.2 (Decimal.integer?_eq_some_iff.1 ?_)
    decide
  have hblank : AllBlank ['\u2003'] ∧ AllBlank ['\n'] := by
    simp only [AllBlank, List.forall_mem_singleton]
    decide
  refine ⟨?_, hspells, (integers_agree.2 _).2.2 _ hspells (by decide)⟩
  exact (integers_agree.2 _).2.1 ['\u2003'] ['\n'] Int64.minValue hblank.1 hblank.2
    (by decide)

end AtomProbe.Metadata
