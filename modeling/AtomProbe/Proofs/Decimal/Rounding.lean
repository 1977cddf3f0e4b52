import Mathlib.Algebra.Order.Field.Power
import Mathlib.Algebra.Order.Field.Rat
import Mathlib.Tactic.FieldSimp
import Mathlib.Tactic.Linarith
import Mathlib.Tactic.Positivity
import Mathlib.Tactic.Ring

/-!
# `AtomProbe.Proofs.Decimal.Rounding`: a rounded float depends on the value alone

Products, quotients and numerals are rounded to a float from a mantissa
with two more bits, the round bit and the sticky bit. These say exactly
where the value lies between two neighbours (`Represents`), and shifting
keeps that so. Hence two computations that begin with enough bits of the
same value end with the same float (`IsRounded.unique`), and a value that
is a float already is rounded to itself (`isRounded_of_isCanonical`).
-/

set_option autoImplicit false

namespace AtomProbe.Decimal

open Float.Model (Format UnpackedFloat totalExponent)
open Float.Model.UnpackedFloat

/-! ### A mantissa and what it leaves out -/

/-- Where the value `x` lies between the mantissa and its successor. -/
structure Represents (em : ExtendedMantissa) (x : ℚ) : Prop where
  le : (em.mantissa : ℚ) ≤ x
  lt : x < em.mantissa + 1
  roundBit : em.roundBit = true ↔ (em.mantissa : ℚ) + 1 / 2 ≤ x
  stickyBit : em.stickyBit = true ↔ x ≠ em.mantissa ∧ x ≠ em.mantissa + 1 / 2

/-- The mantissa and its bits are determined by the value. -/
theorem Represents.unique {em em' : ExtendedMantissa} {x : ℚ} (h : Represents em x)
    (h' : Represents em' x) : em = em' := by
  have hmantissa : em.mantissa = em'.mantissa := by
    have hlt : (em.mantissa : ℚ) < em'.mantissa + 1 := lt_of_le_of_lt h.le h'.lt
    have hlt' : (em'.mantissa : ℚ) < em.mantissa + 1 := lt_of_le_of_lt h'.le h.lt
    norm_cast at hlt hlt'
    omega
  have hround : em.roundBit = em'.roundBit := by
    rw [Bool.eq_iff_iff, h.roundBit, h'.roundBit, hmantissa]
  have hsticky : em.stickyBit = em'.stickyBit := by
    rw [Bool.eq_iff_iff, h.stickyBit, h'.stickyBit, hmantissa]
  cases em
  cases em'
  simp_all

/-- Halving a value moves the last bit of its mantissa into the round bit,
and the round bit into the sticky bit. -/
theorem Represents.shiftRightOne {em : ExtendedMantissa} {x : ℚ} (h : Represents em x) :
    Represents em.shiftRightOne (x / 2) := by
  obtain ⟨m, r, s⟩ := em
  obtain ⟨hle, hlt, hround, hsticky⟩ := h
  simp only at hle hlt hround hsticky
  -- the two bits together tell whether the mantissa is the whole value
  have hbits : (r || s) = true ↔ x ≠ m := by
    rw [Bool.or_eq_true, hround, hsticky]
    constructor
    · rintro (hr | hs) heq
      · linarith
      · exact hs.1 heq
    · intro hne
      by_cases hr : (m : ℚ) + 1 / 2 ≤ x
      · exact .inl hr
      · exact .inr ⟨hne, fun heq => hr (le_of_eq heq.symm)⟩
  have hm : (m : ℚ) = 2 * (m / 2 : ℕ) + (m % 2 : ℕ) := by
    exact_mod_cast (Nat.div_add_mod m 2).symm
  have hshift : (⟨m, r, s⟩ : ExtendedMantissa).shiftRightOne = ⟨m / 2, m % 2 != 0, r || s⟩ := rfl
  rw [hshift]
  generalize m / 2 = half at hm
  -- the bit that moves out of the mantissa is the half of the new one
  rcases Nat.mod_two_eq_zero_or_one m with hmod | hmod
  · rw [hmod] at hm ⊢
    rw [Nat.cast_zero, add_zero] at hm
    refine ⟨?_, ?_, ?_, ?_⟩
    · show (half : ℚ) ≤ x / 2
      linarith
    · show x / 2 < half + 1
      linarith
    · simp only [bne_self_eq_false, Bool.false_eq_true, false_iff, not_le]
      linarith
    · rw [hbits]
      constructor
      · intro hne
        exact ⟨fun heq => hne (by linarith), fun heq => absurd hlt (by linarith)⟩
      · rintro ⟨hne, -⟩ heq
        exact hne (by linarith)
  · rw [hmod] at hm ⊢
    rw [Nat.cast_one] at hm
    refine ⟨?_, ?_, ?_, ?_⟩
    · show (half : ℚ) ≤ x / 2
      linarith
    · show x / 2 < half + 1
      linarith
    · have hone : ((1 : ℕ) != 0) = true := rfl
      simp only [hone, true_iff]
      linarith
    · rw [hbits]
      constructor
      · intro hne
        exact ⟨fun heq => absurd hle (by linarith), fun heq => hne (by linarith)⟩
      · rintro ⟨-, hne⟩ heq
        exact hne (by linarith)

theorem Represents.shiftRight {em : ExtendedMantissa} {x : ℚ} (h : Represents em x) (n : ℕ) :
    Represents (em >>> n) (x / 2 ^ n) := by
  show Represents (n.repeat ExtendedMantissa.shiftRightOne em) _
  induction n with
  | zero =>
    rw [pow_zero, div_one]
    exact h
  | succ n ih =>
    rw [pow_succ, ← div_div]
    exact ih.shiftRightOne

/-- A mantissa on its own stands for a whole value. -/
theorem represents_exact (m : ℕ) :
    Represents (ExtendedMantissa.ofMantissaAndAccuracy m .exact) m := by
  refine ⟨le_refl _, by simp [ExtendedMantissa.ofMantissaAndAccuracy], ?_, ?_⟩
  · simp [ExtendedMantissa.ofMantissaAndAccuracy]
  · simp [ExtendedMantissa.ofMantissaAndAccuracy]

/-- A quotient with its remainder. -/
theorem represents_div (m : ℕ) {n : ℕ} (hn : 0 < n) :
    Represents (ExtendedMantissa.ofMantissaAndAccuracy (m / n) (accuracyOfFraction (m % n) n))
      (m / n) := by
  have hcast : (0 : ℚ) < n := by exact_mod_cast hn
  have hvalue : (m : ℚ) / n = (m / n : ℕ) + (m % n : ℕ) / n := by
    field_simp
    exact_mod_cast (Nat.div_add_mod m n).symm
  have hmod : m % n < n := Nat.mod_lt m hn
  rw [hvalue]
  generalize m / n = q
  generalize m % n = r at hmod
  have hlt : (r : ℚ) / n < 1 := by
    rw [div_lt_one hcast]
    exact_mod_cast hmod
  unfold accuracyOfFraction
  split
  · next hr =>
    rw [hr, Nat.cast_zero, zero_div, add_zero]
    exact represents_exact q
  · next hr =>
    have hpos : 0 < (r : ℚ) / n := div_pos (by exact_mod_cast Nat.pos_of_ne_zero hr) hcast
    -- twice the remainder tells on which side of the half the value lies
    rcases lt_trichotomy (2 * r) n with h | h | h
    · have hhalf : (r : ℚ) / n < 1 / 2 := by
        rw [div_lt_div_iff₀ hcast two_pos]
        exact_mod_cast (by omega : r * 2 < 1 * n)
      rw [Nat.compare_eq_lt.2 h]
      show Represents ⟨q, false, true⟩ _
      refine ⟨by simpa using hpos.le, by simpa using hlt, ?_, ?_⟩
      · simpa using hhalf
      · simp only [true_iff]
        exact ⟨by linarith, by linarith⟩
    · have hhalf : (r : ℚ) / n = 1 / 2 := by
        rw [div_eq_div_iff hcast.ne' two_ne_zero]
        exact_mod_cast (by omega : r * 2 = 1 * n)
      rw [Nat.compare_eq_eq.2 h]
      show Represents ⟨q, true, false⟩ _
      refine ⟨by simpa using hpos.le, by simpa using hlt, ?_, ?_⟩
      · simpa using hhalf.ge
      · simp [hhalf]
    · have hhalf : 1 / 2 < (r : ℚ) / n := by
        rw [div_lt_div_iff₀ two_pos hcast]
        exact_mod_cast (by omega : 1 * n < r * 2)
      rw [Nat.compare_eq_gt.2 h]
      show Represents ⟨q, true, true⟩ _
      refine ⟨by simpa using hpos.le, by simpa using hlt, ?_, ?_⟩
      · simpa using hhalf.le
      · simp only [true_iff]
        exact ⟨by linarith, by linarith⟩

/-! ### Rounding -/

/-- Enough bits of a value to round it to a float. -/
structure Approximates (m : ℕ) (e : ℤ) (a : Accuracy) (v : ℚ) : Prop where
  represents : Represents (ExtendedMantissa.ofMantissaAndAccuracy m a) (v / 2 ^ e)
  le : e ≤ Format.binary64.targetExponent (totalExponent m e)

theorem targetExponent_eq (x : ℤ) :
    Format.binary64.targetExponent x = max (x - 53) (-1074) := by
  have hmin : Format.binary64.minExponent = -1074 := by decide
  have hbits : Format.binary64.mantissaBits = 53 := by decide
  unfold Format.targetExponent
  rw [hmin, hbits]
  rfl

theorem target_total (m : ℕ) (e : ℤ) :
    Format.binary64.targetExponent (totalExponent m e) = max (m.log2 + e - 52) (-1074) := by
  rw [targetExponent_eq]
  show max ((m.log2 : ℤ) + 1 + e - 53) (-1074) = _
  omega

/-- The mantissa is the value in units of its last bit, cut off. -/
theorem Approximates.bounds {m : ℕ} {e : ℤ} {a : Accuracy} {v : ℚ} (h : Approximates m e a v) :
    (m : ℚ) * 2 ^ e ≤ v ∧ v < (m + 1) * 2 ^ e := by
  have hpos : (0 : ℚ) < 2 ^ e := zpow_pos two_pos e
  have hmantissa : (ExtendedMantissa.ofMantissaAndAccuracy m a).mantissa = m := by
    cases a with
    | exact => rfl
    | inexact o => cases o <;> rfl
  have hle := h.represents.le
  have hlt := h.represents.lt
  rw [hmantissa] at hle hlt
  exact ⟨(le_div_iff₀ hpos).1 hle, (div_lt_iff₀ hpos).1 hlt⟩

/-- A mantissa that is not zero gives the place of the first bit of the
value. -/
theorem Approximates.log2_bounds {m : ℕ} {e : ℤ} {a : Accuracy} {v : ℚ}
    (h : Approximates m e a v) (hm : m ≠ 0) :
    (2 : ℚ) ^ (m.log2 + e) ≤ v ∧ v < 2 ^ (m.log2 + e + 1) := by
  have hpos : (0 : ℚ) < 2 ^ e := zpow_pos two_pos e
  have hle : (2 : ℚ) ^ m.log2 ≤ m := by exact_mod_cast Nat.log2_self_le hm
  have hlt : (m : ℚ) + 1 ≤ 2 ^ (m.log2 + 1) := by exact_mod_cast Nat.lt_log2_self
  constructor
  · calc (2 : ℚ) ^ (m.log2 + e) = 2 ^ m.log2 * 2 ^ e := by
          rw [zpow_add₀ two_ne_zero, zpow_natCast]
      _ ≤ m * 2 ^ e := mul_le_mul_of_nonneg_right hle hpos.le
      _ ≤ v := h.bounds.1
  · calc v < (m + 1) * 2 ^ e := h.bounds.2
      _ ≤ 2 ^ (m.log2 + 1) * 2 ^ e := mul_le_mul_of_nonneg_right hlt hpos.le
      _ = 2 ^ (m.log2 + e + 1) := by
          rw [← zpow_natCast, ← zpow_add₀ two_ne_zero]
          congr 1
          push_cast
          ring

/-- Without a mantissa the value is below all units in use. -/
theorem Approximates.lt_of_zero {m : ℕ} {e e' : ℤ} {a a' : Accuracy} {v : ℚ}
    (h : Approximates 0 e a v) (h' : Approximates m e' a' v) (hm : m ≠ 0) : m.log2 + e' < e := by
  have hlt : v < 2 ^ e := by simpa using h.bounds.2
  exact (zpow_lt_zpow_iff_right₀ (one_lt_two : (1 : ℚ) < 2)).1
    (lt_of_le_of_lt (h'.log2_bounds hm).1 hlt)

/-- The exponent of the float that a value is rounded to. -/
theorem Approximates.target_eq {m m' : ℕ} {e e' : ℤ} {a a' : Accuracy} {v : ℚ}
    (h : Approximates m e a v) (h' : Approximates m' e' a' v) :
    Format.binary64.targetExponent (totalExponent m e) =
      Format.binary64.targetExponent (totalExponent m' e') := by
  have hle := h.le
  have hle' := h'.le
  rw [target_total] at hle hle' ⊢
  rw [target_total]
  have hzero : (0 : ℕ).log2 = 0 := by decide
  by_cases hm : m = 0
  · subst hm
    by_cases hm' : m' = 0
    · subst hm'
      omega
    · have hlt := h.lt_of_zero h' hm'
      omega
  · by_cases hm' : m' = 0
    · subst hm'
      have hlt := h'.lt_of_zero h hm
      omega
    · -- the value lies in one binade
      have hlt : (m.log2 : ℤ) + e < m'.log2 + e' + 1 :=
        (zpow_lt_zpow_iff_right₀ (one_lt_two : (1 : ℚ) < 2)).1
          (lt_of_le_of_lt (h.log2_bounds hm).1 (h'.log2_bounds hm').2)
      have hlt' : (m'.log2 : ℤ) + e' < m.log2 + e + 1 :=
        (zpow_lt_zpow_iff_right₀ (one_lt_two : (1 : ℚ) < 2)).1
          (lt_of_le_of_lt (h'.log2_bounds hm').1 (h.log2_bounds hm).2)
      omega

/-- The first shift brings the mantissa to the last bit of the float. -/
theorem Approximates.shift {m : ℕ} {e : ℤ} {a : Accuracy} {v : ℚ} (h : Approximates m e a v) :
    ∃ em, shiftToTargetExponent Format.binary64 m e a =
        (em, Format.binary64.targetExponent (totalExponent m e)) ∧
      Represents em (v / 2 ^ Format.binary64.targetExponent (totalExponent m e)) := by
  have hle := h.le
  generalize htarget : Format.binary64.targetExponent (totalExponent m e) = t at hle
  have hshift : ((t - e).toNat : ℤ) = t - e := Int.toNat_of_nonneg (by omega)
  refine ⟨ExtendedMantissa.ofMantissaAndAccuracy m a >>> (t - e).toNat, ?_, ?_⟩
  · unfold shiftToTargetExponent shiftToExponent
    rw [htarget]
    have hexponent : e + ((t - e).toNat : ℤ) = t := by omega
    simp only [hexponent]
  · have hvalue : v / 2 ^ t = v / 2 ^ e / 2 ^ (t - e).toNat := by
      rw [div_div, ← zpow_natCast, ← zpow_add₀ two_ne_zero, hshift]
      congr 2
      omega
    rw [hvalue]
    exact h.represents.shiftRight _

/-- Two approximations of one value are rounded to the same float. -/
theorem Approximates.round_eq {m m' : ℕ} {e e' : ℤ} {a a' : Accuracy} {v : ℚ}
    (h : Approximates m e a v) (h' : Approximates m' e' a' v) (s : Sign) :
    roundWithAccuracy Format.binary64 s m e a = roundWithAccuracy Format.binary64 s m' e' a' := by
  obtain ⟨em, hshift, hem⟩ := h.shift
  obtain ⟨em', hshift', hem'⟩ := h'.shift
  rw [h.target_eq h'] at hshift hem
  unfold roundWithAccuracy
  rw [hshift, hshift', hem.unique hem']

/-- The positive value `v` is rounded to `u`. -/
def IsRounded (v : ℚ) (u : UnpackedFloat) : Prop :=
  ∃ m e a, Approximates m e a v ∧ u = roundWithAccuracy Format.binary64 .positive m e a

/-- A value is rounded to one float only. -/
theorem IsRounded.unique {v : ℚ} {u u' : UnpackedFloat} (h : IsRounded v u)
    (h' : IsRounded v u') : u = u' := by
  obtain ⟨m, e, a, happroximates, rfl⟩ := h
  obtain ⟨m', e', a', happroximates', rfl⟩ := h'
  exact happroximates.round_eq happroximates' .positive

/-! ### Values that are floats -/

/-- The mantissa and the exponent of a positive finite float. -/
structure IsCanonical (m : ℕ) (e : ℤ) : Prop where
  pos : 0 < m
  lt : m < 2 ^ 53
  le : -1074 ≤ e
  ge : e ≤ 971
  /-- Only the smallest exponent lacks the leading bit of the mantissa. -/
  leading : 2 ^ 52 ≤ m ∨ e = -1074

theorem IsCanonical.target_eq {m : ℕ} {e : ℤ} (h : IsCanonical m e) :
    Format.binary64.targetExponent (totalExponent m e) = e := by
  have hlt : m.log2 < 53 := (Nat.log2_lt h.pos.ne').2 h.lt
  have hle := h.le
  rw [target_total]
  rcases h.leading with hleading | hleading
  · have hge : 52 ≤ m.log2 := (Nat.le_log2 h.pos.ne').2 hleading
    omega
  · omega

/-- Exact bits of a value. -/
theorem approximates_exact {m : ℕ} {e : ℤ}
    (h : e ≤ Format.binary64.targetExponent (totalExponent m e)) :
    Approximates m e .exact (m * 2 ^ e) := by
  refine ⟨?_, h⟩
  rw [mul_div_cancel_right₀ _ (zpow_ne_zero e two_ne_zero)]
  exact represents_exact m

theorem IsCanonical.round_eq {m : ℕ} {e : ℤ} (h : IsCanonical m e) (s : Sign) :
    roundWithAccuracy Format.binary64 s m e .exact = .finite s m e h.pos := by
  have hzero : (e - e).toNat = 0 := by omega
  have hshift : shiftToTargetExponent Format.binary64 m e .exact = (⟨m, false, false⟩, e) := by
    unfold shiftToTargetExponent shiftToExponent
    rw [h.target_eq]
    show (ExtendedMantissa.ofMantissaAndAccuracy m .exact >>> (e - e).toNat,
      e + ((e - e).toNat : ℤ)) = _
    rw [hzero, Int.natCast_zero, add_zero]
    rfl
  have hrounded : (⟨m, false, false⟩ : ExtendedMantissa).roundedMantissa = m := rfl
  unfold roundWithAccuracy
  rw [hshift]
  dsimp only
  rw [hrounded, hshift]
  exact dif_neg h.pos.ne'

/-- A value that is a float already is rounded to itself. -/
theorem isRounded_of_isCanonical {m : ℕ} {e : ℤ} (h : IsCanonical m e) :
    IsRounded (m * 2 ^ e) (.finite .positive m e h.pos) :=
  ⟨m, e, .exact, approximates_exact h.target_eq.ge, (h.round_eq .positive).symm⟩

/-! ### Products and quotients -/

/-- A product with enough bits. -/
theorem isRounded_mul {m m' : ℕ} {e e' : ℤ} (hm : 0 < m) (hm' : 0 < m')
    (hbits : 2 ^ 52 ≤ m * m') :
    IsRounded ((m * 2 ^ e) * (m' * 2 ^ e')) (mul Format.binary64 (.finite .positive m e hm)
      (.finite .positive m' e' hm')) := by
  have hvalue : ((m : ℚ) * 2 ^ e) * (m' * 2 ^ e') = (m * m' : ℕ) * 2 ^ (e + e') := by
    rw [zpow_add₀ two_ne_zero]
    push_cast
    ring
  have hlog : 52 ≤ (m * m').log2 := (Nat.le_log2 (Nat.mul_pos hm hm').ne').2 hbits
  rw [hvalue]
  refine ⟨m * m', e + e', .exact, approximates_exact ?_, rfl⟩
  rw [target_total]
  omega

/-- A quotient. The dividend is shifted until the quotient has enough
bits. -/
theorem isRounded_div {m m' : ℕ} {e e' : ℤ} (hm : 0 < m) (hm' : 0 < m') :
    IsRounded ((m * 2 ^ e) / (m' * 2 ^ e')) (div Format.binary64 (.finite .positive m e hm)
      (.finite .positive m' e' hm')) := by
  generalize htarget : min (e - e') (Format.binary64.targetExponent
    (totalExponent m e - totalExponent m' e')) = t
  have hdiv : div Format.binary64 (.finite .positive m e hm) (.finite .positive m' e' hm') =
      roundWithAccuracy Format.binary64 .positive ((m <<< (e - e' - t).toNat) / m') t
        (accuracyOfFraction ((m <<< (e - e' - t).toNat) % m') m') := by
    rw [← htarget]
    rfl
  have hshift : ((e - e' - t).toNat : ℤ) = e - e' - t := Int.toNat_of_nonneg (by omega)
  generalize (e - e' - t).toNat = k at hdiv hshift
  rw [Nat.shiftLeft_eq] at hdiv
  refine ⟨m * 2 ^ k / m', t, _, ⟨?_, ?_⟩, hdiv⟩
  · have hvalue : (m : ℚ) * 2 ^ e / (m' * 2 ^ e') / 2 ^ t = (m * 2 ^ k : ℕ) / m' := by
      have hpow : (2 : ℚ) ^ e = 2 ^ k * 2 ^ e' * 2 ^ t := by
        rw [← zpow_natCast, ← zpow_add₀ two_ne_zero, ← zpow_add₀ two_ne_zero]
        congr 1
        omega
      rw [hpow]
      push_cast
      field_simp
    rw [hvalue]
    exact represents_div _ hm'
  · rw [targetExponent_eq] at htarget
    have htotal (n : ℕ) (x : ℤ) : totalExponent n x = n.log2 + 1 + x := rfl
    rw [htotal, htotal] at htarget
    rw [target_total]
    -- at the least exponent any number of bits will do
    by_cases ht : t ≤ -1074
    · omega
    · have hle : 52 + (m'.log2 + 1) ≤ m.log2 + k := by omega
      have hquotient : 2 ^ 52 ≤ m * 2 ^ k / m' := by
        rw [Nat.le_div_iff_mul_le hm']
        calc 2 ^ 52 * m' ≤ 2 ^ 52 * 2 ^ (m'.log2 + 1) :=
              Nat.mul_le_mul_left _ (Nat.lt_log2_self).le
          _ = 2 ^ (52 + (m'.log2 + 1)) := (Nat.pow_add 2 52 _).symm
          _ ≤ 2 ^ (m.log2 + k) := Nat.pow_le_pow_right two_pos hle
          _ = 2 ^ m.log2 * 2 ^ k := Nat.pow_add 2 _ _
          _ ≤ m * 2 ^ k := Nat.mul_le_mul_right _ (Nat.log2_self_le hm.ne')
      have hlog : 52 ≤ (m * 2 ^ k / m').log2 := by
        refine (Nat.le_log2 ?_).2 hquotient
        exact (lt_of_lt_of_le (Nat.two_pow_pos 52) hquotient).ne'
      omega

end AtomProbe.Decimal
