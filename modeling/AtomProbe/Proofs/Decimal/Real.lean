import AtomProbe.Proofs.Decimal.Packing

/-!
# `AtomProbe.Proofs.Decimal.Real`: the shortest digits read back

A decimal number is read as the float that its value is rounded to
(`isReadAs_scale`). So the digits that the search for the shortest
numeral returns are read as the float that was written
(`value_ofFloat`), also where it falls back to the exact value, and any
other numeral with the same value is read as this float too
(`scale_eq_of_value`).
-/

set_option autoImplicit false

namespace AtomProbe.Decimal

open Float.Model (Format UnpackedFloat)
open Float.Model.UnpackedFloat

/-- The positive value `v` is read as the float `x`. -/
def IsReadAs (v : ℚ) (x : Float) : Prop :=
  ∃ u, IsRounded v u ∧ x = .ofModel (.pack u)

theorem IsReadAs.unique {v : ℚ} {x y : Float} (hx : IsReadAs v x) (hy : IsReadAs v y) :
    x = y := by
  obtain ⟨u, hu, rfl⟩ := hx
  obtain ⟨w, hw, rfl⟩ := hy
  rw [hu.unique hw]

theorem isReadAs_ofCanonical {m : ℕ} {e : ℤ} (h : IsCanonical m e) :
    IsReadAs (m * 2 ^ e) (ofCanonical .positive h) :=
  ⟨_, isRounded_of_isCanonical h, rfl⟩

/-! ### Decimal numbers -/

/-- The general way of reading a decimal number. -/
theorem isRounded_ofScientific {m : ℕ} (hm : 0 < m) {e : ℤ} (hle : e ≤ 2048)
    (hge : -2048 - (m.log2 : ℤ) ≤ e) :
    IsRounded (m * (10 : ℚ) ^ e) (ofScientific Format.binary64 m e) := by
  have hpow : (2 : ℤ) ^ Format.binary64.exponentBits = 2048 := by decide
  have hbits : Format.binary64.mantissaBits = 53 := by decide
  have hten (k : ℕ) : 0 < 10 ^ k := Nat.pow_pos (by decide)
  have hcast (k : ℕ) : ((10 ^ k : ℕ) : ℚ) = (10 : ℚ) ^ (k : ℤ) := by
    rw [zpow_natCast]
    push_cast
    rfl
  have hlarge : ¬ e > 2 ^ Format.binary64.exponentBits := by omega
  have hsmall : ¬ e < -((2 ^ Format.binary64.exponentBits : ℤ) + m.log2) := by omega
  -- the mantissa is multiplied by a power of ten or divided by one, and only
  -- the result is rounded
  by_cases he : 0 ≤ e
  · have hshift : m <<< 53 = m * 2 ^ 53 := Nat.shiftLeft_eq m 53
    have hpos : 0 < m <<< 53 := by omega
    have hmul : ofScientific Format.binary64 m e = mul Format.binary64
        (.finite .positive (m <<< 53) (-(53 : ℕ)) hpos)
        (.finite .positive (10 ^ e.toNat) 0 (hten e.toNat)) := by
      delta ofScientific
      rw [dif_neg hm.ne', if_neg hlarge, if_neg hsmall, if_pos he]
      rfl
    have hvalue : (m : ℚ) * (10 : ℚ) ^ e =
        ((m <<< 53 : ℕ) * 2 ^ (-(53 : ℕ) : ℤ)) * ((10 ^ e.toNat : ℕ) * 2 ^ (0 : ℤ)) := by
      rw [hcast, Int.toNat_of_nonneg he, hshift, zpow_neg, zpow_natCast, zpow_zero]
      push_cast
      field_simp
      norm_num
    rw [hmul, hvalue]
    refine isRounded_mul hpos (hten e.toNat) ?_
    calc 2 ^ 52 ≤ m <<< 53 * 1 := by omega
      _ ≤ m <<< 53 * 10 ^ e.toNat := Nat.mul_le_mul_left _ (hten e.toNat)
  · have hdiv : ofScientific Format.binary64 m e = div Format.binary64
        (.finite .positive m 0 hm) (.finite .positive (10 ^ (-e).toNat) 0 (hten (-e).toNat)) := by
      delta ofScientific
      rw [dif_neg hm.ne', if_neg hlarge, if_neg hsmall, if_neg he]
    have hvalue : (m : ℚ) * (10 : ℚ) ^ e =
        (m * 2 ^ (0 : ℤ)) / ((10 ^ (-e).toNat : ℕ) * 2 ^ (0 : ℤ)) := by
      rw [hcast, Int.toNat_of_nonneg (by omega), zpow_neg, zpow_zero, mul_one, mul_one,
        div_inv_eq_mul]
    rw [hdiv, hvalue]
    exact isRounded_div hm (hten (-e).toNat)

/-- A whole number that is a float. -/
theorem exists_toFloat {m : ℕ} (hm : 0 < m) (hlt : m < 2 ^ 53) :
    ∃ n e, ∃ h : IsCanonical n e, m.toUInt64.toFloat = ofCanonical .positive h ∧
      (n : ℚ) * 2 ^ e = m ∧ 2 ^ 52 ≤ n := by
  have hlog : m.log2 < 53 := (Nat.log2_lt hm.ne').2 hlt
  -- shifted until it has 53 bits, the number loses nothing
  obtain ⟨k, hk⟩ : ∃ k, m.log2 + k = 52 := ⟨52 - m.log2, by omega⟩
  have hle : 2 ^ 52 ≤ m * 2 ^ k := by
    calc 2 ^ 52 = 2 ^ m.log2 * 2 ^ k := by rw [← Nat.pow_add, hk]
      _ ≤ m * 2 ^ k := Nat.mul_le_mul_right _ (Nat.log2_self_le hm.ne')
  have hcanonical : IsCanonical (m * 2 ^ k) (-(k : ℤ)) := by
    have hlt : m * 2 ^ k < 2 ^ 53 := by
      calc m * 2 ^ k < 2 ^ (m.log2 + 1) * 2 ^ k :=
            Nat.mul_lt_mul_of_pos_right Nat.lt_log2_self (Nat.two_pow_pos k)
        _ = 2 ^ 53 := by rw [← Nat.pow_add]; congr 1; omega
    exact ⟨by omega, hlt, by omega, by omega, .inl hle⟩
  have hround : round Format.binary64 .positive m 0 =
      .finite .positive (m * 2 ^ k) (-(k : ℤ)) hcanonical.pos := by
    have htarget := target_total m 0
    have hshift : (0 - Format.binary64.targetExponent (Float.Model.totalExponent m 0)).toNat = k := by
      omega
    have hdecrease : round Format.binary64 .positive m 0 = roundWithAccuracy Format.binary64 .positive
        (m <<< (0 - Format.binary64.targetExponent (Float.Model.totalExponent m 0)).toNat)
        (0 - ((0 - Format.binary64.targetExponent (Float.Model.totalExponent m 0)).toNat : ℤ))
        .exact := rfl
    rw [hdecrease, hshift, Nat.shiftLeft_eq, zero_sub]
    exact hcanonical.round_eq .positive
  have hnormalize : normalize Format.binary64 (m : ℤ) 0 .positive =
      round Format.binary64 .positive m 0 := by
    have hcompare : compare (m : ℤ) 0 = .gt := by
      rw [compare_gt_iff_gt]
      omega
    delta Float.Model.UnpackedFloat.normalize
    rw [hcompare]
    rfl
  have hword : m.toUInt64.toNat = m := by
    have hsize : 2 ^ 53 < UInt64.size := by decide
    exact UInt64.toNat_ofNat_of_lt' (by omega)
  refine ⟨m * 2 ^ k, -(k : ℤ), hcanonical, ?_, ?_, hle⟩
  · show Float.ofModel (.pack (normalize Format.binary64 (m.toUInt64.toNat : ℤ) 0 .positive)) = _
    rw [hword, hnormalize, hround]
    rfl
  · rw [zpow_neg, zpow_natCast]
    push_cast
    field_simp

/-- The table of the powers of ten holds what it should. -/
theorem toBits_powerOfTen (k : Fin Float.exactlyRepresentablePowersOfTen.size) :
    ∃ n, (Float.exactlyRepresentablePowersOfTen[k]).toBits.toNat = n ∧
      2 ^ 52 ≤ n ∧ n < 2047 * 2 ^ 52 ∧
      (2 ^ 52 + n % 2 ^ 52) * 2 ^ (n / 2 ^ 52 - 1075) = 10 ^ k.val * 2 ^ (1075 - n / 2 ^ 52) := by
  refine ⟨_, rfl, ?_⟩
  revert k
  decide

/-- The powers of ten that are floats. -/
theorem exists_powerOfTen {k : ℕ} (hk : k < Float.exactlyRepresentablePowersOfTen.size) :
    ∃ n e, ∃ h : IsCanonical n e,
      Float.exactlyRepresentablePowersOfTen[k] = ofCanonical .positive h ∧
        (n : ℚ) * 2 ^ e = (10 : ℚ) ^ k := by
  obtain ⟨n, hn, hle, hlt, hvalue⟩ := toBits_powerOfTen ⟨k, hk⟩
  rw [Fin.getElem_fin] at hn
  obtain ⟨hcanonical, hencode⟩ := isCanonical_of_leading hle hlt
  refine ⟨_, _, hcanonical, eq_ofCanonical hcanonical ?_, ?_⟩
  · have hsign : Sign.positive.toBitVec.toNat = 0 := rfl
    rw [hencode, hsign, hn]
    omega
  · have hexponent : (n : ℤ) / 2 ^ 52 - 1075 =
        ((n / 2 ^ 52 - 1075 : ℕ) : ℤ) - ((1075 - n / 2 ^ 52 : ℕ) : ℤ) := by omega
    rw [hexponent, zpow_sub₀ two_ne_zero, zpow_natCast, zpow_natCast, ← mul_div_assoc,
      div_eq_iff (pow_ne_zero _ two_ne_zero)]
    exact_mod_cast hvalue

/-- A short number is read through the table, in one operation on exact
floats. -/
theorem isReadAs_table {m : ℕ} (hm : 0 < m) (hlt : m < 2 ^ 53) {k : ℕ}
    (hk : k < Float.exactlyRepresentablePowersOfTen.size) :
    IsReadAs (m * (10 : ℚ) ^ k)
        (m.toUInt64.toFloat * Float.exactlyRepresentablePowersOfTen[k]) ∧
      IsReadAs (m / (10 : ℚ) ^ k)
        (m.toUInt64.toFloat / Float.exactlyRepresentablePowersOfTen[k]) := by
  obtain ⟨n, e, h, hfloat, hvalue, hleading⟩ := exists_toFloat hm hlt
  obtain ⟨n', e', h', hfloat', hvalue'⟩ := exists_powerOfTen hk
  rw [hfloat, hfloat', ← hvalue, ← hvalue']
  refine ⟨⟨mul Format.binary64 (.finite .positive n e h.pos) (.finite .positive n' e' h'.pos),
    isRounded_mul h.pos h'.pos ?_, ?_⟩, ⟨_, isRounded_div h.pos h'.pos, ?_⟩⟩
  · calc 2 ^ 52 ≤ n * 1 := by omega
      _ ≤ n * n' := Nat.mul_le_mul_left _ h'.pos
  · show Float.ofModel (.pack (mul Format.binary64 (ofCanonical .positive h).toModel.unpack
      (ofCanonical .positive h').toModel.unpack)) = _
    rw [unpack_ofCanonical, unpack_ofCanonical]
  · show Float.ofModel (.pack (div Format.binary64 (ofCanonical .positive h).toModel.unpack
      (ofCanonical .positive h').toModel.unpack)) = _
    rw [unpack_ofCanonical, unpack_ofCanonical]

/-- A decimal number of any length. -/
theorem isReadAs_ofScientific {m : ℕ} (hm : 0 < m) {e : ℤ} (hle : e ≤ 2048)
    (hge : -2048 - (m.log2 : ℤ) ≤ e) :
    IsReadAs (m * (10 : ℚ) ^ e) (Float.ofScientific m (decide (e < 0)) e.natAbs) := by
  have hsize : Float.exactlyRepresentablePowersOfTen.size = 23 := rfl
  delta Float.ofScientific
  -- the number and the power of ten are floats themselves, if they are short
  by_cases hshort : m < 2 ^ 53 ∧ e.natAbs ≤ 22
  · rw [dif_pos hshort]
    have htable := isReadAs_table hm hshort.1 (by omega : e.natAbs < _)
    by_cases he : e < 0
    · have hexponent : (10 : ℚ) ^ e = ((10 : ℚ) ^ e.natAbs)⁻¹ := by
        rw [← zpow_natCast, ← zpow_neg]
        congr 1
        omega
      rw [hexponent, ← div_eq_mul_inv, decide_eq_true he]
      exact htable.2
    · have hexponent : (10 : ℚ) ^ e = (10 : ℚ) ^ e.natAbs := by
        rw [← zpow_natCast]
        congr 1
        omega
      rw [hexponent, decide_eq_false he]
      exact htable.1
  · rw [dif_neg hshort]
    refine ⟨_, isRounded_ofScientific hm hle hge, ?_⟩
    have hexponent : (if decide (e < 0) = true then Int.negOfNat e.natAbs
        else Int.ofNat e.natAbs) = e := by
      by_cases he : e < 0
      · rw [if_pos (decide_eq_true he), Int.negOfNat_eq]
        show -(e.natAbs : ℤ) = e
        omega
      · rw [if_neg (by simpa using he)]
        show (e.natAbs : ℤ) = e
        omega
    show Float.ofModel (Float.Model.ofScientific m
      (if decide (e < 0) = true then Int.negOfNat e.natAbs else Int.ofNat e.natAbs)) = _
    rw [hexponent]
    rfl

theorem isReadAs_scale {m : ℕ} (hm : 0 < m) {e : ℤ} (hle : e ≤ 400)
    (hge : -400 - (m.log2 : ℤ) ≤ e) : IsReadAs (m * (10 : ℚ) ^ e) (scale m e) := by
  rw [scale, if_neg hm.ne', if_neg (by omega), if_neg (by omega)]
  exact isReadAs_ofScientific hm (by omega) (by omega)

/-! ### The digits of a float -/

namespace Significand

variable {n : ℕ} {k : ℤ}

/-- What reads as a float other than zero is no zero and neither too
large nor too small. -/
theorem bounds_of_value {s : Significand} {h : IsCanonical n k}
    (hvalue : s.value = ofCanonical .positive h) :
    0 < s.digits ∧ s.exponent ≤ 400 ∧ -400 - (s.digits.log2 : ℤ) ≤ s.exponent := by
  have hsign : Sign.positive.toBitVec.toNat = 0 := rfl
  have hbits := toBits_ofCanonical .positive h
  have hpos := encode_pos h
  have hlt := encode_lt h
  have hzero : (Float.ofNat 0).toBits.toNat = 0 := by decide
  have hinfinity : infinity.toBits.toNat = 2047 * 2 ^ 52 := by decide
  rw [← hvalue, hsign, value, scale] at hbits
  split at hbits
  · omega
  · split at hbits
    · omega
    · split at hbits
      · omega
      · omega

/-- Numerals of one value are read as one float. -/
theorem scale_eq_of_value {s : Significand} {h : IsCanonical n k}
    (hvalue : s.value = ofCanonical .positive h) {m : ℕ} (hm : 0 < m) {e : ℤ} (hle : e ≤ 400)
    (hge : -400 - (m.log2 : ℤ) ≤ e)
    (heq : (m : ℚ) * (10 : ℚ) ^ e = s.digits * (10 : ℚ) ^ s.exponent) :
    scale m e = ofCanonical .positive h := by
  obtain ⟨hpos, hle', hge'⟩ := bounds_of_value hvalue
  have hscale := isReadAs_scale hm hle hge
  rw [heq] at hscale
  rw [← hvalue]
  exact hscale.unique (isReadAs_scale hpos hle' hge')

/-- The exact value is read as the float. -/
theorem value_exact (h : IsCanonical n k) :
    (exact (Fraction.ofFloat (ofCanonical .positive h))).value = ofCanonical .positive h := by
  have hfloat := isReadAs_ofCanonical h
  rw [ofFloat_ofCanonical]
  by_cases hk : 0 ≤ k
  · have hexact : exact ⟨n * 2 ^ k.toNat, 1⟩ = ⟨n * 2 ^ k.toNat, 0⟩ := by
      have hlog : (1 : ℕ).log2 = 0 := by decide
      rw [exact, hlog]
      simp
    have hvalue : (n : ℚ) * 2 ^ k = (n * 2 ^ k.toNat : ℕ) * (10 : ℚ) ^ (0 : ℤ) := by
      rw [zpow_zero, mul_one, ← Int.toNat_of_nonneg hk, zpow_natCast]
      push_cast
      rfl
    have hpos : 0 < n * 2 ^ k.toNat := Nat.mul_pos h.pos (Nat.two_pow_pos _)
    rw [if_pos hk, hexact]
    rw [hvalue] at hfloat
    show scale (n * 2 ^ k.toNat) 0 = _
    exact (isReadAs_scale hpos (by omega) (by omega)).unique hfloat
  · obtain ⟨p, hp⟩ : ∃ p : ℕ, k = -(p : ℤ) := ⟨(-k).toNat, by omega⟩
    have hnat : (-k).toNat = p := by omega
    -- a fraction over `2 ^ p` is one over `10 ^ p`, if it is widened by `5 ^ p`
    have hexact : exact ⟨n, 2 ^ p⟩ = ⟨n * 5 ^ p, -(p : ℤ)⟩ := by
      rw [exact, Nat.log2_two_pow]
      rfl
    have hvalue : (n : ℚ) * 2 ^ k = (n * 5 ^ p : ℕ) * (10 : ℚ) ^ (-(p : ℤ)) := by
      have hten : (10 : ℚ) ^ p = 2 ^ p * 5 ^ p := by
        rw [← mul_pow]
        norm_num
      rw [hp, zpow_neg, zpow_neg, zpow_natCast, zpow_natCast, hten]
      push_cast
      field_simp
    have hpos : 0 < n * 5 ^ p := Nat.mul_pos h.pos (Nat.pow_pos (by decide))
    have hlog : p ≤ (n * 5 ^ p).log2 := by
      rw [Nat.le_log2 hpos.ne']
      calc 2 ^ p ≤ 5 ^ p := Nat.pow_le_pow_left (by decide) p
        _ ≤ n * 5 ^ p := Nat.le_mul_of_pos_left _ h.pos
    rw [if_neg hk, hnat, hexact]
    rw [hvalue] at hfloat
    show scale (n * 5 ^ p) (-(p : ℤ)) = _
    exact (isReadAs_scale hpos (by omega) (by omega)).unique hfloat

/-- The digits of a float are read as the float. -/
theorem value_ofFloat (tie : Tie) (h : IsCanonical n k) :
    (ofFloat tie (ofCanonical .positive h)).value = ofCanonical .positive h := by
  generalize hx : ofCanonical .positive h = x
  have hdigits : ofFloat tie x = (shortest? tie x (Fraction.ofFloat x)
      (Fraction.ofFloat x).magnitude (List.range' 1 17)).getD (exact (Fraction.ofFloat x)) := rfl
  rw [hdigits]
  cases hshortest : shortest? tie x (Fraction.ofFloat x) (Fraction.ofFloat x).magnitude
      (List.range' 1 17) with
  | some s => exact eq_of_toBits (value_shortest? hshortest)
  | none =>
    subst hx
    exact value_exact h

end Significand

end AtomProbe.Decimal
