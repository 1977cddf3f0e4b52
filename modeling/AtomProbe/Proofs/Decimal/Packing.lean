import AtomProbe.Decimal.Shortest
import AtomProbe.Proofs.Decimal.Rounding

/-!
# `AtomProbe.Proofs.Decimal.Packing`: the bits of a float and its value

A finite float other than zero has a sign, a mantissa and an exponent
(`exists_ofCanonical`). They are packed into its bits and found there
again (`unpack_ofCanonical`), and its exact fraction is their value
(`value_ofFloat`).
-/

set_option autoImplicit false

namespace AtomProbe.Decimal

open Float.Model (Format UnpackedFloat totalExponent)
open Float.Model.UnpackedFloat

/-! ### The parts of the bits -/

theorem toNat_append {w w' : ℕ} (x : BitVec w) (y : BitVec w') :
    (x ++ y).toNat = x.toNat * 2 ^ w' + y.toNat := by
  rw [BitVec.toNat_append, ← Nat.shiftLeft_add_eq_or_of_lt y.isLt, Nat.shiftLeft_eq]

theorem toNat_packComponents (s : Sign) (e : BitVec 11) (m : BitVec 52) :
    (packComponents Format.binary64 s e m).toNat =
      s.toBitVec.toNat * 2 ^ 63 + e.toNat * 2 ^ 52 + m.toNat := by
  show (s.toBitVec ++ e ++ m).toNat = _
  rw [toNat_append, toNat_append]
  ring

theorem toNat_unpackSign (b : BitVec 64) :
    (@unpackSign Format.binary64 b).toNat = b.toNat / 2 ^ 63 := by
  have hlt : b.toNat < 2 ^ 64 := b.isLt
  have h : (@unpackSign Format.binary64 b).toNat = b.toNat >>> 63 % 2 ^ 1 := by
    delta unpackSign
    simp
  rw [h, Nat.shiftRight_eq_div_pow]
  omega

theorem toNat_unpackExponent (b : BitVec 64) :
    (@unpackExponent Format.binary64 b).toNat = b.toNat / 2 ^ 52 % 2 ^ 11 := by
  have h : (@unpackExponent Format.binary64 b).toNat = b.toNat >>> 52 % 2 ^ 11 := by
    simp [unpackExponent]
  rw [h, Nat.shiftRight_eq_div_pow]

theorem toNat_unpackMantissa (b : BitVec 64) :
    (@unpackMantissa Format.binary64 b).toNat = b.toNat % 2 ^ 52 := by
  simp [unpackMantissa]

/-! ### Floats without digits -/

theorem eq_of_toBits {x y : Float} (h : x.toBits = y.toBits) : x = y := by
  obtain ⟨⟨bits, hvalid⟩⟩ := x
  obtain ⟨⟨bits', hvalid'⟩⟩ := y
  cases (h : bits = bits')
  rfl

/-- The bits of a float with the largest exponent and no mantissa. -/
theorem toNat_of_unpack {b : BitVec 64} (hexponent : @unpackExponent Format.binary64 b = -1#11)
    (hmantissa : @unpackMantissa Format.binary64 b = 0#52) :
    b.toNat = 0x7ff0000000000000 ∨ b.toNat = 0xfff0000000000000 := by
  have hlt : b.toNat < 2 ^ 64 := b.isLt
  have hones : (-1#11).toNat = 2047 := by decide
  have hzero : (0#52).toNat = 0 := rfl
  have hfield := toNat_unpackExponent b
  have hrest := toNat_unpackMantissa b
  rw [hexponent, hones] at hfield
  rw [hmantissa, hzero] at hrest
  omega

theorem isFinite_of_unpackExponent {x : Float}
    (h : @unpackExponent Format.binary64 x.toBits.toBitVec ≠ -1#11) : x.isFinite = true := by
  show (UnpackedFloat.unpack Format.binary64 x.toBits.toBitVec).isFinite = true
  delta UnpackedFloat.unpack
  dsimp only
  rw [if_neg h]
  by_cases hzero : @unpackExponent Format.binary64 x.toBits.toBitVec = 0#11
  · rw [if_pos hzero]
    by_cases hmantissa : @unpackMantissa Format.binary64 x.toBits.toBitVec = 0#52
    · rw [dif_pos hmantissa]
      rfl
    · rw [dif_neg hmantissa]
      rfl
  · rw [if_neg hzero]
    rfl

theorem unpackExponent_of_isFinite {x : Float} (h : x.isFinite = true) :
    @unpackExponent Format.binary64 x.toBits.toBitVec ≠ -1#11 := by
  intro hexponent
  have hfinite : (UnpackedFloat.unpack Format.binary64 x.toBits.toBitVec).isFinite = true := h
  delta UnpackedFloat.unpack at hfinite
  dsimp only at hfinite
  rw [if_pos hexponent] at hfinite
  split at hfinite <;> cases hfinite

/-- A float with digits, or one of the three without. -/
theorem isFinite_or (x : Float) :
    x.isFinite = true ∨ x = notANumber ∨ x = infinity ∨ x = infinity.neg := by
  by_cases hexponent : @unpackExponent Format.binary64 x.toBits.toBitVec = -1#11
  · right
    by_cases hmantissa : @unpackMantissa Format.binary64 x.toBits.toBitVec = 0#52
    · right
      have heq {y : Float} (h : x.toBits.toNat = y.toBits.toNat) : x = y :=
        eq_of_toBits (UInt64.toNat_inj.1 h)
      rcases toNat_of_unpack hexponent hmantissa with h | h
      · exact .inl (heq (h.trans (by decide)))
      · exact .inr (heq (h.trans (by decide)))
    · left
      have hbits : x.toBits.toBitVec = notANumber.toBits.toBitVec :=
        (x.toModel.valid.eq_packedNaN hexponent hmantissa).trans (by decide)
      exact eq_of_toBits (UInt64.toBitVec_inj.1 hbits)
  · exact .inl (isFinite_of_unpackExponent hexponent)

theorem isNaN_of_isFinite {x : Float} (h : x.isFinite = true) : x.isNaN = false := by
  have hfinite : x.toModel.unpack.isFinite = true := h
  show x.toModel.unpack.isNaN = false
  cases hunpack : x.toModel.unpack with
  | notANumber => rw [hunpack] at hfinite; cases hfinite
  | _ => rfl

theorem isInf_of_isFinite {x : Float} (h : x.isFinite = true) : x.isInf = false := by
  have hfinite : x.toModel.unpack.isFinite = true := h
  show x.toModel.unpack.isInf = false
  cases hunpack : x.toModel.unpack with
  | infinity => rw [hunpack] at hfinite; cases hfinite
  | _ => rfl

/-! ### Packing -/

/-- The bits of a positive finite float. -/
def encode (m : ℕ) (e : ℤ) : ℕ :=
  if 2 ^ 52 ≤ m then (e + 1075).toNat * 2 ^ 52 + (m - 2 ^ 52) else m

theorem IsCanonical.toNat_pack {m : ℕ} {e : ℤ} (h : IsCanonical m e) (s : Sign) :
    (pack Format.binary64 (.finite s m e h.pos)).toNat =
      s.toBitVec.toNat * 2 ^ 63 + encode m e := by
  have hpack : pack Format.binary64 (.finite s m e h.pos) =
      if 2 ^ 11 ≤ (e + (1023 : ℕ) + (52 : ℕ)).toNat + 1 then packedInfinity Format.binary64 s
      else if m.log2 + 1 = 53 then packComponents Format.binary64 s
        (BitVec.ofNat 11 (e + (1023 : ℕ) + (52 : ℕ)).toNat) (BitVec.ofNat 52 m)
      else packComponents Format.binary64 s 0#11 (BitVec.ofNat 52 m) := rfl
  obtain ⟨hpos, hlt, hle, hge, hleading⟩ := h
  rw [hpack, if_neg (by omega)]
  unfold encode
  -- the leading one of 53 bits is not stored, since the exponent tells of it
  split
  · next hlog =>
    have hm : 2 ^ 52 ≤ m := (Nat.le_log2 hpos.ne').1 (by omega)
    rw [toNat_packComponents, BitVec.toNat_ofNat, BitVec.toNat_ofNat, if_pos hm]
    omega
  · next hlog =>
    have hm : ¬ 2 ^ 52 ≤ m := by
      intro hm
      have hge : 52 ≤ m.log2 := (Nat.le_log2 hpos.ne').2 hm
      have hlt : m.log2 < 53 := (Nat.log2_lt hpos.ne').2 hlt
      omega
    rw [toNat_packComponents, BitVec.toNat_ofNat, if_neg hm]
    simp
    omega

theorem finite_congr {s s' : Sign} {m m' : ℕ} {e e' : ℤ} {hm : 0 < m} {hm' : 0 < m'}
    (hs : s = s') (hmantissa : m = m') (he : e = e') :
    UnpackedFloat.finite s m e hm = .finite s' m' e' hm' := by
  subst hs hmantissa he
  rfl

/-- The largest exponent is not used for a float with digits. -/
theorem IsCanonical.encode_lt {m : ℕ} {e : ℤ} (h : IsCanonical m e) :
    encode m e < 2047 * 2 ^ 52 := by
  obtain ⟨hpos, hlt, hle, hge, hleading⟩ := h
  unfold encode
  split <;> omega

section
variable {b : BitVec 64} {s : Sign} {n : ℕ} (hb : b.toNat = s.toBitVec.toNat * 2 ^ 63 + n)
  (hn : n < 2047 * 2 ^ 52)
include hb hn

theorem ofBitVec_unpackSign : Sign.ofBitVec (@unpackSign Format.binary64 b) = s := by
  have hbits : @unpackSign Format.binary64 b = s.toBitVec := by
    apply BitVec.eq_of_toNat_eq
    rw [toNat_unpackSign]
    omega
  rw [hbits]
  cases s <;> rfl

theorem unpackExponent_ne : @unpackExponent Format.binary64 b ≠ -1#11 := by
  intro heq
  have hexponent := toNat_unpackExponent b
  have hones : (-1#11).toNat = 2047 := by decide
  rw [heq, hones] at hexponent
  omega

end

theorem IsCanonical.unpack_eq {m : ℕ} {e : ℤ} (h : IsCanonical m e) {s : Sign} {b : BitVec 64}
    (hb : b.toNat = s.toBitVec.toNat * 2 ^ 63 + encode m e) :
    unpack Format.binary64 b = .finite s m e h.pos := by
  have hexponent := toNat_unpackExponent b
  have hmantissa := toNat_unpackMantissa b
  have hsign := ofBitVec_unpackSign hb h.encode_lt
  have hfinite := unpackExponent_ne hb h.encode_lt
  obtain ⟨hpos, hlt, hle, hge, hleading⟩ := h
  delta unpack
  dsimp only
  rw [if_neg hfinite, hsign]
  unfold encode at hb
  -- the leading bit is put back if the field of the exponent is not zero
  split at hb
  · next hm =>
    have hnonzero : @unpackExponent Format.binary64 b ≠ 0#11 := by
      intro heq
      rw [heq, hb] at hexponent
      have hzero : (0#11).toNat = 0 := rfl
      rw [hzero] at hexponent
      omega
    rw [if_neg hnonzero]
    refine finite_congr rfl ?_ ?_
    · have hjoined : (1#1 ++ @unpackMantissa Format.binary64 b).toNat =
          1 * 2 ^ 52 + (@unpackMantissa Format.binary64 b).toNat := toNat_append _ _
      rw [hjoined, hmantissa, hb]
      omega
    · have hbias : (Format.binary64.exponentBias : ℤ) = 1023 := by decide
      rw [hexponent, hb, hbias]
      omega
  · next hm =>
    have hzero : @unpackExponent Format.binary64 b = 0#11 := by
      apply BitVec.eq_of_toNat_eq
      have hnat : (0#11).toNat = 0 := rfl
      rw [hexponent, hb, hnat]
      omega
    have hnonzero : @unpackMantissa Format.binary64 b ≠ 0#52 := by
      intro heq
      have hnat : (0#52).toNat = 0 := rfl
      rw [heq, hb, hnat] at hmantissa
      omega
    rw [if_pos hzero, dif_neg hnonzero]
    refine finite_congr rfl ?_ ?_
    · rw [hmantissa, hb]
      omega
    · have hbias : (Format.binary64.exponentBias : ℤ) = 1023 := by decide
      have hnat : (0#11).toNat = 0 := rfl
      rw [hzero, hnat, hbias]
      omega

/-! ### Finite floats -/

/-- The float with the given sign, mantissa and exponent. -/
def ofCanonical (s : Sign) {m : ℕ} {e : ℤ} (h : IsCanonical m e) : Float :=
  .ofModel (.pack (.finite s m e h.pos))

variable {m : ℕ} {e : ℤ}

theorem toBits_ofCanonical (s : Sign) (h : IsCanonical m e) :
    (ofCanonical s h).toBits.toNat = s.toBitVec.toNat * 2 ^ 63 + encode m e :=
  h.toNat_pack s

theorem unpack_ofCanonical (s : Sign) (h : IsCanonical m e) :
    (ofCanonical s h).toModel.unpack = .finite s m e h.pos :=
  h.unpack_eq (h.toNat_pack s)

theorem abs_ofCanonical (s : Sign) (h : IsCanonical m e) :
    (ofCanonical s h).abs = ofCanonical .positive h := by
  show Float.ofModel (.pack (ofCanonical s h).toModel.unpack.abs) = _
  rw [unpack_ofCanonical]
  rfl

theorem neg_ofCanonical (h : IsCanonical m e) :
    (ofCanonical .positive h).neg = ofCanonical .negative h := by
  show Float.ofModel (.pack (ofCanonical .positive h).toModel.unpack.neg) = _
  rw [unpack_ofCanonical]
  rfl

theorem encode_lt (h : IsCanonical m e) : encode m e < 2047 * 2 ^ 52 := by
  obtain ⟨hpos, hlt, hle, hge, hleading⟩ := h
  unfold encode
  split <;> omega

theorem encode_pos (h : IsCanonical m e) : 0 < encode m e := by
  obtain ⟨hpos, hlt, hle, hge, hleading⟩ := h
  unfold encode
  split <;> omega

theorem isCanonical_of_leading {n : ℕ} (hle : 2 ^ 52 ≤ n) (hlt : n < 2047 * 2 ^ 52) :
    IsCanonical (2 ^ 52 + n % 2 ^ 52) (n / 2 ^ 52 - 1075 : ℤ) ∧
      encode (2 ^ 52 + n % 2 ^ 52) (n / 2 ^ 52 - 1075 : ℤ) = n := by
  refine ⟨⟨by omega, by omega, by omega, by omega, .inl (by omega)⟩, ?_⟩
  rw [encode, if_pos (by omega)]
  omega

/-- The bits below those of infinity are those of floats. -/
theorem exists_encode {n : ℕ} (hpos : 0 < n) (hlt : n < 2047 * 2 ^ 52) :
    ∃ m e, IsCanonical m e ∧ encode m e = n := by
  by_cases hleading : 2 ^ 52 ≤ n
  · exact ⟨_, _, isCanonical_of_leading hleading hlt⟩
  · refine ⟨n, -1074, ⟨hpos, by omega, le_refl _, by omega, .inr rfl⟩, ?_⟩
    rw [encode, if_neg hleading]

/-- Floats with the same bits are the same. -/
theorem eq_ofCanonical {x : Float} {s : Sign} (h : IsCanonical m e)
    (hbits : x.toBits.toNat = s.toBitVec.toNat * 2 ^ 63 + encode m e) : x = ofCanonical s h := by
  apply eq_of_toBits
  apply UInt64.toNat_inj.1
  rw [toBits_ofCanonical, hbits]

/-- A finite float is a zero, or it has a mantissa. -/
theorem exists_ofCanonical {x : Float} (h : x.isFinite = true)
    (hne : x.toBits.toNat % Nat.pow 2 63 ≠ 0) :
    ∃ s m e, ∃ h : IsCanonical m e, x = ofCanonical s h := by
  have hfield : x.toBits.toBitVec.toNat / 2 ^ 52 % 2 ^ 11 ≠ 2047 := by
    intro heq
    have hones : (-1#11).toNat = 2047 := by decide
    refine unpackExponent_of_isFinite h (BitVec.eq_of_toNat_eq ?_)
    rw [toNat_unpackExponent, heq, hones]
  have hpow : Nat.pow 2 63 = 2 ^ 63 := rfl
  have hnat : x.toBits.toBitVec.toNat = x.toBits.toNat := rfl
  have hlt : x.toBits.toNat < 2 ^ 64 := x.toBits.toNat_lt
  rw [hnat] at hfield
  rw [hpow] at hne
  -- all bits but that of the sign are those of a mantissa with its exponent
  obtain ⟨m, e, hcanonical, hencode⟩ :=
    exists_encode (Nat.pos_of_ne_zero hne) (by omega : x.toBits.toNat % 2 ^ 63 < 2047 * 2 ^ 52)
  have heq {s : Sign} (hs : s.toBitVec.toNat = x.toBits.toNat / 2 ^ 63) :
      x = ofCanonical s hcanonical := by
    apply eq_ofCanonical
    rw [hencode, hs]
    omega
  by_cases hsign : x.toBits.toNat < 2 ^ 63
  · have hs : Sign.positive.toBitVec.toNat = 0 := rfl
    exact ⟨.positive, m, e, hcanonical, heq (by omega)⟩
  · have hs : Sign.negative.toBitVec.toNat = 1 := rfl
    exact ⟨.negative, m, e, hcanonical, heq (by omega)⟩

/-- The exact fraction of a float. -/
theorem ofFloat_ofCanonical (h : IsCanonical m e) :
    Fraction.ofFloat (ofCanonical .positive h) =
      if 0 ≤ e then ⟨m * 2 ^ e.toNat, 1⟩ else ⟨m, 2 ^ (-e).toNat⟩ := by
  have hsign : Sign.positive.toBitVec.toNat = 0 := rfl
  have hbits : (ofCanonical .positive h).toBits.toNat % Nat.pow 2 63 = encode m e := by
    have hlt := encode_lt h
    have hpow : Nat.pow 2 63 = 2 ^ 63 := rfl
    rw [toBits_ofCanonical, hsign, hpow]
    omega
  have hpow : Nat.pow 2 52 = 2 ^ 52 := rfl
  obtain ⟨hpos, hlt, hle, hge, hleading⟩ := h
  unfold Fraction.ofFloat
  rw [hbits, hpow]
  dsimp only
  unfold encode
  -- the leading bit is not stored, except that the smallest floats have none
  by_cases hm : 2 ^ 52 ≤ m
  · have hfield : ((e + 1075).toNat * 2 ^ 52 + (m - 2 ^ 52)) / 2 ^ 52 = (e + 1075).toNat := by
      omega
    have hmod : ((e + 1075).toNat * 2 ^ 52 + (m - 2 ^ 52)) % 2 ^ 52 = m - 2 ^ 52 := by omega
    have hsum : m - 2 ^ 52 + 2 ^ 52 = m := by omega
    rw [if_pos hm, hfield, hmod, hsum, if_neg (by omega)]
    by_cases he : 0 ≤ e
    · have hexponent : (e + 1075).toNat - 1075 = e.toNat := by omega
      rw [if_pos (by omega), if_pos he, hexponent]
      rfl
    · have hexponent : 1075 - (e + 1075).toNat = (-e).toNat := by omega
      rw [if_neg (by omega), if_neg he, hexponent]
      rfl
  · have hfield : m / 2 ^ 52 = 0 := by omega
    have hmod : m % 2 ^ 52 = m := by omega
    have hexponent : 1074 = (-e).toNat := by omega
    rw [if_neg hm, hfield, if_pos rfl, hmod, if_neg (by omega), hexponent]
    rfl

end AtomProbe.Decimal
