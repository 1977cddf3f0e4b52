import AtomProbe.Proofs.Decimal.Layout
import AtomProbe.Proofs.Decimal.Real

/-!
# `AtomProbe.Proofs.Decimal.Text`: the text of a float reads back

A numeral is read as its digits, without the point, times a power of ten
(`unsignedReal?_point`, `unsignedReal?_exponent`). Every way of laying
out the digits of a float keeps them and this power, but for zeros behind
a whole number, which do not change the value. So the text of a finite
float is read as the float (`Layout.real?_write`), zeros of either sign
included.
-/

set_option autoImplicit false

namespace AtomProbe.Decimal

open Float.Model.UnpackedFloat (Sign)

/-! ### Digits and zeros -/

theorem natural?_of_ne_nil {base : ℕ} {cs : List Char} (h : cs ≠ []) :
    natural? base cs = accumulate base 0 cs := by
  rw [natural?, if_neg (by simpa using h)]

theorem accumulate_toDigits (n : ℕ) : accumulate 10 0 (Nat.toDigits 10 n) = some n := by
  rw [← natural?_of_ne_nil Nat.toDigits_ne_nil]
  exact natural?_toDigits (by decide) (by decide) n

theorem accumulate_zeros (n k : ℕ) :
    accumulate 10 n (List.replicate k '0') = some (n * 10 ^ k) := by
  induction k generalizing n with
  | zero => simp [accumulate]
  | succ k ih =>
    have hzero : digit? 10 '0' = some 0 := by decide
    rw [List.replicate_succ, accumulate, hzero]
    show accumulate 10 (n * 10 + 0) (List.replicate k '0') = _
    rw [ih, Nat.add_zero, Nat.pow_succ, Nat.mul_assoc, Nat.mul_comm 10]

/-- Zeros behind the digits multiply the number. -/
theorem natural?_append_zeros (n k : ℕ) :
    natural? 10 (Nat.toDigits 10 n ++ List.replicate k '0') = some (n * 10 ^ k) := by
  rw [natural?_of_ne_nil (by simp), accumulate_append, accumulate_toDigits]
  exact accumulate_zeros n k

/-- Zeros in front of the digits do not count. -/
theorem natural?_zeros_append (n k : ℕ) :
    natural? 10 (List.replicate k '0' ++ Nat.toDigits 10 n) = some n := by
  rw [natural?_of_ne_nil (by simp), accumulate_replicate_zero (by decide)]
  exact accumulate_toDigits n

/-- A whole number is read from its text. -/
theorem integer?_toString (n : ℤ) : integer? 10 (toString n).toList = some n := by
  have hread (k : ℕ) : natural? 10 (Nat.toDigits 10 k) = some k :=
    natural?_toDigits (by decide) (by decide) k
  rw [toList_toString]
  split
  · next hn =>
    -- the first digit is not taken for a sign
    obtain ⟨c, cs, hcs, hdigit⟩ := head_toDigits_isDigit n.toNat
    obtain ⟨hplus, hminus⟩ := not_sign_of_isDigit hdigit
    have hnat := hread n.toNat
    rw [hcs] at hnat ⊢
    have hunsigned : integer? 10 (c :: cs) = (natural? 10 (c :: cs)).map fun n => (n : ℤ) := by
      unfold integer?
      split
      · next heq => cases heq; exact absurd rfl hplus
      · next heq => cases heq; exact absurd rfl hminus
      · rfl
    rw [hunsigned, hnat]
    exact congrArg some (Int.toNat_of_nonneg hn)
  · next hn =>
    have hneg : -(n.natAbs : ℤ) = n := by omega
    show (natural? 10 (Nat.toDigits 10 n.natAbs)).map (fun n => -(n : ℤ)) = some n
    rw [hread]
    exact congrArg some hneg

/-! ### Numerals -/

theorem takeWhile_digits {ws tail : List Char} (hws : ∀ c ∈ ws, isDigit c = true)
    (htail : ∀ c ∈ tail.head?, isDigit c = false) :
    (ws ++ tail).takeWhile isDigit = ws ∧ (ws ++ tail).dropWhile isDigit = tail := by
  rw [List.takeWhile_append_of_pos hws, List.dropWhile_append_of_pos hws]
  cases tail with
  | nil => simp
  | cons c cs => simp [htail c rfl]

/-- A numeral with a point. -/
theorem unsignedReal?_point {ws fs : List Char} (hws : ∀ c ∈ ws, isDigit c = true)
    (hfs : ∀ c ∈ fs, isDigit c = true) {tail : List Char}
    (htail : ∀ c ∈ tail.head?, isDigit c = false) {m : ℕ} (hm : natural? 10 (ws ++ fs) = some m)
    {e : ℤ} (he : exponentPart? tail = some e) :
    unsignedReal? (ws ++ '.' :: (fs ++ tail)) = some (scale m (e - fs.length)) := by
  have hpoint : ∀ c ∈ ('.' :: (fs ++ tail)).head?, isDigit c = false := by simp; decide
  obtain ⟨htake, hdrop⟩ := takeWhile_digits hws hpoint
  obtain ⟨htake', hdrop'⟩ := takeWhile_digits hfs htail
  unfold unsignedReal?
  simp only [htake, hdrop, htake', hdrop', hm, he]

/-- A numeral without a point. -/
theorem unsignedReal?_exponent {ws cs : List Char} (hws : ∀ c ∈ ws, isDigit c = true)
    {m : ℕ} (hm : natural? 10 ws = some m) {e : ℤ} (he : integer? 10 cs = some e) :
    unsignedReal? (ws ++ 'e' :: cs) = some (scale m e) := by
  have hpart : exponentPart? ('e' :: cs) = some e := he
  have hmark : ∀ c ∈ ('e' :: cs).head?, isDigit c = false := by simp; decide
  obtain ⟨htake, hdrop⟩ := takeWhile_digits hws hmark
  unfold unsignedReal?
  simp [htake, hdrop, hm, hpart]

/-- What begins with a digit is no word. -/
theorem realWord?_of_isDigit {c : Char} (hdigit : isDigit c = true) (cs : List Char) :
    realWord? (c :: cs) = none := by
  have hlower : c.toLower = c := by
    rw [isDigit, Bool.and_eq_true, decide_eq_true_iff, decide_eq_true_iff] at hdigit
    refine dif_neg fun hupper => ?_
    exact absurd (UInt32.le_trans hupper.1 hdigit.2) (by decide)
  have hletter : c ≠ 'i' ∧ c ≠ 'n' := by
    refine ⟨?_, ?_⟩ <;> rintro rfl <;> exact absurd hdigit (by decide)
  unfold realWord?
  simp [hlower, hletter.1, hletter.2]

/-- What begins with a digit, behind a sign or not, is a numeral if it
can be read at all. -/
theorem real?_of_isDigit {c : Char} (hdigit : isDigit c = true) (cs : List Char) :
    real? (c :: cs) = unsignedReal? (c :: cs) ∧
      real? ('-' :: c :: cs) = (unsignedReal? (c :: cs)).map Float.neg := by
  obtain ⟨hplus, hminus⟩ := not_sign_of_isDigit hdigit
  have hword := realWord?_of_isDigit hdigit cs
  refine ⟨?_, ?_⟩
  · unfold real?
    simp only
    split
    · next heq => cases heq; exact absurd rfl hplus
    · next heq => cases heq; exact absurd rfl hminus
    · rw [hword, Option.none_or]
  · show ((realWord? (c :: cs)).or (unsignedReal? (c :: cs))).map Float.neg = _
    rw [hword, Option.none_or]

/-! ### Layouts -/

theorem isDigit_of_mem_zeros {k : ℕ} : ∀ c ∈ List.replicate k '0', isDigit c = true := by
  intro c hc
  rw [List.eq_of_mem_replicate hc]
  decide

theorem not_digit_of_mem_nil : ∀ c ∈ ([] : List Char).head?, isDigit c = false := by
  simp

/-- The point behind all digits. -/
theorem unsignedReal?_whole (n k : ℕ) :
    unsignedReal? (Nat.toDigits 10 n ++ List.replicate k '0' ++ ['.', '0']) =
      some (scale (n * 10 ^ (k + 1)) (-1)) := by
  have hread : natural? 10 (Nat.toDigits 10 n ++ List.replicate k '0' ++ ['0']) =
      some (n * 10 ^ (k + 1)) := by
    rw [List.append_assoc, ← List.replicate_succ']
    exact natural?_append_zeros n (k + 1)
  refine unsignedReal?_point (List.forall_mem_append.2 ⟨?_, isDigit_of_mem_zeros⟩)
    (isDigit_of_mem_zeros (k := 1)) not_digit_of_mem_nil hread rfl
  exact fun c hc => isDigit_of_mem_toDigits hc

/-- The point among the digits. -/
theorem unsignedReal?_among (n k : ℕ) :
    unsignedReal? ((Nat.toDigits 10 n).take k ++ '.' :: (Nat.toDigits 10 n).drop k) =
      some (scale n (0 - ((Nat.toDigits 10 n).length - k : ℕ))) := by
  have hread : natural? 10 ((Nat.toDigits 10 n).take k ++ (Nat.toDigits 10 n).drop k) =
      some n := by
    rw [List.take_append_drop]
    exact natural?_toDigits (by decide) (by decide) n
  have hpoint := unsignedReal?_point
    (fun c hc => isDigit_of_mem_toDigits (List.mem_of_mem_take hc))
    (fun c hc => isDigit_of_mem_toDigits (List.mem_of_mem_drop hc)) not_digit_of_mem_nil hread rfl
  rw [List.append_nil, List.length_drop] at hpoint
  exact hpoint

/-- The point in front of the digits. -/
theorem unsignedReal?_below (n k : ℕ) :
    unsignedReal? ('0' :: '.' :: (List.replicate k '0' ++ Nat.toDigits 10 n)) =
      some (scale n (0 - (k + (Nat.toDigits 10 n).length : ℕ))) := by
  have hread : natural? 10 (['0'] ++ (List.replicate k '0' ++ Nat.toDigits 10 n)) = some n :=
    natural?_zeros_append n (k + 1)
  have hpoint := unsignedReal?_point (isDigit_of_mem_zeros (k := 1))
    (List.forall_mem_append.2 ⟨isDigit_of_mem_zeros, fun c hc => isDigit_of_mem_toDigits hc⟩)
    not_digit_of_mem_nil hread rfl
  rw [List.append_nil, List.length_append, List.length_replicate] at hpoint
  exact hpoint

namespace Layout

/-- One digit, the others behind the point, and a power of ten. -/
theorem unsignedReal?_scientific (n : ℕ) (place : ℤ) :
    unsignedReal? (scientific (Nat.toDigits 10 n) place) =
      some (scale n (place - (Nat.toDigits 10 n).length)) := by
  have hexponent : integer? 10 (toString (place - 1)).toList = some (place - 1) :=
    integer?_toString _
  have hread : natural? 10 (Nat.toDigits 10 n) = some n :=
    natural?_toDigits (by decide) (by decide) n
  have hdigits : ∀ c ∈ Nat.toDigits 10 n, isDigit c = true :=
    fun c hc => isDigit_of_mem_toDigits hc
  obtain ⟨c, cs, hcs, hdigit⟩ := head_toDigits_isDigit n
  unfold scientific
  rw [hcs] at hread hdigits ⊢
  -- a single digit has no point behind it
  by_cases hone : (c :: cs).length = 1
  · obtain rfl : cs = [] := List.length_eq_zero_iff.1 (by simpa using hone)
    exact unsignedReal?_exponent hdigits hread hexponent
  · rw [if_neg hone]
    have hpart : exponentPart? ('e' :: (toString (place - 1)).toList) = some (place - 1) :=
      hexponent
    have hplace : place - 1 - (cs.length : ℤ) = place - ((c :: cs).length : ℕ) := by
      rw [List.length_cons]
      omega
    have hfirst : ∀ d ∈ [c], isDigit d = true := by
      intro d hd
      rw [List.mem_singleton.1 hd]
      exact hdigit
    have hmark : ∀ d ∈ ('e' :: (toString (place - 1)).toList).head?, isDigit d = false := by
      simp
      decide
    have hpoint := unsignedReal?_point hfirst
      (fun d hd => hdigits d (List.mem_cons_of_mem _ hd)) hmark hread hpart
    rw [hplace] at hpoint
    exact hpoint

variable {layout : Layout} {m : ℕ} {e : ℤ}

/-- The text of a positive float. -/
theorem unsignedReal?_magnitude (hwhole : layout.wholeMark = ['.', '0']) (h : IsCanonical m e) :
    unsignedReal? (layout.magnitude (ofCanonical .positive h)) =
      some (ofCanonical .positive h) := by
  have hvalue := Significand.value_ofFloat layout.tie h
  unfold magnitude
  generalize Significand.ofFloat layout.tie (ofCanonical .positive h) = s at hvalue
  dsimp only
  split
  · unfold positional
    rw [hwhole]
    dsimp only
    split
    · next hcount =>
      obtain ⟨k, hk⟩ : ∃ k : ℕ, s.exponent = k := ⟨s.exponent.toNat, by omega⟩
      -- the zeros go to the mantissa that is read, the written one had the exponent
      have hscale : scale (s.digits * 10 ^ (k + 1)) (-1) = ofCanonical .positive h := by
        refine Significand.scale_eq_of_value hvalue ?_ (by omega) (by omega) ?_
        · exact Nat.mul_pos (Significand.bounds_of_value hvalue).1 (Nat.pow_pos (by decide))
        · rw [hk, zpow_natCast, zpow_neg_one]
          push_cast
          rw [pow_succ]
          field_simp
      have hzeros : (s.exponent + (Nat.toDigits 10 s.digits).length -
          (Nat.toDigits 10 s.digits).length).toNat = k := by omega
      rw [unsignedReal?_whole, hzeros, hscale]
    · next hcount =>
      split
      · next hplace =>
        have hexponent : 0 - (((Nat.toDigits 10 s.digits).length -
            (s.exponent + (Nat.toDigits 10 s.digits).length).toNat : ℕ) : ℤ) = s.exponent := by
          omega
        rw [unsignedReal?_among, hexponent, ← hvalue]
        rfl
      · next hplace =>
        have hexponent : 0 - (((-(s.exponent + (Nat.toDigits 10 s.digits).length)).toNat +
            (Nat.toDigits 10 s.digits).length : ℕ) : ℤ) = s.exponent := by
          omega
        rw [List.cons_append, List.cons_append, unsignedReal?_below, hexponent, ← hvalue]
        rfl
  · rw [unsignedReal?_scientific, add_sub_cancel_right, ← hvalue]
    rfl

/-- The text of a zero is read as the zero of its sign. -/
theorem real?_zero (hwhole : layout.wholeMark = ['.', '0']) {x : Float}
    (hzero : x.toBits.toNat % 2 ^ 63 = 0) :
    real? ((if x.toBits.toNat < 2 ^ 63 then [] else ['-']) ++ '0' :: layout.wholeMark) =
      some x := by
  have hread : unsignedReal? ('0' :: layout.wholeMark) = some (Float.ofNat 0) := by
    rw [hwhole]
    exact unsignedReal?_whole 0 0
  obtain ⟨hunsigned, hnegative⟩ := real?_of_isDigit (by decide : isDigit '0' = true)
    layout.wholeMark
  have hlt : x.toBits.toNat < 2 ^ 64 := x.toBits.toNat_lt
  split
  · next hsign =>
    have hbits : (Float.ofNat 0).toBits.toNat = 0 := by decide
    have hx : Float.ofNat 0 = x := eq_of_toBits (UInt64.toNat_inj.1 (by omega))
    rw [List.nil_append, hunsigned, hread, hx]
  · next hsign =>
    have hbits : (Float.ofNat 0).neg.toBits.toNat = 2 ^ 63 := by decide
    have hx : (Float.ofNat 0).neg = x := eq_of_toBits (UInt64.toNat_inj.1 (by omega))
    rw [List.singleton_append, hnegative, hread, Option.map_some, hx]

/-- The text of a finite float is read as the float. -/
theorem real?_write (hwhole : layout.wholeMark = ['.', '0']) {x : Float}
    (hfinite : x.isFinite = true) : real? (layout.write x) = some x := by
  have hpow : Nat.pow 2 63 = 2 ^ 63 := rfl
  unfold write
  rw [isNaN_of_isFinite hfinite, isInf_of_isFinite hfinite, hpow]
  simp only [Bool.false_eq_true, if_false]
  -- a zero has no mantissa
  by_cases hzero : x.toBits.toNat % 2 ^ 63 = 0
  · rw [if_pos hzero]
    exact real?_zero hwhole hzero
  · rw [if_neg hzero]
    obtain ⟨s, m, e, h, rfl⟩ := exists_ofCanonical hfinite hzero
    have hread := unsignedReal?_magnitude hwhole h
    have hencode := encode_lt h
    rw [abs_ofCanonical, toBits_ofCanonical]
    obtain ⟨c, cs, hcs, hdigit⟩ :=
      (isFraction_magnitude hwhole (ofCanonical .positive h)).exists_cons
    rw [hcs] at hread ⊢
    obtain ⟨hunsigned, hnegative⟩ := real?_of_isDigit hdigit cs
    cases s with
    | positive =>
      have hsign : Sign.positive.toBitVec.toNat = 0 := rfl
      rw [hsign, if_pos (by omega), List.nil_append, hunsigned, hread]
    | negative =>
      have hsign : Sign.negative.toBitVec.toNat = 1 := rfl
      rw [hsign, if_neg (by omega), List.singleton_append, hnegative, hread, Option.map_some,
        neg_ofCanonical]

end Layout

end AtomProbe.Decimal
