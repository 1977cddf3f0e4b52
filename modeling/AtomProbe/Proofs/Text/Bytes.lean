import Mathlib.Data.List.Basic

/-!
# `AtomProbe.Proofs.Text.Bytes`: the order of texts and the order of bytes

Texts are compared by their code points, and files and other programs
compare their bytes. In UTF-8 both are the same order (`bytes_lt_iff`),
since the first byte tells how many follow it, and grows with the code
point. No character is the beginning of another, so the first character
that differs has the first byte that differs.
-/

set_option autoImplicit false

namespace AtomProbe.Text

/-- The bytes of a text in UTF-8. -/
def bytes (s : String) : List UInt8 := s.toUTF8.data.toList

theorem bytes_eq_flatMap (s : String) : bytes s = s.toList.flatMap String.utf8EncodeChar := by
  rw [bytes, String.toUTF8_eq_toByteArray, ← String.utf8Encode_toList, List.utf8Encode,
    List.toList_data_toByteArray]

/-- Behind bytes that are the same in both lists there is one that is
smaller in the first. -/
def IsLessAtByte : List UInt8 → List UInt8 → Prop
  | x :: xs, y :: ys => x < y ∨ x = y ∧ IsLessAtByte xs ys
  | _, _ => False

/-- What stands behind the byte that differs does not matter. -/
theorem IsLessAtByte.append_lt {xs ys : List UInt8} (h : IsLessAtByte xs ys)
    (after after' : List UInt8) : xs ++ after < ys ++ after' := by
  induction xs generalizing ys with
  | nil => cases h
  | cons x xs ih =>
    cases ys with
    | nil => cases h
    | cons y ys => exact List.cons_lt_cons_iff.2 (h.imp_right (And.imp_right fun hrest => ih hrest))

/-- A number by its digits of six bits, of which the first may be larger. -/
theorem exists_digits (n : Nat) : ∃ a b c d, n = 262144 * a + 4096 * b + 64 * c + d ∧
    n / 262144 = a ∧ n / 4096 % 64 = b ∧ n / 64 % 64 = c ∧ n % 64 = d ∧
    b < 64 ∧ c < 64 ∧ d < 64 :=
  ⟨_, _, _, _, by omega, rfl, rfl, rfl, rfl, by omega, by omega, by omega⟩

/-- Two numbers of four bytes in UTF-8. -/
theorem isLessAtByte_four {m n : Nat} (hlt : m < n) (hrange : n < 0x110000) :
    IsLessAtByte
      [UInt8.ofNat (m / 262144 % 8 + 240), UInt8.ofNat (m / 4096 % 64 + 128),
        UInt8.ofNat (m / 64 % 64 + 128), UInt8.ofNat (m % 64 + 128)]
      [UInt8.ofNat (n / 262144 % 8 + 240), UInt8.ofNat (n / 4096 % 64 + 128),
        UInt8.ofNat (n / 64 % 64 + 128), UInt8.ofNat (n % 64 + 128)] := by
  obtain ⟨a, b, c, d, hm, ha, hb, hc, hd, _⟩ := exists_digits m
  obtain ⟨a', b', c', d', hn, ha', hb', hc', hd', _⟩ := exists_digits n
  rw [ha, hb, hc, hd, ha', hb', hc', hd']
  simp only [IsLessAtByte, UInt8.lt_iff_toNat_lt, ← UInt8.toNat_inj, UInt8.toNat_ofNat']
  clear ha hb hc hd ha' hb' hc' hd'
  omega

/-- A character with a smaller code point has a smaller byte first. Cases
on the numbers of bytes of the two. -/
theorem isLessAtByte_of_lt {c d : Char} (h : c < d) :
    IsLessAtByte (String.utf8EncodeChar c) (String.utf8EncodeChar d) := by
  have hlt : c.val.toNat < d.val.toNat := h
  have hrange : d.val.toNat < 0x110000 := by
    have hvalid : d.val.toNat < 0xd800 ∨ 0xdfff < d.val.toNat ∧ d.val.toNat < 0x110000 := d.valid
    omega
  rw [String.utf8EncodeChar, String.utf8EncodeChar]
  generalize c.val.toNat = m at *
  generalize d.val.toNat = n at *
  -- if the smaller has four bytes, so has the other, and all four count
  by_cases hfour : 65535 < m
  · simp only [show ¬ m ≤ 127 by omega, show ¬ m ≤ 2047 by omega, show ¬ m ≤ 65535 by omega,
      show ¬ n ≤ 127 by omega, show ¬ n ≤ 2047 by omega, show ¬ n ≤ 65535 by omega, if_false]
    exact isLessAtByte_four hlt hrange
  · split_ifs
    all_goals
      simp only [IsLessAtByte, UInt8.lt_iff_toNat_lt, ← UInt8.toNat_inj, UInt8.toNat_ofNat']
      omega

theorem flatMap_lt_flatMap {cs ds : List Char} (h : cs < ds) :
    cs.flatMap String.utf8EncodeChar < ds.flatMap String.utf8EncodeChar := by
  induction cs generalizing ds with
  | nil =>
    cases ds with
    | nil => exact absurd h (List.lt_irrefl _)
    | cons d ds =>
      obtain ⟨b, bs, hbytes⟩ := List.exists_cons_of_ne_nil (String.utf8EncodeChar_ne_nil (c := d))
      rw [List.flatMap_cons, hbytes]
      exact List.nil_lt_cons _ _
  | cons c cs ih =>
    cases ds with
    | nil => exact absurd h (List.not_lt_nil _)
    | cons d ds =>
      rw [List.flatMap_cons, List.flatMap_cons]
      -- the first characters decide, or else they have the same bytes
      rcases List.cons_lt_cons_iff.1 h with hlt | ⟨rfl, hrest⟩
      · exact (isLessAtByte_of_lt hlt).append_lt _ _
      · exact List.append_left_lt (ih hrest)

/-- Texts are ordered as their bytes are. -/
theorem bytes_lt_iff {s t : String} : bytes s < bytes t ↔ s < t := by
  have hlt {s t : String} (h : s < t) : bytes s < bytes t := by
    rw [bytes_eq_flatMap, bytes_eq_flatMap]
    exact flatMap_lt_flatMap (String.lt_iff.1 h)
  refine ⟨fun h => String.not_le.1 fun hle => ?_, hlt⟩
  by_cases heq : t = s
  · exact List.lt_irrefl _ (heq ▸ h)
  · have hless : t < s := String.not_le.1 fun hge => heq (String.le_antisymm hle hge)
    exact List.lt_asymm h (hlt hless)

end AtomProbe.Text
