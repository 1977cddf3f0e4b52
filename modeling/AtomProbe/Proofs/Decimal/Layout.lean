import AtomProbe.Decimal.Layout
import AtomProbe.Proofs.Decimal.Digits
import AtomProbe.Proofs.Decimal.Packing

/-!
# `AtomProbe.Proofs.Decimal.Layout`: the form of the text of a float

A float is finite, infinite of either sign, or not a number
(`isFinite_or`). Where a layout marks the whole numbers with a point,
the text of a finite float is a fraction behind an optional minus: a
digit, and behind it digits with a point or an exponent
(`Layout.isFraction_write`).
-/

set_option autoImplicit false

namespace AtomProbe.Decimal

/-! ### Fractions -/

/-- The characters of a number, with or without a point and an exponent. -/
def IsMark (c : Char) : Prop :=
  isDigit c = true ∨ c = '.' ∨ c = 'e' ∨ c = '-'

instance (c : Char) : Decidable (IsMark c) := inferInstanceAs (Decidable (_ ∨ _ ∨ _ ∨ _))

/-- A numeral that is marked as no whole number, without its sign. -/
structure IsFraction (cs : List Char) : Prop where
  head : ∃ c ∈ cs.head?, isDigit c = true
  marks : ∀ c ∈ cs, IsMark c
  fraction : '.' ∈ cs ∨ 'e' ∈ cs

theorem IsFraction.exists_cons {cs : List Char} (h : IsFraction cs) :
    ∃ c ds, cs = c :: ds ∧ isDigit c = true := by
  obtain ⟨c, hc, hdigit⟩ := h.head
  cases cs with
  | nil => cases hc
  | cons d ds =>
    cases hc
    exact ⟨c, ds, rfl, hdigit⟩

theorem isMark_of_mem_toDigits {n : Nat} {c : Char} (hc : c ∈ Nat.toDigits 10 n) : IsMark c :=
  .inl (isDigit_of_mem_toDigits hc)

theorem isMark_of_mem_replicate {k : Nat} {c : Char} (hc : c ∈ List.replicate k '0') :
    IsMark c := by
  rw [List.eq_of_mem_replicate hc]
  decide

theorem isMark_of_mem_toString {n : Int} {c : Char} (hc : c ∈ (toString n).toList) :
    IsMark c := by
  rw [toList_toString] at hc
  split at hc
  · exact isMark_of_mem_toDigits hc
  · rcases List.mem_cons.1 hc with rfl | hc
    · decide
    · exact isMark_of_mem_toDigits hc

namespace Layout

variable {layout : Layout}

theorem isFraction_positional (hwhole : layout.wholeMark = ['.', '0']) (n : Nat) (place : Int) :
    IsFraction (layout.positional (Nat.toDigits 10 n) place) := by
  have hpoint : IsMark '.' := by decide
  have hzero : IsMark '0' := by decide
  obtain ⟨c, cs, hcs, hdigit⟩ := head_toDigits_isDigit n
  have hmarks : ∀ d ∈ Nat.toDigits 10 n, IsMark d := fun d hd => isMark_of_mem_toDigits hd
  generalize Nat.toDigits 10 n = digits at hcs hmarks
  subst hcs
  unfold positional
  simp only [hwhole]
  -- the point stands behind the digits, among them, or before them
  split
  · refine ⟨⟨c, rfl, hdigit⟩, ?_, .inl (by simp)⟩
    simp only [List.forall_mem_append, List.forall_mem_cons]
    exact ⟨⟨List.forall_mem_cons.1 hmarks, fun d hd => isMark_of_mem_replicate hd⟩, hpoint, hzero,
      fun d hd => absurd hd List.not_mem_nil⟩
  · split
    · next hle hpos =>
      obtain ⟨k, hk⟩ : ∃ k, place.toNat = k + 1 := ⟨place.toNat - 1, by omega⟩
      rw [hk]
      refine ⟨⟨c, rfl, hdigit⟩, ?_, .inl (by simp)⟩
      simp only [List.forall_mem_append, List.forall_mem_cons]
      exact ⟨fun d hd => hmarks d (List.mem_of_mem_take hd), hpoint,
        fun d hd => hmarks d (List.mem_of_mem_drop hd)⟩
    · refine ⟨⟨'0', rfl, by decide⟩, ?_, .inl (by simp)⟩
      simp only [List.forall_mem_append, List.cons_append, List.forall_mem_cons]
      exact ⟨hzero, hpoint, fun d hd => isMark_of_mem_replicate hd, List.forall_mem_cons.1 hmarks⟩

theorem isFraction_scientific (n : Nat) (place : Int) :
    IsFraction (scientific (Nat.toDigits 10 n) place) := by
  obtain ⟨c, cs, hcs, hdigit⟩ := head_toDigits_isDigit n
  have hmarks : ∀ d ∈ Nat.toDigits 10 n, IsMark d := fun d hd => isMark_of_mem_toDigits hd
  generalize Nat.toDigits 10 n = digits at hcs hmarks
  subst hcs
  have hrest : ∀ d ∈ (if (c :: cs).length = 1 then [] else '.' :: (c :: cs).drop 1),
      IsMark d := by
    split
    · exact fun d hd => absurd hd List.not_mem_nil
    · exact List.forall_mem_cons.2 ⟨by decide, (List.forall_mem_cons.1 hmarks).2⟩
  unfold scientific
  refine ⟨⟨c, rfl, hdigit⟩, ?_, .inr (by simp)⟩
  simp only [List.forall_mem_append, List.forall_mem_cons]
  exact ⟨⟨fun d hd => hmarks d (List.mem_of_mem_take hd), hrest⟩, by decide,
    fun d hd => isMark_of_mem_toString hd⟩

theorem isFraction_magnitude (hwhole : layout.wholeMark = ['.', '0']) (x : Float) :
    IsFraction (layout.magnitude x) := by
  unfold magnitude
  simp only
  split
  · exact isFraction_positional hwhole _ _
  · exact isFraction_scientific _ _

/-- The text of a finite float is a fraction, behind a minus or not. -/
theorem isFraction_write (hwhole : layout.wholeMark = ['.', '0']) {x : Float}
    (h : x.isFinite = true) :
    ∃ cs, IsFraction cs ∧ (layout.write x = cs ∨ layout.write x = '-' :: cs) := by
  have hzero : IsFraction ('0' :: layout.wholeMark) := by
    rw [hwhole]
    refine ⟨⟨'0', rfl, by decide⟩, ?_, .inl (by decide)⟩
    simp only [List.forall_mem_cons]
    exact ⟨by decide, by decide, by decide, fun c hc => absurd hc List.not_mem_nil⟩
  have hmagnitude := isFraction_magnitude hwhole x.abs
  unfold write
  simp only [isNaN_of_isFinite h, isInf_of_isFinite h, Bool.false_eq_true, if_false]
  split <;> split
  · exact ⟨_, hzero, .inl rfl⟩
  · exact ⟨_, hzero, .inr rfl⟩
  · exact ⟨_, hmagnitude, .inl rfl⟩
  · exact ⟨_, hmagnitude, .inr rfl⟩

end Layout

end AtomProbe.Decimal
