import AtomProbe.Proofs.Decimal.Text
import AtomProbe.Proofs.Yaml.Schema

/-!
# `AtomProbe.Proofs.Yaml.Number`: words that stand for a real number

The text of a real number stands for the number (`Tree.spells_real`).
A finite one is written as a fraction, which the schema takes neither
for a whole number nor for a text, and its numeral is read back
(`real?_writeReal`). The others are words of the schema.
-/

set_option autoImplicit false

namespace AtomProbe.Yaml

open Decimal (IsFraction IsMark)

namespace Schema

/-! ### Fractions -/

theorem isLetter_of_isMark {c : Char} (h : IsMark c) : Tree.IsLetter c := by
  rcases h with hdigit | rfl | rfl | rfl
  · exact Tree.isLetter_of_isDigit hdigit
  · decide
  · decide
  · decide

theorem isNumeral_of_isFraction {cs : List Char} (h : IsFraction cs) :
    Tree.IsNumeral cs ∧ Tree.IsNumeral ('-' :: cs) := by
  obtain ⟨c, ds, rfl, hdigit⟩ := h.exists_cons
  have hletters : ∀ d ∈ ds, Tree.IsLetter d := fun d hd =>
    isLetter_of_isMark (h.marks d (List.mem_cons_of_mem _ hd))
  exact ⟨.unsigned hdigit hletters, .negative hdigit hletters⟩

/-- A point or an exponent is no digit. -/
theorem exists_not_digit_of_isFraction {cs : List Char} (h : IsFraction cs) :
    ∃ c ∈ cs, Decimal.isDigit c = false ∧ Decimal.digit? 10 c = none := by
  rcases h.fraction with hmem | hmem
  · exact ⟨'.', hmem, by decide, by decide⟩
  · exact ⟨'e', hmem, by decide, by decide⟩

theorem hasLeadingZero_of_isFraction {cs : List Char} (h : IsFraction cs) :
    hasLeadingZero cs = false ∧ hasLeadingZero ('-' :: cs) = false := by
  obtain ⟨c, hc, hnot, _⟩ := exists_not_digit_of_isFraction h
  obtain ⟨d, ds, rfl, hdigit⟩ := h.exists_cons
  have hmem : c ∈ ds := by
    rcases List.mem_cons.1 hc with rfl | hmem
    · rw [hdigit] at hnot
      cases hnot
    · exact hmem
  have hall : ds.all Decimal.isDigit = false := List.all_eq_false.2 ⟨c, hmem, by simp [hnot]⟩
  rw [hasLeadingZero_minus hdigit, hasLeadingZero_cons hdigit, hall, Bool.and_false]
  exact ⟨rfl, rfl⟩

/-- A fraction is no whole number. -/
theorem integer?_of_isFraction {cs : List Char} (h : IsFraction cs) :
    integer? cs = none ∧ integer? ('-' :: cs) = none := by
  have hbase : ∀ c ∈ cs, c ≠ 'x' ∧ c ≠ 'o' ∧ c ≠ 'b' := by
    intro c hc
    refine ⟨?_, ?_, ?_⟩ <;> rintro rfl <;> exact absurd (h.marks _ hc) (by decide)
  have hmagnitude : magnitude? cs = none := by
    obtain ⟨c, hc, _, hnot⟩ := exists_not_digit_of_isFraction h
    rw [magnitude?_eq hbase, if_neg (by simp [(hasLeadingZero_of_isFraction h).1]),
      Decimal.natural?]
    split
    · rfl
    · exact Decimal.accumulate_eq_none hc hnot 0
  obtain ⟨d, ds, rfl, hdigit⟩ := h.exists_cons
  have hread := integer?_cons hdigit ds
  rw [hmagnitude] at hread
  exact hread

/-- A numeral that is no whole number is read as a real number. -/
theorem resolve_real {s : String} (hnumeral : Tree.IsNumeral s.toList)
    (hinteger : integer? s.toList = none) (hzero : hasLeadingZero s.toList = false) {x : Float}
    (hread : Decimal.real? s.toList = some x) (hfinite : x.isFinite = true) :
    resolve s = .ok (.number (.real x)) := by
  obtain ⟨hne, hnull, hboolean⟩ := not_word hnumeral
  have hwhole : wholeNumber? s.toList = .ok none := by
    rw [wholeNumber?, hinteger]
  have hreal : real? s = some x := by
    rw [real?, if_neg (not_contains_of_isNumeral hnumeral (by decide)),
      if_neg (not_contains_of_isNumeral hnumeral (by decide)),
      if_neg (not_contains_of_isNumeral hnumeral (by decide)), hread]
    simp [hfinite]
  unfold resolve
  rw [if_neg (by simp [hne, hnull]), hboolean, hwhole]
  show (if (!hasLeadingZero s.toList) = true then _ else _) = _
  rw [hzero, hreal]
  rfl

end Schema

/-- The numeral of a finite number is read back. -/
theorem real?_writeReal {x : Float} (h : x.isFinite = true) :
    Decimal.real? (writeReal x).toList = some x := by
  rw [writeReal, String.toList_ofList]
  exact Decimal.Layout.real?_write rfl h

namespace Tree

/-- The text of a real number. -/
theorem spells_real (x : Float) : Spells (writeReal x) (.number (.real x)) := by
  rcases Decimal.isFinite_or x with hfinite | rfl | rfl | rfl
  · have hwhole : realLayout.wholeMark = ['.', '0'] := rfl
    obtain ⟨cs, hfraction, hcs⟩ := Decimal.Layout.isFraction_write hwhole hfinite
    have hlist : (writeReal x).toList = realLayout.write x := String.toList_ofList
    -- a minus sign in front makes no difference to the form
    have hform : IsNumeral (writeReal x).toList ∧ Schema.integer? (writeReal x).toList = none ∧
        Schema.hasLeadingZero (writeReal x).toList = false := by
      rw [hlist]
      rcases hcs with hcs | hcs
      · rw [hcs]
        exact ⟨(Schema.isNumeral_of_isFraction hfraction).1,
          (Schema.integer?_of_isFraction hfraction).1,
          (Schema.hasLeadingZero_of_isFraction hfraction).1⟩
      · rw [hcs]
        exact ⟨(Schema.isNumeral_of_isFraction hfraction).2,
          (Schema.integer?_of_isFraction hfraction).2,
          (Schema.hasLeadingZero_of_isFraction hfraction).2⟩
    obtain ⟨hnumeral, hinteger, hzero⟩ := hform
    exact spells_of_isNumeral hnumeral
      (Schema.resolve_real hnumeral hinteger hzero (real?_writeReal hfinite) hfinite)
  · have hword : writeReal Decimal.notANumber = ".nan" := by decide
    rw [hword]
    exact ⟨by decide, by decide, rfl⟩
  · have hword : writeReal Decimal.infinity = ".inf" := by decide
    rw [hword]
    exact ⟨by decide, by decide, rfl⟩
  · have hword : writeReal Decimal.infinity.neg = "-.inf" := by decide
    rw [hword]
    exact ⟨by decide, by decide, rfl⟩

end Tree

/-- No number is written as nothing. -/
theorem Number.write_ne_empty (n : Number) : n.write ≠ "" := by
  cases n with
  | natural n => exact (Tree.spells_natural n).ne_empty
  | real x => exact (Tree.spells_real x).ne_empty
  | negative n =>
    have hnumeral : Tree.IsNumeral (toString n.toInt).toList := by
      rw [Decimal.toList_toString]
      split
      · exact (Schema.isNumeral_toDigits _).1
      · exact (Schema.isNumeral_toDigits _).2
    exact (Schema.not_word hnumeral).1

end AtomProbe.Yaml
