import AtomProbe.Metadata.Conversion
import AtomProbe.Proofs.Text.Blank
import AtomProbe.Proofs.Text.Lower

/-!
# `AtomProbe.Proofs.Metadata.Truth`: values that are read as booleans

A boolean may have been typed as a word or as a number. There are six
words for true and six for false, and what is none of them is refused,
however much it looks like one in another script.

* `contains_lowered_iff`: a text is found among words, in small letters
  and without blanks, if it spells one of them.
* `toBoolean_grammar`: the values that are read as booleans, and the
  refusal of all others.
* `toBoolean_single_letters`: the first letters of true and false are
  among the words.
-/

set_option autoImplicit false

namespace AtomProbe.Metadata

open Text (AllBlank IsPlain SameLetter)

/-! ### Words -/

/-- A text that is one of the words, each letter capital or small, with
blanks around it. -/
def IsSpelling (words : List String) (s : String) : Prop :=
  ∃ before spelled after, s.toList = before ++ spelled ++ after ∧ AllBlank before ∧
    AllBlank after ∧ ∃ word ∈ words, List.Forall₂ SameLetter spelled word.toList

/-- Words that can be compared with texts in small letters. -/
def AreWords (words : List String) : Prop :=
  ∀ word ∈ words, ∀ d ∈ word.toList, IsPlain d ∧ Text.isBlank d = false

-- Over the letters of the words, not over all characters there are.
instance (words : List String) : Decidable (AreWords words) :=
  have : DecidablePred fun word : String => ∀ d ∈ word.toList, IsPlain d ∧ Text.isBlank d = false :=
    fun word => List.decidableBAll _ word.toList
  List.decidableBAll _ words

/-- A capital letter is no blank either. -/
theorem not_isBlank_of_sameLetter {c d : Char} (hd : IsPlain d) (hblank : Text.isBlank d = false)
    (h : SameLetter c d) : Text.isBlank c = false := by
  have hupper : Text.isBlank d = false → Text.isBlank d.toUpper = false :=
    Text.of_ascii (p := fun d => Text.isBlank d = false → Text.isBlank d.toUpper = false)
      (by decide) hd.ascii
  rcases h with rfl | rfl
  · exact hblank
  · exact hupper hblank

/-- No letter of a spelled word is a blank. -/
theorem not_isBlank_of_spelled {spelled word : List Char}
    (hword : ∀ d ∈ word, IsPlain d ∧ Text.isBlank d = false)
    (h : List.Forall₂ SameLetter spelled word) : ∀ c ∈ spelled, Text.isBlank c = false := by
  induction h with
  | nil => exact fun c hc => absurd hc List.not_mem_nil
  | cons hletter _ ih =>
    rw [List.forall_mem_cons] at hword ⊢
    exact ⟨not_isBlank_of_sameLetter hword.1.1 hword.1.2 hletter, ih hword.2⟩

/-- A text without the blanks around it and in small letters is one of the
words if it spells one. -/
theorem contains_lowered_iff {words : List String} (hwords : AreWords words) {s : String} :
    words.contains (lowered s) = true ↔ IsSpelling words s := by
  rw [List.contains_iff_mem]
  constructor
  · intro hmem
    obtain ⟨before, after, hs, hbefore, hafter⟩ := Text.exists_eq_append_trimChars s.toList
    refine ⟨before, _, after, hs, hbefore, hafter, lowered s, hmem, ?_⟩
    rw [← Text.lowerChars_eq_iff fun d hd => (hwords _ hmem d hd).1, lowered, String.toList_ofList]
  · rintro ⟨before, spelled, after, hs, hbefore, hafter, word, hmem, hspelled⟩
    -- the letters of a word are no blanks, so that trimming ends at them
    have hblank := not_isBlank_of_spelled (hwords word hmem) hspelled
    have htrim : Text.trimChars s.toList = spelled := by
      rw [hs]
      exact Text.trimChars_append hbefore hafter
        (fun c hc => hblank c (List.mem_of_mem_head? hc))
        (fun c hc => hblank c (List.mem_of_mem_getLast? hc))
    have hlowered : lowered s = word := by
      rw [lowered, htrim, (Text.lowerChars_eq_iff fun d hd => (hwords word hmem d hd).1).2 hspelled,
        String.ofList_toList]
    rw [hlowered]
    exact hmem

/-! ### Values -/

/-- What stands for a boolean, where there are words for true and for
false. -/
inductive StandsFor (truths falsehoods : List String) : Metadata → Bool → Prop
  | boolean (b : Bool) : StandsFor truths falsehoods (.boolean b) b
  | zero : StandsFor truths falsehoods (.integer 0) false
  | one : StandsFor truths falsehoods (.integer 1) true
  | truth {s : String} (h : IsSpelling truths s) : StandsFor truths falsehoods (.text s) true
  | falsehood {s : String} (h : IsSpelling falsehoods s) :
    StandsFor truths falsehoods (.text s) false

theorem areWords : AreWords trueWords ∧ AreWords falseWords := by decide

/-- No text spells a word for true and one for false. -/
theorem not_spelling_both {s : String} (htrue : IsSpelling trueWords s)
    (hfalse : IsSpelling falseWords s) : False := by
  have hdisjoint : ∀ word ∈ falseWords, word ∉ trueWords := by decide
  rw [← contains_lowered_iff areWords.1, List.contains_iff_mem] at htrue
  rw [← contains_lowered_iff areWords.2, List.contains_iff_mem] at hfalse
  exact hdisjoint _ hfalse htrue

/-- A value that stands for a boolean is read as it. -/
theorem StandsFor.toBoolean_eq {value : Metadata} {b : Bool}
    (h : StandsFor trueWords falseWords value b) : value.toBoolean = .ok b := by
  cases h with
  | boolean | zero | one => rfl
  | truth h => rw [toBoolean, if_pos ((contains_lowered_iff areWords.1).2 h)]
  | falsehood h =>
    have hnot : ¬ trueWords.contains (lowered _) = true := fun htrue =>
      not_spelling_both ((contains_lowered_iff areWords.1).1 htrue) h
    rw [toBoolean, if_neg hnot, if_pos ((contains_lowered_iff areWords.2).2 h)]

/-- A value is read as a boolean that it stands for, or else refused. -/
theorem standsFor_or_refused (value : Metadata) :
    (∃ b, StandsFor trueWords falseWords value b) ∨
      value.toBoolean = .error (.notABoolean value.display) := by
  cases value with
  | boolean b => exact .inl ⟨b, .boolean b⟩
  | real | list | records => exact .inr rfl
  | integer n =>
    by_cases hzero : n = 0
    · exact .inl ⟨false, hzero ▸ .zero⟩
    · by_cases hone : n = 1
      · exact .inl ⟨true, hone ▸ .one⟩
      · exact .inr (by rw [toBoolean, if_neg hzero, if_neg hone])
  | text s =>
    by_cases htrue : trueWords.contains (lowered s) = true
    · exact .inl ⟨true, .truth ((contains_lowered_iff areWords.1).1 htrue)⟩
    · by_cases hfalse : falseWords.contains (lowered s) = true
      · exact .inl ⟨false, .falsehood ((contains_lowered_iff areWords.2).1 hfalse)⟩
      · exact .inr (by rw [toBoolean, if_neg htrue, if_neg hfalse, display])

/-- A value is read as a boolean exactly if it is one, the integer zero or
one, or a text that spells one of twelve words. All other values are
refused and shown. -/
theorem toBoolean_grammar (value : Metadata) :
    (∀ b, value.toBoolean = .ok b ↔
      StandsFor ["true", "yes", "y", "on", "1", "t"] ["false", "no", "n", "off", "0", "f"]
        value b) ∧
    ∀ cause, value.toBoolean = .error cause ↔
      (∀ b, ¬ StandsFor ["true", "yes", "y", "on", "1", "t"] ["false", "no", "n", "off", "0", "f"]
        value b) ∧ cause = .notABoolean value.display := by
  refine ⟨fun b => ⟨fun hread => ?_, fun h => h.toBoolean_eq⟩, fun cause => ⟨fun hrefused => ?_, ?_⟩⟩
  · -- a value that stands for nothing would have been refused
    rcases standsFor_or_refused value with ⟨b', h⟩ | hrefused
    · rw [h.toBoolean_eq] at hread
      cases hread
      exact h
    · rw [hrefused] at hread
      cases hread
  · have hnone : ∀ b, ¬ StandsFor trueWords falseWords value b := by
      intro b h
      rw [h.toBoolean_eq] at hrefused
      cases hrefused
    refine ⟨hnone, ?_⟩
    have hcause := (standsFor_or_refused value).resolve_left fun ⟨b, h⟩ => hnone b h
    rw [hrefused] at hcause
    exact Except.error.inj hcause
  · rintro ⟨hnone, rfl⟩
    exact (standsFor_or_refused value).resolve_left fun ⟨b, h⟩ => hnone b h

/-- A single `t` is read as true, although it spells none of the other
words. -/
theorem toBoolean_single_letters :
    (text "t").toBoolean = .ok true ∧
      ∀ b, ¬ StandsFor ["true", "yes", "y", "on", "1"] ["false", "no", "n", "off", "0"]
        (text "t") b := by
  refine ⟨by decide +kernel, ?_⟩
  rintro b (_ | _ | _ | h | h)
  · rw [← contains_lowered_iff (by decide)] at h
    exact absurd h (by decide +kernel)
  · rw [← contains_lowered_iff (by decide)] at h
    exact absurd h (by decide +kernel)

end AtomProbe.Metadata
