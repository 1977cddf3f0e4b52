import AtomProbe.Proofs.Decimal.Digits
import AtomProbe.Proofs.Yaml.Cursor
import AtomProbe.Yaml.Schema

/-!
# `AtomProbe.Proofs.Yaml.Schema`: words that stand for a scalar

A word `Spells` a scalar if it needs no quotes and the schema takes it
for the scalar. The words of nothing, of booleans and of whole numbers
of 64 bits do (`spells_null`, `spells_boolean`, `spells_natural`,
`spells_negative`). What these numbers have in common with real numbers
is the form of a numeral: it begins with a digit, behind a minus or not.
-/

set_option autoImplicit false

namespace AtomProbe.Yaml

namespace Tree

/-- The characters of numbers and of the words for truth values and
nothing. -/
def IsLetter (c : Char) : Prop :=
  isPrintable c = true ∧ isGap c = false ∧ c ≠ ':' ∧ c ≠ '#'

instance (c : Char) : Decidable (IsLetter c) := inferInstanceAs (Decidable (_ ∧ _ ∧ _ ∧ _))

theorem hasPair_eq_false {p q : Char → Bool} {cs : List Char}
    (h : (∀ c ∈ cs, p c = false) ∨ ∀ c ∈ cs, q c = false) : hasPair p q cs = false := by
  induction cs with
  | nil => rfl
  | cons c cs ih =>
    have ih := ih (h.imp (fun hp d hd => hp d (List.mem_cons_of_mem _ hd))
      fun hq d hd => hq d (List.mem_cons_of_mem _ hd))
    rw [hasPair_cons, ih, Bool.or_false, Bool.and_eq_false_iff]
    rcases h with hp | hq
    · exact .inl (hp c List.mem_cons_self)
    · right
      cases cs with
      | nil => rfl
      | cons d ds => exact hq d (List.mem_cons_of_mem _ List.mem_cons_self)

/-- A word of letters needs no quotes. -/
theorem admitsPlain_of_letters {cs : List Char} (h : ∀ c ∈ cs, IsLetter c)
    (hbegins : beginsIndicator cs = false) : admitsPlain cs = true := by
  have hspace : ∀ c ∈ cs, c ≠ ' ' := by
    rintro c hc rfl
    exact absurd (h _ hc).2.1 (by decide)
  have hgap : ∀ c ∈ cs, isGap c = false := fun c hc => (h c hc).2.1
  have hindicator : hasIndicator cs = false := by
    have hlast : cs.getLast? ≠ some ':' := fun heq => (h _ (List.mem_of_getLast? heq)).2.2.1 rfl
    simp [hasIndicator, hasPair_eq_false (.inr hgap), hasPair_eq_false (.inl hgap), hlast]
  have hprintable : (cs.all fun c => isPrintable c && !isBreak c) = true := by
    simp only [List.all_eq_true, Bool.and_eq_true, Bool.not_eq_true']
    intro c hc
    have hisGap := hgap c hc
    simp only [isGap, Bool.or_eq_false_iff] at hisGap
    exact ⟨(h c hc).1, hisGap.2⟩
  have hhead : cs.head? ≠ some ' ' := fun heq => hspace _ (List.mem_of_head? heq) rfl
  have hlast : cs.getLast? ≠ some ' ' := fun heq => hspace _ (List.mem_of_getLast? heq) rfl
  simp [admitsPlain, hprintable, hhead, hlast, hbegins, hindicator]

/-! ### Numerals -/

theorem isLetter_of_isDigit {c : Char} (h : Decimal.isDigit c = true) : IsLetter c := by
  have hletter : ∀ n, n < 58 → 48 ≤ n → IsLetter (Char.ofNat n) := by decide
  simp only [Decimal.isDigit, Bool.and_eq_true, decide_eq_true_eq, Char.le_def,
    UInt32.le_iff_toNat_le] at h
  have hle : 48 ≤ c.toNat := h.1
  have hlt : c.toNat < 58 := Nat.lt_succ_of_le h.2
  simpa using hletter c.toNat hlt hle

/-- What begins with a digit, behind a sign or not, begins with no
indicator. -/
theorem not_beginsIndicator {c : Char} (h : Decimal.isDigit c = true) (cs : List Char) :
    beginsIndicator (c :: cs) = false ∧ beginsIndicator ('-' :: c :: cs) = false := by
  have hletter := isLetter_of_isDigit h
  have hne {d : Char} (hd : Decimal.isDigit d = false) : c ≠ d := by
    rintro rfl
    rw [h] at hd
    cases hd
  -- no indicator is a digit
  have hfirst : firstIndicators.contains c = false := by
    simp only [firstIndicators, List.contains_eq_mem, decide_eq_false_iff_not, List.mem_cons,
      List.not_mem_nil, or_false, not_or]
    refine ⟨?_, ?_, ?_, ?_, ?_, ?_, ?_, ?_, ?_, ?_, ?_, ?_, ?_, ?_, ?_, ?_⟩ <;> exact hne (by decide)
  refine ⟨?_, ?_⟩
  · unfold beginsIndicator
    split
    · next heq => cases heq; exact absurd h (by decide)
    · next heq => cases heq; exact absurd h (by decide)
    · next d ds _ _ heq =>
      cases heq
      have hgap : ['?', ':', '-'].contains c = false := by
        simp only [List.contains_eq_mem, decide_eq_false_iff_not, List.mem_cons, List.not_mem_nil,
          or_false, not_or]
        exact ⟨hne (by decide), hne (by decide), hne (by decide)⟩
      rw [hfirst, hgap]
      rfl
    · rfl
  · unfold beginsIndicator
    split
    · next heq => cases heq; exact absurd h (by decide)
    · next heq => cases heq
    · next d ds _ _ heq =>
      cases heq
      -- behind a dash only a gap would make an entry of it
      have hgap : atGap (c :: cs) = false := hletter.2.1
      rw [hgap]
      rfl
    · rfl

/-- A digit with letters behind it, and with a minus in front or not. -/
inductive IsNumeral : List Char → Prop
  | unsigned {c : Char} {cs : List Char} (hdigit : Decimal.isDigit c = true)
    (hletters : ∀ d ∈ cs, IsLetter d) : IsNumeral (c :: cs)
  | negative {c : Char} {cs : List Char} (hdigit : Decimal.isDigit c = true)
    (hletters : ∀ d ∈ cs, IsLetter d) : IsNumeral ('-' :: c :: cs)

/-- A numeral needs no quotes. -/
theorem admitsPlain_of_isNumeral {cs : List Char} (h : IsNumeral cs) : admitsPlain cs = true := by
  cases h with
  | @unsigned c cs hdigit hletters =>
    refine admitsPlain_of_letters ?_ (not_beginsIndicator hdigit cs).1
    exact List.forall_mem_cons.2 ⟨isLetter_of_isDigit hdigit, hletters⟩
  | @negative c cs hdigit hletters =>
    refine admitsPlain_of_letters ?_ (not_beginsIndicator hdigit cs).2
    simp only [List.forall_mem_cons]
    exact ⟨by decide, isLetter_of_isDigit hdigit, hletters⟩

end Tree

namespace Schema

open Yaml.Tree (IsNumeral)

/-! ### Words -/

/-- Whether no digit stands at the beginning, behind a minus or not. -/
def beginsNoNumber (t : String) : Bool :=
  (t.toList.dropWhile (· == '-')).head?.all fun c => !Decimal.isDigit c

theorem ne_of_isNumeral {s t : String} (h : IsNumeral s.toList) (ht : beginsNoNumber t = true) :
    s ≠ t := by
  rintro rfl
  unfold beginsNoNumber at ht
  have hhead {c : Char} (cs : List Char) (hdigit : Decimal.isDigit c = true) :
      (c :: cs).dropWhile (· == '-') = c :: cs := by
    simp [(Decimal.not_sign_of_isDigit hdigit).2]
  generalize s.toList = cs at h ht
  cases h with
  | @unsigned c cs hdigit =>
    rw [hhead cs hdigit] at ht
    simp [hdigit] at ht
  | @negative c cs hdigit =>
    have hminus : ('-' :: c :: cs).dropWhile (· == '-') = (c :: cs).dropWhile (· == '-') := rfl
    rw [hminus, hhead cs hdigit] at ht
    simp [hdigit] at ht

/-- A numeral is none of the words that do not begin like a number. -/
theorem not_contains_of_isNumeral {s : String} (h : IsNumeral s.toList) {words : List String}
    (hwords : words.all beginsNoNumber = true) : ¬ (words.contains s = true) := by
  rw [List.contains_iff_mem]
  intro hmem
  exact ne_of_isNumeral h (List.all_eq_true.1 hwords s hmem) rfl

theorem not_word {s : String} (h : IsNumeral s.toList) :
    s ≠ "" ∧ isNull s = false ∧ boolean? s = none := by
  refine ⟨ne_of_isNumeral h (by decide), ?_, ?_⟩
  · exact Bool.eq_false_iff.2 (not_contains_of_isNumeral h (by decide))
  · rw [boolean?, if_neg (not_contains_of_isNumeral h (by decide)),
      if_neg (not_contains_of_isNumeral h (by decide))]

/-! ### Whole numbers -/

/-- Digits are a numeral, with a minus in front or not. -/
theorem isNumeral_toDigits (n : Nat) :
    IsNumeral (Nat.toDigits 10 n) ∧ IsNumeral ('-' :: Nat.toDigits 10 n) := by
  obtain ⟨c, cs, hcs, hdigit⟩ := Decimal.head_toDigits_isDigit n
  have hletters : ∀ d ∈ cs, Tree.IsLetter d := by
    intro d hd
    have hmem : d ∈ Nat.toDigits 10 n := by rw [hcs]; exact List.mem_cons_of_mem _ hd
    exact Tree.isLetter_of_isDigit (Decimal.isDigit_of_mem_toDigits hmem)
  rw [hcs]
  exact ⟨.unsigned hdigit hletters, .negative hdigit hletters⟩

/-- A minus in front of a digit does not count. -/
theorem hasLeadingZero_minus {c : Char} (hdigit : Decimal.isDigit c = true) (cs : List Char) :
    hasLeadingZero ('-' :: c :: cs) = hasLeadingZero (c :: cs) := by
  obtain ⟨hplus, hminus⟩ := Decimal.not_sign_of_isDigit hdigit
  simp [hasLeadingZero, hplus, hminus]

/-- A text with a zero in front begins with a zero. -/
theorem hasLeadingZero_cons {c : Char} (hdigit : Decimal.isDigit c = true) (cs : List Char) :
    hasLeadingZero (c :: cs) = (c == '0' && !cs.isEmpty && cs.all Decimal.isDigit) := by
  rw [← hasLeadingZero_minus hdigit]
  unfold hasLeadingZero
  split
  · next d ds heq =>
    have heq : c :: cs = '0' :: d :: ds := heq
    rw [List.cons.injEq] at heq
    simp [heq]
  · next hne =>
    cases cs with
    | nil => simp
    | cons d ds =>
      have hzero : c ≠ '0' := by
        rintro rfl
        exact hne d ds rfl
      simp [hzero]

/-- The digits of a number have no zero in front. -/
theorem hasLeadingZero_toDigits (n : Nat) : hasLeadingZero (Nat.toDigits 10 n) = false := by
  obtain ⟨c, cs, hcs, hdigit⟩ := Decimal.head_toDigits_isDigit n
  rcases Nat.eq_zero_or_pos n with rfl | hn
  · decide
  · have hne := Decimal.head_toDigits_ne hn c (by rw [hcs]; rfl)
    rw [hcs, hasLeadingZero_cons hdigit]
    simp [hne]

/-- Where no letter says otherwise, the base is ten. -/
theorem magnitude?_eq {cs : List Char} (h : ∀ c ∈ cs, c ≠ 'x' ∧ c ≠ 'o' ∧ c ≠ 'b') :
    magnitude? cs = if hasLeadingZero cs then none else Decimal.natural? 10 cs := by
  unfold magnitude?
  split
  · exact absurd rfl (h 'x' (by simp)).1
  · exact absurd rfl (h 'o' (by simp)).2.1
  · exact absurd rfl (h 'b' (by simp)).2.2
  · rfl

theorem magnitude?_toDigits (n : Nat) : magnitude? (Nat.toDigits 10 n) = some n := by
  have hletter : ∀ c, Decimal.isDigit c = true → c ≠ 'x' ∧ c ≠ 'o' ∧ c ≠ 'b' := by
    intro c hc
    refine ⟨?_, ?_, ?_⟩ <;> rintro rfl <;> exact absurd hc (by decide)
  rw [magnitude?_eq fun c hc => hletter c (Decimal.isDigit_of_mem_toDigits hc),
    hasLeadingZero_toDigits]
  exact Decimal.natural?_toDigits (by decide) (by decide) n

/-- A sign is read apart from the digits. -/
theorem integer?_cons {c : Char} (hdigit : Decimal.isDigit c = true) (cs : List Char) :
    integer? (c :: cs) = (magnitude? (c :: cs)).map (fun n => (n : Int)) ∧
      integer? ('-' :: c :: cs) = (magnitude? (c :: cs)).map fun n => -(n : Int) := by
  obtain ⟨hplus, hminus⟩ := Decimal.not_sign_of_isDigit hdigit
  refine ⟨?_, rfl⟩
  unfold integer?
  split
  · next heq => cases heq; exact absurd rfl hplus
  · next heq => cases heq; exact absurd rfl hminus
  · rfl

theorem integer?_toDigits (n : Nat) :
    integer? (Nat.toDigits 10 n) = some (n : Int) ∧
      integer? ('-' :: Nat.toDigits 10 n) = some (-(n : Int)) := by
  obtain ⟨c, cs, hcs, hdigit⟩ := Decimal.head_toDigits_isDigit n
  have hread := integer?_cons hdigit cs
  rw [← hcs, magnitude?_toDigits] at hread
  exact hread

/-- A whole number of 64 bits is read. -/
theorem resolve_whole {s : String} (hnumeral : IsNumeral s.toList) {n : Int}
    (h : integer? s.toList = some n) :
    (0 ≤ n → n < Int.pow 2 64 →
      resolve s = .ok (.number (.natural (UInt64.ofNat n.toNat)))) ∧
    (n < 0 → -Int.pow 2 63 ≤ n → resolve s = .ok (.number (.negative (Int64.ofInt n)))) := by
  obtain ⟨hne, hnull, hboolean⟩ := not_word hnumeral
  have hresolve {m : Number} (hm : wholeNumber? s.toList = .ok (some m)) :
      resolve s = .ok (.number m) := by
    unfold resolve
    rw [if_neg (by simp [hne, hnull]), hboolean, hm]
    rfl
  refine ⟨fun hpos hlt => hresolve ?_, fun hneg hle => hresolve ?_⟩
  · rw [wholeNumber?, h]
    exact if_pos ⟨hpos, hlt⟩
  · rw [wholeNumber?, h]
    exact (if_neg (by omega)).trans (if_pos ⟨hle, hneg⟩)

end Schema

/-! ### Spellings -/

namespace Tree

/-- A word that needs no quotes and stands for the scalar. -/
structure Spells (s : String) (v : Scalar) : Prop where
  ne_empty : s ≠ ""
  admitsPlain : admitsPlain s.toList = true
  resolve : Schema.resolve s = .ok v

theorem spells_of_isNumeral {s : String} {v : Scalar} (h : IsNumeral s.toList)
    (hresolve : Schema.resolve s = .ok v) : Spells s v :=
  ⟨(Schema.not_word h).1, admitsPlain_of_isNumeral h, hresolve⟩

theorem spells_null : Spells "null" .null := ⟨by decide, by decide, rfl⟩

theorem spells_boolean (b : Bool) : Spells (if b then "true" else "false") (.boolean b) := by
  cases b with
  | false => exact ⟨by decide, by decide, rfl⟩
  | true => exact ⟨by decide, by decide, rfl⟩

/-- A whole number that is not negative. -/
theorem spells_natural (n : UInt64) : Spells (toString n.toNat) (.number (.natural n)) := by
  have hlist : (toString n.toNat).toList = Nat.toDigits 10 n.toNat := Nat.toList_repr
  have hnumeral : IsNumeral (toString n.toNat).toList := by
    rw [hlist]
    exact (Schema.isNumeral_toDigits n.toNat).1
  have hread : Schema.integer? (toString n.toNat).toList = some (n.toNat : Int) := by
    rw [hlist]
    exact (Schema.integer?_toDigits n.toNat).1
  have hlt : (n.toNat : Int) < Int.pow 2 64 := by
    have hpow : Int.pow 2 64 = ((2 ^ 64 : Nat) : Int) := by decide
    rw [hpow, Int.ofNat_lt]
    exact n.toNat_lt
  have hresolve := (Schema.resolve_whole hnumeral hread).1 (Int.natCast_nonneg _) hlt
  exact spells_of_isNumeral hnumeral (by simpa using hresolve)

/-- A negative number. -/
theorem spells_negative {n : Int64} (hn : n.toInt < 0) :
    Spells (toString n.toInt) (.number (.negative n)) := by
  have hlist : (toString n.toInt).toList = '-' :: Nat.toDigits 10 n.toInt.natAbs := by
    rw [Decimal.toList_toString, if_neg (Int.not_le.2 hn)]
  have hnumeral : IsNumeral (toString n.toInt).toList := by
    rw [hlist]
    exact (Schema.isNumeral_toDigits n.toInt.natAbs).2
  have hread : Schema.integer? (toString n.toInt).toList = some n.toInt := by
    rw [hlist, (Schema.integer?_toDigits n.toInt.natAbs).2]
    congr 1
    omega
  have hle : -Int.pow 2 63 ≤ n.toInt := n.le_toInt
  have hresolve := (Schema.resolve_whole hnumeral hread).2 hn hle
  exact spells_of_isNumeral hnumeral (by simpa using hresolve)

end Tree

end AtomProbe.Yaml
