import AtomProbe.Proofs.Yaml.Scalar.Plain
import AtomProbe.Proofs.Yaml.Scalar.Quoted
import AtomProbe.Yaml.Tree

/-!
# `AtomProbe.Proofs.Yaml.Tree.Style`: what a text is written as

What the choice of a style ensures (`styled`), what a reader tells a
plain text by (`BeginsPlain`), and what is written in each style: only
characters that a document may hold (`isPrintable_scalar`), and in one
line no more than four bytes for each byte of the text
(`bytes_scalar_le`).
-/

set_option autoImplicit false

namespace AtomProbe.Yaml

open Position (bytes bytes_nil bytes_cons bytes_append)

/-! ### What the choice of a style ensures -/

namespace Tree

theorem printable_of_admitsPlain {cs : List Char} (h : admitsPlain cs = true) :
    ∀ c ∈ cs, isPrintable c = true ∧ isBreak c = false := by
  intro c hc
  simp only [admitsPlain, Bool.and_eq_true, List.all_eq_true, Bool.not_eq_true'] at h
  exact h.1.1.1.1 c hc

theorem isRest_of_admitsPlain {cs : List Char} (h : admitsPlain cs = true) :
    Plain.IsRest [] cs where
  isPrintable := printable_of_admitsPlain h
  hasIndicator := by
    simp only [admitsPlain, Bool.and_eq_true, Bool.not_eq_true'] at h
    exact h.2
  head_ne hne := absurd rfl hne
  getLast_ne := by
    simp only [admitsPlain, Bool.and_eq_true, bne_iff_ne, ne_eq] at h
    exact h.1.1.2
  blanks_eq _ := rfl

/-- What holds of a text that is written in a style. -/
inductive Styled (cs : List Char) : ScalarStyle → Prop
  | plain (hne : cs ≠ []) (hadmits : admitsPlain cs = true) (htext : readsAsText cs = true) :
    Styled cs .plain
  | singleQuoted (hadmits : admitsSingle cs = true) (hnewline : '\n' ∉ cs) :
    Styled cs .singleQuoted
  | doubleQuoted : Styled cs .doubleQuoted
  | literal (hadmits : admitsLiteral cs = true) (hnewline : '\n' ∈ cs) : Styled cs .literal

theorem styled (cs : List Char) : Styled cs (styleOf cs) := by
  have hempty : readsAsText [] = false := by decide
  unfold styleOf
  split
  · next hnewline =>
    split
    · next hadmits => exact .literal hadmits (by simpa using hnewline)
    · exact .doubleQuoted
  · next hnewline =>
    split
    · next hplain =>
      rw [Bool.and_eq_true] at hplain
      refine .plain (fun hnil => ?_) hplain.2 hplain.1
      rw [hnil, hempty] at hplain
      cases hplain.1
    · split
      · next hadmits => exact .singleQuoted hadmits (by simpa using hnewline)
      · exact .doubleQuoted

theorem isRest_of_admitsSingle {cs : List Char} (h : admitsSingle cs = true)
    (hnewline : '\n' ∉ cs) : Quoted.IsRest false [] cs := by
  simp only [admitsSingle, Bool.and_eq_true, List.all_eq_true, Bool.not_eq_true'] at h
  exact ⟨fun c hc => ⟨h.1.1 c hc, fun heq => hnewline (heq ▸ hc)⟩, h.1.2, h.2, by simp, by simp⟩

/-- What the lexer tells a plain text by: its first character and what
follows it. -/
structure BeginsPlain (c : Char) (rest : List Char) : Prop where
  startsToken : startsToken c = true
  not_indicator : c ∉ firstIndicators
  not_atGap : c = '?' ∨ c = ':' ∨ c = '-' → atGap rest = false
  not_marker : atDocumentMarker (c :: rest) = false

theorem not_of_beginsIndicator {c : Char} {cs : List Char}
    (h : beginsIndicator (c :: cs) = false) :
    c ∉ firstIndicators ∧ (c = '?' ∨ c = ':' ∨ c = '-' → atGap cs = false) := by
  unfold beginsIndicator at h
  split at h
  · cases h
  · cases h
  · next heq =>
    cases heq
    simp only [Bool.or_eq_false_iff, Bool.and_eq_false_imp, List.contains_eq_mem,
      decide_eq_false_iff_not, decide_eq_true_eq] at h
    refine ⟨h.1, fun hc => h.2 ?_⟩
    simpa using hc
  · next heq => cases heq

theorem exists_of_append_eq {cs tail rest : List Char} {d : Char}
    (h : cs ++ tail = d :: d :: rest) (htail : ∀ e ∈ tail.head?, e ≠ d) :
    ∃ es, cs = d :: d :: es := by
  match cs with
  | [] => exact absurd rfl (htail d (by rw [List.nil_append] at h; rw [h]; rfl))
  | [e] =>
    rw [List.singleton_append, List.cons.injEq] at h
    exact absurd rfl (htail d (by rw [h.2]; rfl))
  | e :: f :: es =>
    simp only [List.cons_append, List.cons.injEq] at h
    exact ⟨es, by rw [h.1, h.2.1]⟩

/-- A document marker in front of a text is one with whatever stands
behind it. -/
theorem not_atDocumentMarker {c : Char} {cs tail : List Char}
    (h : beginsIndicator (c :: cs) = false) (htail : ∀ d ∈ tail.head?, d = ':' ∨ d = '\n') :
    atDocumentMarker (c :: (cs ++ tail)) = false := by
  have hne : ∀ d ∈ tail.head?, d ≠ '-' ∧ d ≠ '.' := by
    intro d hd
    rcases htail d hd with rfl | rfl <;> decide
  unfold atDocumentMarker
  split
  · next heq =>
    injection heq with hc happend
    obtain ⟨es, rfl⟩ := exists_of_append_eq happend fun d hd => (hne d hd).1
    rw [hc] at h
    cases h
  · next heq =>
    injection heq with hc happend
    obtain ⟨es, rfl⟩ := exists_of_append_eq happend fun d hd => (hne d hd).2
    rw [hc] at h
    cases h
  · rfl

theorem beginsPlain_of_admitsPlain {c : Char} {cs tail : List Char}
    (h : admitsPlain (c :: cs) = true) (htail : ∀ d ∈ tail.head?, d = ':' ∨ d = '\n') :
    BeginsPlain c (cs ++ tail) := by
  obtain ⟨hprintable, hbreak⟩ := printable_of_admitsPlain h c List.mem_cons_self
  simp only [admitsPlain, Bool.and_eq_true, bne_iff_ne, ne_eq, Bool.not_eq_true',
    List.head?_cons, Option.some.injEq] at h
  obtain ⟨⟨⟨⟨-, hspace⟩, -⟩, hbegins⟩, -⟩ := h
  obtain ⟨hindicator, hgap⟩ := not_of_beginsIndicator hbegins
  refine ⟨?_, hindicator, fun hc => ?_, not_atDocumentMarker hbegins htail⟩
  · have hhash : c ≠ '#' := by
      rintro rfl
      exact hindicator (by decide)
    have hmark : c ≠ byteOrderMark := by
      rintro rfl
      exact absurd hprintable (by decide)
    simp [startsToken, isGap, isBlank_of_isPrintable hprintable hspace, hbreak, hhash, hmark]
  · have hcs := hgap hc
    cases cs with
    | nil => cases hcs
    | cons d ds => exact hcs

/-! ### The characters that are written -/

theorem isNarrow_hexDigits {width n : Nat} {c : Char} (hc : c ∈ hexDigits width n) :
    IsNarrow c := by
  have hdigit : ∀ d, d < 16 → IsNarrow d.digitChar.toUpper := by decide
  rcases List.mem_append.1 hc with hmem | hmem
  · rw [List.eq_of_mem_replicate hmem]
    decide
  · obtain ⟨e, he, rfl⟩ := List.mem_map.1 hmem
    obtain ⟨d, hd, rfl⟩ := Decimal.exists_of_mem_toDigits (by decide) he
    exact hdigit d hd

theorem isNarrow_escape {c d : Char} (hd : d ∈ escape c) : IsNarrow d := by
  have hbackslash : IsNarrow '\\' := by decide
  generalize hescape : escape c = written at hd
  cases hescape ▸ Quoted.escaped c with
  | letter hread hletter =>
    simp only [List.mem_cons, List.not_mem_nil, or_false] at hd
    rcases hd with rfl | rfl
    · exact hbackslash
    · exact hletter
  | digits hread hletter =>
    simp only [List.mem_cons] at hd
    rcases hd with rfl | rfl | hd
    · exact hbackslash
    · exact hletter
    · exact isNarrow_hexDigits hd

/-- Between double quotes nothing breaks a line. -/
theorem isPrintable_doubleQuoted {cs : List Char} {c : Char} (hc : c ∈ doubleQuoted cs) :
    isPrintable c = true ∧ isBreak c = false := by
  rw [Quoted.doubleQuoted_eq, List.cons_append, List.mem_cons, List.mem_append,
    List.mem_singleton, List.mem_flatMap] at hc
  rcases hc with rfl | ⟨d, -, hc⟩ | rfl
  · decide
  · unfold Quoted.written at hc
    split at hc
    · next hdirect =>
      rw [List.mem_singleton.1 hc]
      simp only [isDirect, Bool.and_eq_true, Bool.not_eq_true'] at hdirect
      exact hdirect.1.1
    · exact ⟨(isNarrow_escape hc).1, (isNarrow_escape hc).2.1⟩
  · decide

theorem mem_singleQuotedRest {indent : Nat} {behindBreak : Bool} {cs : List Char} {c : Char}
    (hc : c ∈ singleQuotedRest indent behindBreak cs) :
    c ∈ cs ∨ c = ' ' ∨ c = Quoted.single := by
  induction cs generalizing behindBreak with
  | nil =>
    rw [singleQuotedRest, List.mem_append, List.mem_singleton] at hc
    rcases hc with hc | rfl
    · split at hc
      · exact .inr (.inl (List.eq_of_mem_replicate hc))
      · cases hc
    · exact .inr (.inr rfl)
  | cons d ds ih =>
    have hds {behindBreak : Bool} (hc : c ∈ singleQuotedRest indent behindBreak ds) :
        c ∈ d :: ds ∨ c = ' ' ∨ c = Quoted.single :=
      (ih hc).imp_left (List.mem_cons_of_mem _)
    rw [singleQuotedRest] at hc
    -- the first of some breaks is written twice, and a quote always is
    split at hc
    · rcases List.mem_append.1 hc with hc | hc
      · refine .inl (List.mem_cons.2 (.inl ?_))
        split at hc
        · next hd => simpa [hd.1] using hc
        · exact List.mem_singleton.1 hc
      · exact hds hc
    · rcases List.mem_append.1 hc with hc | hc
      · rcases List.mem_append.1 hc with hc | hc
        · split at hc
          · exact .inr (.inl (List.eq_of_mem_replicate hc))
          · cases hc
        · refine .inl (List.mem_cons.2 (.inl ?_))
          split at hc
          · simpa using hc
          · exact List.mem_singleton.1 hc
      · exact hds hc

/-- What is written between single quotes ends with one. -/
theorem getLast?_singleQuotedRest (indent : Nat) (behindBreak : Bool) (cs : List Char) :
    (singleQuotedRest indent behindBreak cs).getLast? = some Quoted.single := by
  induction cs generalizing behindBreak with
  | nil => simp [singleQuotedRest]
  | cons c cs ih =>
    rw [singleQuotedRest]
    split <;> simp [List.getLast?_append, ih]

theorem mem_literalLines {indent : Nat} {atStart : Bool} {cs : List Char} {c : Char}
    (hc : c ∈ literalLines indent atStart cs) : c ∈ cs ∨ c = ' ' := by
  induction cs generalizing atStart with
  | nil => cases hc
  | cons d ds ih =>
    have hds {atStart : Bool} (hc : c ∈ literalLines indent atStart ds) : c ∈ d :: ds ∨ c = ' ' :=
      (ih hc).imp_left (List.mem_cons_of_mem _)
    rw [literalLines] at hc
    split at hc
    · rcases List.mem_cons.1 hc with rfl | hc
      · exact .inl List.mem_cons_self
      · exact hds hc
    · rcases List.mem_append.1 hc with hc | hc
      · split at hc
        · exact .inr (List.eq_of_mem_replicate hc)
        · cases hc
      · rcases List.mem_cons.1 hc with rfl | hc
        · exact .inl List.mem_cons_self
        · exact hds hc

theorem mem_literalHints {cs : List Char} {c : Char} (hc : c ∈ literalHints cs) :
    c = '2' ∨ c = '-' ∨ c = '+' := by
  have hstep : Nat.toDigits 10 step = ['2'] := by decide
  unfold literalHints at hc
  rw [hstep] at hc
  rcases List.mem_append.1 hc with hc | hc
  · split at hc
    · exact .inl (List.mem_singleton.1 hc)
    · cases hc
  · cases hreverse : cs.reverse with
    | nil => simp_all
    | cons last before =>
      simp only [hreverse] at hc
      split at hc
      · simp_all
      · split at hc <;> simp_all

/-- A document may hold what is written for a text. -/
theorem isPrintable_scalar {indent : Nat} {cs : List Char} {c : Char}
    (hc : c ∈ scalar indent cs) : isPrintable c = true := by
  have hstyled := styled cs
  unfold scalar at hc
  generalize styleOf cs = style at hc hstyled
  cases hstyled with
  | plain hne hadmits htext => exact (printable_of_admitsPlain hadmits c hc).1
  | singleQuoted hadmits hnewline =>
    have hcs := (isRest_of_admitsSingle hadmits hnewline).isPrintable
    rcases List.mem_cons.1 hc with rfl | hc
    · decide
    · rcases mem_singleQuotedRest hc with hc | rfl | rfl
      · exact (hcs c hc).1
      · decide
      · decide
  | doubleQuoted => exact (isPrintable_doubleQuoted hc).1
  | literal hadmits hnewline =>
    simp only [admitsLiteral, Bool.and_eq_true, List.all_eq_true] at hadmits
    simp only [literal, List.cons_append, List.mem_cons, List.mem_append] at hc
    -- the mark, its hints, the break behind them, and the lines
    rcases hc with rfl | hc | rfl | hc
    · decide
    · rcases mem_literalHints hc with rfl | rfl | rfl <;> decide
    · decide
    · rcases mem_literalLines hc with hc | rfl
      · exact hadmits.1.1 c hc
      · decide

/-! ### Texts in one line -/

/-- A text without breaks is written without breaks. -/
theorem not_isBreak_scalar {indent : Nat} {cs : List Char} (hcs : ∀ c ∈ cs, isBreak c = false)
    {c : Char} (hc : c ∈ scalar indent cs) : isBreak c = false := by
  have hstyled := styled cs
  unfold scalar at hc
  generalize styleOf cs = style at hc hstyled
  cases hstyled with
  | plain hne hadmits htext => exact hcs c hc
  | singleQuoted hadmits hnewline =>
    rcases List.mem_cons.1 hc with rfl | hc
    · decide
    · rcases mem_singleQuotedRest hc with hc | rfl | rfl
      · exact hcs c hc
      · decide
      · decide
  | doubleQuoted => exact (isPrintable_doubleQuoted hc).2
  | literal hadmits hnewline => exact absurd (hcs _ hnewline) (by decide)

theorem bytes_singleQuotedRest_le (indent : Nat) {cs : List Char}
    (hcs : ∀ c ∈ cs, isBreak c = false) :
    bytes (singleQuotedRest indent false cs) ≤ 2 * bytes cs + 1 := by
  induction cs with
  | nil =>
    show bytes [Quoted.single] ≤ 1
    decide
  | cons c cs ih =>
    have ih := ih fun d hd => hcs d (List.mem_cons_of_mem _ hd)
    -- a quote is written twice, and without breaks no line is indented
    have hquote : bytes (if c = Quoted.single then [c, c] else [c]) ≤ 2 * c.utf8Size := by
      split <;> simp <;> omega
    rw [singleQuotedRest, if_neg (by simp [hcs c List.mem_cons_self]), bytes_append, bytes_append,
      bytes_cons]
    simp only [Bool.false_eq_true, if_false, bytes_nil]
    omega

theorem bytes_of_isNarrow {cs : List Char} (h : ∀ c ∈ cs, IsNarrow c) : bytes cs = cs.length := by
  induction cs with
  | nil => rfl
  | cons c cs ih =>
    rw [bytes_cons, ih fun d hd => h d (List.mem_cons_of_mem _ hd), (h c List.mem_cons_self).2.2,
      List.length_cons, Nat.add_comm]

theorem bytes_escape_le (c : Char) : bytes (escape c) ≤ 4 * c.utf8Size := by
  have hpos : 0 < c.utf8Size := c.utf8Size_pos
  rw [bytes_of_isNarrow fun d hd => isNarrow_escape hd]
  generalize hescape : escape c = written
  cases hescape ▸ Quoted.escaped c with
  | letter => simp; omega
  | digits hread hnarrow hwidth hcode =>
    rw [List.length_cons, List.length_cons, Quoted.length_hexDigits hwidth.1 hcode]
    exact hwidth.2

theorem bytes_flatMap_written_le (cs : List Char) :
    bytes (cs.flatMap Quoted.written) ≤ 4 * bytes cs := by
  induction cs with
  | nil => decide
  | cons c cs ih =>
    have hc : bytes (Quoted.written c) ≤ 4 * c.utf8Size := by
      unfold Quoted.written
      split
      · simp
        omega
      · exact bytes_escape_le c
    rw [List.flatMap_cons, bytes_append, bytes_cons]
    omega

/-- In one line no byte is written as more than four, besides the
quotes. -/
theorem bytes_scalar_le (indent : Nat) {cs : List Char} (hcs : ∀ c ∈ cs, isBreak c = false) :
    bytes (scalar indent cs) ≤ 4 * bytes cs + 2 := by
  have hstyled := styled cs
  have hsingle : Quoted.single.utf8Size = 1 := by decide
  have hdouble : Quoted.double.utf8Size = 1 := by decide
  unfold scalar
  generalize styleOf cs = style at hstyled ⊢
  cases hstyled with
  | plain hne hadmits htext => simp; omega
  | singleQuoted hadmits hnewline =>
    have hrest := bytes_singleQuotedRest_le indent hcs
    simp only [singleQuoted, bytes_cons]
    omega
  | doubleQuoted =>
    have hwritten := bytes_flatMap_written_le cs
    simp only [Quoted.doubleQuoted_eq, bytes_cons, bytes_append, List.cons_append, bytes_nil]
    omega
  | literal hadmits hnewline => exact absurd (hcs _ hnewline) (by decide)

end Tree

end AtomProbe.Yaml
