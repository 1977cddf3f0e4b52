import AtomProbe.Proofs.Decimal.Digits
import AtomProbe.Proofs.Yaml.Cursor

/-!
# `AtomProbe.Proofs.Yaml.Scalar.Quoted`: reading a text between quotes

A text between double quotes is read back character by character
(`read_doubleQuoted`), each either as it stands or from its escape. A
text between single quotes may hold breaks, and is read back if no
space touches one of them (`read_singleQuoted`).
-/

set_option autoImplicit false

namespace AtomProbe.Yaml.Quoted

open Yaml.Tree (escape isDirect hexDigits doubleQuoted singleQuotedRest singleQuoted hasPair
  hasPair_of_cons isSpace spaces)

/-! ### Escapes -/

theorem charOfCode?_toNat (c : Char) : charOfCode? c.toNat = some c := by
  have hvalid : c.toNat.isValidChar := c.valid
  rw [charOfCode?, dif_pos hvalid]
  rfl

theorem length_hexDigits {width n : Nat} (hwidth : 0 < width) (hn : n < Nat.pow 16 width) :
    (hexDigits width n).length = width := by
  have hlength : (Nat.toDigits 16 n).length ≤ width :=
    (Nat.length_toDigits_le_iff (by decide) hwidth).2 hn
  simp only [hexDigits, List.length_append, List.length_replicate, List.length_map]
  omega

theorem accumulate_hexDigits (width n : Nat) :
    Decimal.accumulate 16 0 (hexDigits width n) = some n := by
  rw [hexDigits, Decimal.accumulate_replicate_zero (by decide)]
  exact Decimal.accumulate_digits (by decide)
    (fun d hd => Decimal.digit?_toUpper_digitChar (by decide) hd) n

/-- The digits of an escape are read as the character with this code. -/
theorem scanDouble_digits {ds : List Char} (hds : ds ≠ []) {value : Nat} {c : Char}
    (hvalue : Decimal.accumulate 16 value ds = some c.toNat) (tail : List Char) (p : Position)
    (gap : Gap) (text : List Char) :
    scanDouble (ds ++ tail) p (.digits ds.length value) gap text =
      scanDouble tail (p.advance ds) .text .none (c :: text) := by
  induction ds generalizing value p with
  | nil => exact absurd rfl hds
  | cons d ds ih =>
    rw [Decimal.accumulate, Option.bind_eq_some_iff] at hvalue
    obtain ⟨n, hdigit, hvalue⟩ := hvalue
    -- the last digit completes the code
    cases ds with
    | nil =>
      have hcode : charOfCode? (value * 16 + n) = some c := by
        rw [Option.some.inj hvalue]
        exact charOfCode?_toNat c
      simp [scanDouble, hdigit, hcode, Position.advance]
    | cons e es =>
      have hstep : scanDouble (d :: (e :: es ++ tail)) p (.digits (es.length + 2) value) gap text =
          scanDouble (e :: es ++ tail) (p.next d) (.digits (es.length + 1) (value * 16 + n)) gap
            text := by
        simp [scanDouble, hdigit]
      exact hstep.trans (ih (by simp) hvalue _)

/-- What the escape of a character looks like: a letter for it, or its
code with as many digits as another letter says. -/
inductive Escaped (c : Char) : List Char → Prop
  | letter {e : Char} (hread : escape? e = some c) (hnarrow : IsNarrow e) : Escaped c ['\\', e]
  | digits {e : Char} {width : Nat} (hread : escape? e = none ∧ escapeDigits? e = some width)
    (hnarrow : IsNarrow e) (hwidth : 0 < width ∧ width + 2 ≤ 4 * c.utf8Size)
    (hcode : c.toNat < Nat.pow 16 width) : Escaped c ('\\' :: e :: hexDigits width c.toNat)

/-- Characters with larger codes have more bytes. -/
theorem le_utf8Size (c : Char) :
    (0x7F < c.toNat → 2 ≤ c.utf8Size) ∧ (0xFFFF < c.toNat → 4 ≤ c.utf8Size) := by
  have hle (n : Nat) (hn : n < UInt32.size) : c.val ≤ UInt32.ofNatLT n hn ↔ c.toNat ≤ n :=
    UInt32.le_iff_toNat_le
  unfold Char.utf8Size
  simp only [hle]
  constructor
  · intro h
    rw [if_neg (by omega)]
    split
    · decide
    · split <;> decide
  · intro h
    have hsize : ¬ c.toNat ≤ 127 ∧ ¬ c.toNat ≤ 2047 ∧ ¬ c.toNat ≤ 65535 := by omega
    simp [hsize]

theorem escaped (c : Char) : Escaped c (escape c) := by
  have hsize : 0 < c.utf8Size := c.utf8Size_pos
  unfold escape
  split
  -- no letter stands for the character, so its code is written
  case h_15 =>
    split
    · next hle =>
      have hcode : c.toNat < Nat.pow 16 2 := Nat.lt_succ_of_le hle
      exact .digits ⟨rfl, rfl⟩ (by decide) (by omega) hcode
    · split
      · next hlt hle =>
        have hcode : c.toNat < Nat.pow 16 4 := Nat.lt_succ_of_le hle
        have htwo := (le_utf8Size c).1 (by omega)
        exact .digits ⟨rfl, rfl⟩ (by decide) (by omega) hcode
      · next hlt =>
        have hcode : c.toNat < Nat.pow 16 8 := c.val.toNat_lt
        have hfour := (le_utf8Size c).2 (by omega)
        exact .digits ⟨rfl, rfl⟩ (by decide) (by omega) hcode
  all_goals exact .letter rfl (by decide)

/-- An escape is read as its character. -/
theorem scanDouble_escape {c : Char} (tail : List Char) (p : Position)
    (blanks text : List Char) :
    scanDouble (escape c ++ tail) p .text (.ofBlanks blanks) text =
      scanDouble tail (p.advance (escape c)) .text .none (c :: (blanks ++ text)) := by
  have hbackslash (rest : List Char) :
      scanDouble ('\\' :: rest) p .text (.ofBlanks blanks) text =
        scanDouble rest (p.next '\\') .escape .none (blanks ++ text) := by
    simp [scanDouble, isBlank, isBreak, atDocumentMarker, double]
  generalize hescape : escape c = written
  cases hescape ▸ escaped c with
  | letter hread hnarrow =>
    rw [List.cons_append, hbackslash]
    simp [scanDouble, hnarrow.2.1, hread, Position.advance]
  | @digits e width hread hnarrow hwidth hcode =>
    have hlength := length_hexDigits hwidth.1 hcode
    have hne : hexDigits width c.toNat ≠ [] := by
      rw [← List.length_pos_iff, hlength]
      exact hwidth.1
    have hdigits := scanDouble_digits hne (accumulate_hexDigits width c.toNat) tail
      ((p.next '\\').next e) .none (blanks ++ text)
    rw [hlength] at hdigits
    rw [List.cons_append, hbackslash]
    simp [scanDouble, hnarrow.2.1, hread, hdigits, Position.advance]

/-! ### Double quotes -/

/-- What a character is written as between double quotes. -/
def written (c : Char) : List Char := if isDirect c then [c] else escape c

theorem doubleQuoted_eq (cs : List Char) :
    doubleQuoted cs = double :: cs.flatMap written ++ [double] := rfl

/-- A character that stands for itself is held back if it is a space,
and else read. -/
theorem scanDouble_direct {c : Char} (hc : isDirect c = true) (tail : List Char) {p : Position}
    (hp : 0 < p.column) (blanks text : List Char) :
    ∃ blanks' text', blanks' ++ text' = c :: (blanks ++ text) ∧
      scanDouble (c :: tail) p .text (.ofBlanks blanks) text =
        scanDouble tail (p.next c) .text (.ofBlanks blanks') text' := by
  simp only [isDirect, Bool.and_eq_true, Bool.not_eq_true', bne_iff_ne, ne_eq] at hc
  obtain ⟨⟨⟨hprintable, hbreak⟩, hdouble⟩, hbackslash⟩ := hc
  by_cases hspace : c = ' '
  · subst hspace
    exact ⟨' ' :: blanks, text, rfl, rfl⟩
  · have hcolumn : p.column ≠ 0 := Nat.ne_of_gt hp
    refine ⟨[], c :: (blanks ++ text), rfl, ?_⟩
    rw [Gap.ofBlanks_nil]
    simp [scanDouble, isBlank_of_isPrintable hprintable hspace, hbreak, hdouble, hbackslash,
      hcolumn]

/-- A text is read from what its characters are written as, up to the
closing quote. The spaces that are held back and what has been read make
up what was passed. -/
theorem scanDouble_flatMap (cs tail : List Char) {p : Position} (hp : 0 < p.column)
    (blanks text : List Char) :
    scanDouble (cs.flatMap written ++ double :: tail) p .text (.ofBlanks blanks) text =
      .ok ⟨(cs.reverse ++ (blanks ++ text)).reverse,
        ⟨tail, p.advance (cs.flatMap written ++ [double])⟩, false⟩ := by
  induction cs generalizing p blanks text with
  | nil =>
    simp [scanDouble, double, isBlank, isBreak, atDocumentMarker, Position.advance]
  | cons c cs ih =>
    rw [List.flatMap_cons, List.append_assoc, List.append_assoc, Position.advance_append]
    -- a character stands for itself, or an escape for it
    by_cases hc : isDirect c = true
    · obtain ⟨blanks', text', htext, hscan⟩ :=
        scanDouble_direct hc (cs.flatMap written ++ double :: tail) hp blanks text
      rw [written, if_pos hc, List.singleton_append, hscan, ih (Nat.succ_pos _), htext]
      simp [Position.advance]
    · have hcolumn : 0 < (p.advance (escape c)).column := by
        rw [Position.advance_eq]
        exact Nat.lt_of_lt_of_le hp (Nat.le_add_right _ _)
      rw [written, if_neg hc, scanDouble_escape, ← Gap.ofBlanks_nil, ih hcolumn]
      simp

/-- A text between double quotes is read back. -/
theorem read_doubleQuoted (cs tail : List Char) (p : Position) :
    read ⟨doubleQuoted cs ++ tail, p⟩ =
      .ok ⟨cs, ⟨tail, p.advance (doubleQuoted cs)⟩, false⟩ := by
  have hscan := scanDouble_flatMap cs tail (p := p.next double) (Nat.succ_pos _) [] []
  rw [Gap.ofBlanks_nil] at hscan
  have hread : read ⟨doubleQuoted cs ++ tail, p⟩ =
      scanDouble (cs.flatMap written ++ [double] ++ tail) (p.next double) .text .none [] := rfl
  rw [hread, List.append_assoc, List.singleton_append, hscan]
  simp [doubleQuoted_eq, Position.advance]

/-! ### Single quotes -/

/-- The gap of the given characters: breaks behind a break, and spaces
elsewhere. -/
def heldBack (behindBreak : Bool) (held : List Char) : Gap :=
  if behindBreak then ⟨[], held, false⟩ else .ofBlanks held

/-- What is left of a text between single quotes behind the characters
that are held back. -/
structure IsRest (behindBreak : Bool) (held cs : List Char) : Prop where
  isPrintable : ∀ c ∈ cs, isPrintable c = true ∧ c ≠ '\n'
  space_break : hasPair isSpace isBreak cs = false
  break_space : hasPair isBreak isSpace cs = false
  /-- Behind a break no space follows. -/
  of_break : behindBreak = true → held ≠ [] ∧ '\n' ∉ held ∧ cs.head? ≠ some ' '
  /-- Behind spaces no break follows. -/
  of_space : behindBreak = false → held ≠ [] → cs.head?.any isBreak = false

namespace IsRest

variable {behindBreak : Bool} {held cs : List Char} {c : Char}

theorem text_heldBack (h : IsRest behindBreak held cs) :
    (heldBack behindBreak held).text = held.reverse := by
  cases behindBreak with
  | false => rfl
  | true =>
    obtain ⟨hne, hnewline, -⟩ := h.of_break rfl
    have hreverse : held.reverse ≠ [] := by simpa using hne
    have hmem : '\n' ∉ held.reverse := by simpa using hnewline
    simp only [heldBack, if_true, Gap.text]
    split <;> simp_all

theorem held_eq_nil (h : IsRest false held (c :: cs)) (hc : isBreak c = true) : held = [] := by
  cases held with
  | nil => rfl
  | cons d ds =>
    have hhead := h.of_space rfl (by simp)
    simp [hc] at hhead

theorem cons_break (h : IsRest behindBreak held (c :: cs)) (hc : isBreak c = true) :
    IsRest true (c :: held) cs where
  isPrintable d hd := h.isPrintable d (List.mem_cons_of_mem _ hd)
  space_break := (hasPair_of_cons h.space_break).2
  break_space := (hasPair_of_cons h.break_space).2
  of_break _ := by
    have hnewline : '\n' ∉ held := by
      cases behindBreak with
      | true => exact (h.of_break rfl).2.1
      | false => simp [h.held_eq_nil hc]
    have hnext := (hasPair_of_cons h.break_space).1 hc
    refine ⟨by simp, ?_, fun hspace => ?_⟩
    · simpa [hnewline] using (h.isPrintable c List.mem_cons_self).2.symm
    · simp [hspace, isSpace] at hnext
  of_space hbehind := by cases hbehind

theorem cons_space (h : IsRest false held (' ' :: cs)) : IsRest false (' ' :: held) cs where
  isPrintable d hd := h.isPrintable d (List.mem_cons_of_mem _ hd)
  space_break := (hasPair_of_cons h.space_break).2
  break_space := (hasPair_of_cons h.break_space).2
  of_break hbehind := by cases hbehind
  of_space _ _ := (hasPair_of_cons h.space_break).1 rfl

theorem cons_word (h : IsRest behindBreak held (c :: cs)) : IsRest false [] cs where
  isPrintable d hd := h.isPrintable d (List.mem_cons_of_mem _ hd)
  space_break := (hasPair_of_cons h.space_break).2
  break_space := (hasPair_of_cons h.break_space).2
  of_break hbehind := by cases hbehind
  of_space _ hne := absurd rfl hne

end IsRest

/-- The spaces of a new line do not count. -/
theorem scanSingle_spaces (n : Nat) (rest : List Char) (p : Position) {gap : Gap}
    (hgap : gap.startsLine = true) (text : List Char) :
    scanSingle (spaces n ++ rest) p gap text =
      scanSingle rest (p.through (spaces n)) gap text := by
  induction n generalizing p with
  | zero => rfl
  | succ n ih =>
    have hstep : scanSingle (' ' :: (spaces n ++ rest)) p gap text =
        scanSingle (spaces n ++ rest) (p.next ' ') gap text := by
      simp [scanSingle, isBlank, Gap.addBlank, hgap]
    rw [spaces_succ, List.cons_append, hstep, ih]
    rfl

/-- The indentation of a line that a break begins is passed. -/
theorem scanSingle_indent {behindBreak : Bool} {held cs : List Char}
    (h : IsRest behindBreak held cs) (indent : Nat) (rest : List Char) (p : Position)
    (text : List Char) :
    scanSingle ((if behindBreak then spaces indent else []) ++ rest) p
        (heldBack behindBreak held) text =
      scanSingle rest (p.through (if behindBreak then spaces indent else []))
        (heldBack behindBreak held) text := by
  cases behindBreak with
  | false => rfl
  | true =>
    have hstarts : (heldBack true held).startsLine = true := by
      simp [heldBack, Gap.startsLine, (h.of_break rfl).1]
    exact scanSingle_spaces indent rest p hstarts text

/-- A character of a word is read, and so is what was held back. -/
theorem scanSingle_word {behindBreak : Bool} {held cs : List Char} {c : Char}
    (h : IsRest behindBreak held (c :: cs)) (hspace : c ≠ ' ') (hbreak : isBreak c = false)
    (rest : List Char) {p : Position} (hp : 0 < p.column) (text : List Char) :
    scanSingle ((if c = single then [c, c] else [c]) ++ rest) p (heldBack behindBreak held) text =
      scanSingle rest (p.through (if c = single then [c, c] else [c])) (heldBack false [])
        (c :: (held ++ text)) := by
  have hblank := isBlank_of_isPrintable (h.isPrintable c List.mem_cons_self).1 hspace
  have hcolumn : p.column ≠ 0 := Nat.ne_of_gt hp
  split
  · next hsingle =>
    subst hsingle
    have hmarker : ¬ ((p.column == 0 && atDocumentMarker (single :: (single :: rest))) = true) := by
      simp [hcolumn]
    rw [List.cons_append, List.singleton_append, scanSingle, if_neg (by decide),
      if_neg (by decide), if_neg hmarker, if_pos rfl, h.text_heldBack, List.reverse_reverse]
    rfl
  · next hsingle =>
    rw [List.singleton_append, scanSingle, if_neg (by simp [hblank]), if_neg (by simp [hbreak]),
      if_neg (by simp [hcolumn]), if_neg hsingle, h.text_heldBack, List.reverse_reverse,
      Position.through_cons, hbreak]
    rfl

/-- The closing quote ends the text, unless another quote follows it. -/
theorem scanSingle_close {behindBreak : Bool} {held : List Char} (h : IsRest behindBreak held [])
    {tail : List Char} (htail : tail.head? ≠ some single) (p : Position) (text : List Char) :
    scanSingle (single :: tail) p (heldBack behindBreak held) text =
      .ok ⟨(held ++ text).reverse, ⟨tail, p.next single⟩, false⟩ := by
  unfold scanSingle
  rw [if_neg (by decide), if_neg (by decide), if_neg (by simp [single, atDocumentMarker]),
    if_pos rfl, h.text_heldBack, List.reverse_reverse]
  split
  · exact absurd rfl htail
  · rfl

/-- A text is read from what is written for it, up to the closing
quote. What is held back and what has been read make up what was
passed. -/
theorem scanSingle_rest {indent : Nat} (hindent : 0 < indent) {cs tail : List Char}
    (htail : tail.head? ≠ some single) {behindBreak : Bool} {held : List Char}
    (h : IsRest behindBreak held cs) {p : Position} (hp : behindBreak = false → 0 < p.column)
    (text : List Char) :
    scanSingle (singleQuotedRest indent behindBreak cs ++ tail) p (heldBack behindBreak held) text =
      .ok ⟨(cs.reverse ++ (held ++ text)).reverse,
        ⟨tail, p.through (singleQuotedRest indent behindBreak cs)⟩, false⟩ := by
  induction cs generalizing behindBreak held p text with
  | nil =>
    rw [singleQuotedRest, List.append_assoc, scanSingle_indent h, Position.through_append]
    exact scanSingle_close h htail _ text
  | cons c cs ih =>
    rw [singleQuotedRest]
    -- the first of some breaks is written twice, since one alone is folded
    by_cases hbreak : isBreak c = true
    · have hc := (h.isPrintable c List.mem_cons_self).2
      have hgap : (heldBack behindBreak held).addBreak c = heldBack true (c :: held) := by
        cases behindBreak with
        | true => rfl
        | false => simp [h.held_eq_nil hbreak, heldBack, Gap.addBreak, Gap.ofBlanks]
      rw [if_pos hbreak, if_neg (by simp [hc]), List.cons_append, List.nil_append, List.cons_append,
        scanSingle, if_neg (by simp [isBlank_of_isBreak hbreak]), if_pos hbreak, hgap,
        ih (h.cons_break hbreak) (by simp), Position.through_cons, if_pos hbreak]
      simp
    · have hbreak : isBreak c = false := by simpa using hbreak
      obtain ⟨hprintable, -⟩ := h.isPrintable c List.mem_cons_self
      rw [if_neg (by simp [hbreak]), List.append_assoc, List.append_assoc, scanSingle_indent h,
        Position.through_append, Position.through_append]
      have hcolumn : 0 < (p.through (if behindBreak then spaces indent else [])).column := by
        cases behindBreak with
        | false => exact hp rfl
        | true =>
          rw [if_pos rfl, Position.through_spaces]
          exact Nat.lt_of_lt_of_le hindent (Nat.le_add_left _ _)
      generalize p.through (if behindBreak then spaces indent else []) = q at hcolumn ⊢
      -- spaces are held back, and a quote is written twice
      by_cases hspace : c = ' '
      · subst hspace
        cases behindBreak with
        | true => exact absurd rfl (h.of_break rfl).2.2
        | false =>
          have hnext := ih h.cons_space (p := q.next ' ') (fun _ => Nat.succ_pos _) text
          have hscan (rest : List Char) : scanSingle (' ' :: rest) q (heldBack false held) text =
              scanSingle rest (q.next ' ') (heldBack false (' ' :: held)) text := by
            rw [scanSingle, if_pos (by decide)]
            rfl
          rw [if_neg (by decide), List.singleton_append, hscan, hnext, List.reverse_cons,
            List.append_assoc]
          rfl
      · have hnext : 0 < (q.through (if c = single then [c, c] else [c])).column := by
          split <;> simp [Position.through_cons, hbreak, Position.next]
        rw [scanSingle_word h hspace hbreak _ hcolumn, ih h.cons_word (fun _ => hnext)]
        simp

/-- A text between single quotes is read back, if no space touches one
of its breaks and none of them is a line feed. -/
theorem read_singleQuoted {cs : List Char} (h : IsRest false [] cs) {indent : Nat}
    (hindent : 0 < indent) {tail : List Char} (htail : tail.head? ≠ some single) (p : Position) :
    read ⟨singleQuoted indent cs ++ tail, p⟩ =
      .ok ⟨cs, ⟨tail, p.through (singleQuoted indent cs)⟩, false⟩ := by
  have hscan := scanSingle_rest hindent htail h (p := p.next single) (fun _ => Nat.succ_pos _) []
  have hread : read ⟨singleQuoted indent cs ++ tail, p⟩ =
      scanSingle (singleQuotedRest indent false cs ++ tail) (p.next single) .none [] := rfl
  rw [hread]
  refine hscan.trans ?_
  simp only [List.append_nil, List.reverse_reverse]
  rfl

end AtomProbe.Yaml.Quoted
