import AtomProbe.Proofs.Yaml.Cursor
import AtomProbe.Yaml.Scalar.Plain

/-!
# `AtomProbe.Proofs.Yaml.Scalar.Plain`: reading a text without quotes

A text that may stand without quotes (`Tree.admitsPlain`) is read as it
is. It ends at a colon before a gap (`read_before_colon`) or with its
line (`read_before_break`).

The spaces inside of the text are held back until a word follows. So
the induction over the text carries the spaces that are held back
beside what has been read: behind each character they are the end of
what was passed (`scan_append`).
-/

set_option autoImplicit false

namespace AtomProbe.Yaml

open Yaml.Tree (hasIndicator hasPair_cons spaces)

namespace Plain

theorem hasIndicator_of_cons {c : Char} {cs : List Char} (h : hasIndicator (c :: cs) = false) :
    hasIndicator cs = false := by
  simp only [hasIndicator, hasPair_cons, Bool.or_eq_false_iff] at h ⊢
  refine ⟨⟨h.1.1.2, ?_⟩, h.2.2⟩
  cases cs with
  | nil => rfl
  | cons d ds => simpa using h.1.2

/-- A plain text, or what is left of one behind the given spaces. -/
structure IsRest (blanks cs : List Char) : Prop where
  isPrintable : ∀ c ∈ cs, isPrintable c = true ∧ isBreak c = false
  hasIndicator : hasIndicator cs = false
  head_ne : blanks ≠ [] → cs.head? ≠ some '#'
  getLast_ne : cs.getLast? ≠ some ' '
  blanks_eq : cs = [] → blanks = []

namespace IsRest

variable {blanks cs : List Char} {c : Char}

theorem of_cons (h : IsRest blanks (c :: cs)) : IsRest [] cs where
  isPrintable d hd := h.isPrintable d (List.mem_cons_of_mem _ hd)
  hasIndicator := hasIndicator_of_cons h.hasIndicator
  head_ne hne := absurd rfl hne
  getLast_ne := by
    cases cs with
    | nil => simp
    | cons d ds => simpa using h.getLast_ne
  blanks_eq _ := rfl

theorem of_space (h : IsRest blanks (' ' :: cs)) : IsRest (' ' :: blanks) cs where
  isPrintable d hd := h.isPrintable d (List.mem_cons_of_mem _ hd)
  hasIndicator := hasIndicator_of_cons h.hasIndicator
  head_ne _ hhead := by
    have hpair := h.hasIndicator
    simp [Tree.hasIndicator, hasPair_cons, hhead, isGap, isBlank] at hpair
  getLast_ne := by
    cases cs with
    | nil => exact absurd rfl h.getLast_ne
    | cons d ds => simpa using h.getLast_ne
  blanks_eq hnil := by
    subst hnil
    exact absurd rfl h.getLast_ne

/-- No colon of the text stands before a gap. -/
theorem not_endsAt (h : IsRest blanks (c :: cs)) (tail : List Char) :
    endsAt false c (cs ++ tail) = false := by
  have hindicator := h.hasIndicator
  simp only [Tree.hasIndicator, hasPair_cons, Bool.or_eq_false_iff] at hindicator
  cases cs with
  | nil =>
    have hc : (c == ':') = false := by simpa using hindicator.1.2
    simp [endsAt, hc]
  | cons d ds =>
    have hpair := hindicator.1.1.1
    simp only [List.head?_cons, Option.any_some] at hpair
    simp [endsAt, atGap, hpair]

end IsRest

/-- A text is passed character by character. The spaces that are held
back and what has been read make up what was passed. -/
theorem scan_append {cs : List Char} {blanks : List Char} (h : IsRest blanks cs) (least : Int)
    (tail : List Char) {p : Position} (hp : blanks ≠ [] → 0 < p.column) (text : List Char) :
    scan false least (cs ++ tail) p (.ofBlanks blanks) text =
      scan false least tail (p.through cs) .none (cs.reverse ++ (blanks ++ text)) := by
  induction cs generalizing blanks p text with
  | nil =>
    rw [h.blanks_eq rfl]
    rfl
  | cons c cs ih =>
    obtain ⟨hprintable, hbreak⟩ := h.isPrintable c List.mem_cons_self
    rw [List.cons_append, scan, Position.through_cons, hbreak, List.reverse_cons]
    -- spaces are held back until the next word shows that they are in the text
    by_cases hc : c = ' '
    · subst hc
      rw [if_pos (by decide), if_neg (by simp), Gap.addBlank_ofBlanks,
        ih h.of_space (fun _ => Nat.succ_pos _)]
      simp
    · rw [if_neg (by simp [isBlank_of_isPrintable hprintable hc]), if_neg (by simp)]
      -- a number sign would begin a comment here
      have hended : endedBefore false least p.column (.ofBlanks blanks) c (cs ++ tail) = false := by
        cases blanks with
        | nil => rfl
        | cons b bs =>
          have hne : c ≠ '#' := fun heq => h.head_ne (by simp) (by rw [heq]; rfl)
          have hcolumn : p.column ≠ 0 := Nat.ne_of_gt (hp (by simp))
          simp [endedBefore, hne, hcolumn, Gap.startsLine_ofBlanks]
      rw [hended, h.not_endsAt]
      have hnext := ih h.of_cons (p := p.next c) (by simp) (c :: (blanks ++ text))
      rw [Gap.ofBlanks_nil] at hnext
      simpa using hnext

/-- A text before a colon is read up to the colon. -/
theorem read_before_colon {cs : List Char} (h : IsRest [] cs) {rest : List Char}
    (hgap : atGap rest = true) (least : Int) (p : Position) :
    read false least ⟨cs ++ ':' :: rest, p⟩ =
      .ok ⟨cs, ⟨':' :: rest, p.through cs⟩, false⟩ := by
  have hscan := scan_append h least (':' :: rest) (p := p) (by simp) []
  rw [Gap.ofBlanks_nil] at hscan
  show scan false least (cs ++ ':' :: rest) p .none [] = _
  rw [hscan]
  simp [scan, isBlank, isBreak, endedBefore, endsAt, hgap, Gap.none, Gap.isSome, Gap.startsLine]

/-- The spaces of a new line do not count. -/
theorem scan_spaces (least : Int) (n : Nat) (rest : List Char) (p : Position) {gap : Gap}
    (hgap : gap.startsLine = true) (text : List Char) :
    scan false least (spaces n ++ rest) p gap text =
      scan false least rest ⟨p.line, p.column + n, p.offset + n⟩ gap text := by
  induction n generalizing p with
  | zero => rfl
  | succ n ih =>
    have hstep : scan false least (' ' :: (spaces n ++ rest)) p gap text =
        scan false least (spaces n ++ rest) (p.next ' ') gap text := by
      simp [scan, isBlank, Gap.addBlank, hgap]
    rw [spaces_succ, List.cons_append, hstep, ih]
    have hsize : Char.utf8Size ' ' = 1 := by decide
    simp only [Position.next, hsize, Nat.add_right_comm, Nat.add_assoc]

/-- A text at the end of a line is read up to the next token, which
stands to the left of the least column. -/
theorem read_before_break {cs : List Char} (h : IsRest [] cs) {more : List Char}
    (hmore : ∀ c ∈ more.head?, startsToken c = true) {m : Nat} {least : Int}
    (hm : (m : Int) < least) (p : Position) :
    read false least ⟨cs ++ '\n' :: (spaces m ++ more), p⟩ =
      .ok ⟨cs, ⟨more, ⟨(p.through cs).line + 1, m, m⟩⟩, true⟩ := by
  have hscan := scan_append h least ('\n' :: (spaces m ++ more)) (p := p) (by simp) []
  rw [Gap.ofBlanks_nil] at hscan
  have hbreak (q : Position) (text : List Char) :
      scan false least ('\n' :: (spaces m ++ more)) q .none text =
        scan false least (spaces m ++ more) q.nextLine ⟨[], ['\n'], false⟩ text := rfl
  show scan false least (cs ++ '\n' :: (spaces m ++ more)) p .none [] = _
  rw [hscan, hbreak, scan_spaces _ _ _ _ rfl]
  cases more with
  | nil => simp [scan, Gap.startsLine, Position.nextLine]
  | cons c more =>
    have hc : startsToken c = true := hmore c rfl
    have hended (q : Position) (hq : (q.column : Int) < least) :
        endedBefore false least q.column ⟨[], ['\n'], false⟩ c more = true := by
      simp [endedBefore, Gap.isSome, Gap.startsLine, hq]
    rw [scan, if_neg (by simp [isBlank_of_startsToken hc]),
      if_neg (by simp [isBreak_of_startsToken hc]), if_pos (hended _ (by simpa [Position.nextLine]))]
    simp [Gap.startsLine, Position.nextLine]

end Plain

end AtomProbe.Yaml
