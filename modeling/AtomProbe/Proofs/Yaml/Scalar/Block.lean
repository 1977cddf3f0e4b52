import AtomProbe.Proofs.Yaml.Cursor
import AtomProbe.Yaml.Scalar.Block
import AtomProbe.Yaml.Tree

/-!
# `AtomProbe.Proofs.Yaml.Scalar.Block`: reading a literal scalar

A text that is written as a literal scalar is read back
(`read_literal`). The reader passes the lines character by character,
which is a fold of `State.pass` (`scan_literalLines`). What it knows of
the characters that it passed is `State.Holds`: it has them all, and can
tell the breaks at the end from the others. So each choice of the hints
keeps the breaks that the text ends with.
-/

set_option autoImplicit false

namespace AtomProbe.Yaml.Block

open Yaml.Tree (spaces literalLines)

/-! ### Passing the lines -/

namespace State

/-- Behind another character of the text, where the lines stand at the
given column. -/
def pass (column : Nat) (s : State) (c : Char) : State :=
  if s.inLine then
    if isBreak c then { s with lineBreak := some c, inLine := false }
    else { s with text := c :: s.text }
  else if isBreak c then { s with emptyLines := c :: s.emptyLines }
  else s.beginLine false column c

/-- The column of the lines is known, or it can be seen from the next
character, which begins the first line that is not empty. -/
def Knows (s : State) (column least : Nat) (c : Char) : Prop :=
  s.column = some column ∨
    (s.column = none ∧ s.inLine = false ∧ isBreak c = false ∧ c ≠ ' ' ∧ s.deepest ≤ column ∧
      least ≤ column)

theorem column_pass {column least : Nat} {s : State} {c : Char} (h : s.Knows column least c) :
    (s.pass column c).column = some column := by
  unfold pass beginLine
  rcases h with hsome | ⟨-, hline, hbreak, -⟩
  · split <;> split <;> simp [hsome]
  · simp [hline, hbreak]

/-- Behind a character the column of the lines is known. -/
theorem column_foldl_pass {column least : Nat} {s : State} {cs : List Char} (hne : cs ≠ [])
    (h : ∀ c ∈ cs.head?, s.Knows column least c) :
    (cs.foldl (pass column) s).column = some column := by
  induction cs generalizing s with
  | nil => exact absurd rfl hne
  | cons c cs ih =>
    have hcolumn := column_pass (h c rfl)
    cases cs with
    | nil => exact hcolumn
    | cons d ds => exact ih (by simp) fun _ _ => .inl hcolumn

theorem inLine_pass (column : Nat) (s : State) (c : Char) :
    (s.pass column c).inLine = !isBreak c := by
  unfold pass beginLine
  split <;> split <;> simp_all

/-- What is known of the characters that were passed, the latest
first. -/
structure Holds (s : State) (passed : List Char) : Prop where
  passed_eq : s.emptyLines ++ s.lineBreak.toList ++ s.text = passed
  isBreak_emptyLines : ∀ c ∈ s.emptyLines, isBreak c = true
  isBreak_lineBreak : ∀ c ∈ s.lineBreak, isBreak c = true
  head_text : s.text.head?.any isBreak = false
  of_inLine : s.inLine = true → s.emptyLines = [] ∧ s.lineBreak = none
  /-- A line that is not empty has a break behind it. -/
  of_none : s.inLine = false → s.lineBreak = none → s.text = []

theorem Holds.pass {s : State} {passed : List Char} (h : s.Holds passed) (column : Nat)
    (c : Char) : (s.pass column c).Holds (c :: passed) := by
  -- within a line breaks end it, and before one they are kept as empty lines
  cases hline : s.inLine with
  | true =>
    obtain ⟨hempty, hbreak⟩ := h.of_inLine hline
    have htext : s.text = passed := by simpa [hempty, hbreak] using h.passed_eq
    by_cases hc : isBreak c = true
    · have hpass : s.pass column c = { s with lineBreak := some c, inLine := false } := by
        simp [State.pass, hline, hc]
      rw [hpass]
      exact ⟨by simp [hempty, htext], by simp [hempty], by simpa using hc, h.head_text,
        by simp, by simp⟩
    · have hpass : s.pass column c = { s with text := c :: s.text } := by
        simp [State.pass, hline, hc]
      rw [hpass]
      exact ⟨by simp [hempty, hbreak, htext], by simp [hempty], by simp [hbreak],
        by simpa using hc, fun _ => ⟨hempty, hbreak⟩, by simp [hline]⟩
  | false =>
    by_cases hc : isBreak c = true
    · have hpass : s.pass column c = { s with emptyLines := c :: s.emptyLines } := by
        simp [State.pass, hline, hc]
      rw [hpass]
      refine ⟨by simp [← h.passed_eq], ?_, h.isBreak_lineBreak, h.head_text, by simp [hline],
        h.of_none⟩
      simpa [hc] using h.isBreak_emptyLines
    · have hpass : s.pass column c = s.beginLine false column c := by
        simp [State.pass, hline, hc]
      rw [hpass]
      exact ⟨by simp [beginLine, ← h.passed_eq], by simp [beginLine], by simp [beginLine],
        by simpa [beginLine] using hc, by simp [beginLine], by simp [beginLine]⟩

theorem Holds.foldl_pass {s : State} {passed : List Char} (h : s.Holds passed) (column : Nat)
    (cs : List Char) : (cs.foldl (State.pass column) s).Holds (cs.reverse ++ passed) := by
  induction cs generalizing s passed with
  | nil => exact h
  | cons c cs ih =>
    rw [List.foldl_cons, List.reverse_cons, List.append_assoc]
    exact ih (h.pass column c)

/-- A single break at the end is the break of the last line. -/
theorem Holds.of_single {s : State} {b c : Char} {cs : List Char} (h : s.Holds (b :: c :: cs))
    (hb : isBreak b = true) (hc : isBreak c = false) :
    s.emptyLines = [] ∧ s.lineBreak = some b ∧ s.text = c :: cs := by
  have hpassed := h.passed_eq
  -- the breaks that are held back come first, then what is in the text
  cases hempty : s.emptyLines with
  | nil =>
    cases hbreak : s.lineBreak with
    | none =>
      have htext := h.head_text
      rw [hempty, hbreak] at hpassed
      simp only [Option.toList_none, List.nil_append] at hpassed
      simp [hpassed, hb] at htext
    | some d =>
      rw [hempty, hbreak] at hpassed
      simp only [Option.toList_some, List.nil_append, List.singleton_append,
        List.cons.injEq] at hpassed
      exact ⟨rfl, by rw [hpassed.1], hpassed.2⟩
  | cons e es =>
    rw [hempty, List.cons_append, List.cons_append, List.cons.injEq] at hpassed
    cases es with
    | nil =>
      cases hbreak : s.lineBreak with
      | none =>
        have hline : s.inLine = false := by
          cases hline : s.inLine with
          | true => exact absurd (h.of_inLine hline).1 (by simp [hempty])
          | false => rfl
        simp [hbreak, h.of_none hline hbreak] at hpassed
      | some d =>
        have hd := h.isBreak_lineBreak d (by simp [hbreak])
        simp [hbreak] at hpassed
        rw [hpassed.2.1, hc] at hd
        cases hd
    | cons d ds =>
      have hd := h.isBreak_emptyLines d (by simp [hempty])
      simp at hpassed
      rw [hpassed.2.1, hc] at hd
      cases hd

end State

variable {column least : Nat}

/-- The spaces before the column of the lines are passed over. -/
theorem scan_spaces {s : State} (hline : s.inLine = false)
    (hleft : ∀ n, n < column → s.isLeft n = true) {n : Nat} (p : Position)
    (hn : p.column + n ≤ column) (rest : List Char) :
    scan false least (spaces n ++ rest) p s = scan false least rest (p.through (spaces n)) s := by
  induction n generalizing p with
  | zero => rfl
  | succ n ih =>
    have hstep : scan false least (' ' :: (spaces n ++ rest)) p s =
        scan false least (spaces n ++ rest) (p.next ' ') s := by
      rw [scan, if_neg (by simp [hline]), if_pos ⟨rfl, hleft _ (by omega)⟩]
    have hcolumn : (p.next ' ').column = p.column + 1 := rfl
    rw [spaces_succ, List.cons_append, hstep, ih _ (by omega)]
    rfl

/-- The first character of a line. -/
theorem scan_beginLine {s : State} (hline : s.inLine = false) {c : Char}
    (hknows : s.Knows column least c) (hprintable : isPrintable c = true)
    (hbreak : isBreak c = false) {p : Position} (hp : p.column = 0) (rest : List Char) :
    scan false least (spaces column ++ c :: rest) p s =
      scan false least rest (p.through (spaces column ++ [c])) (s.beginLine false column c) := by
  -- no space of the indentation is taken for one of the text
  have hleft : ∀ n, n < column → s.isLeft n = true := by
    intro n hn
    unfold State.isLeft
    rcases hknows with hsome | ⟨hnone, -⟩
    · simpa [hsome] using hn
    · simp [hnone]
  rw [scan_spaces hline hleft p (by omega), Position.through_append, Position.through_spaces, hp,
    Nat.zero_add, Position.through_cons, hbreak]
  have hspace : ¬ (c = ' ' ∧ s.isLeft column = true) := by
    rintro ⟨hc, hleft⟩
    rcases hknows with hsome | ⟨-, -, -, hne, -⟩
    · simp [State.isLeft, hsome] at hleft
    · exact hne hc
  have htab : ¬ (c = '\t' ∧ s.isLeft column = true) := by
    rintro ⟨rfl, -⟩
    exact absurd hprintable (by decide)
  -- the first line of the text tells the column of the others
  have hcolumn : column = s.column.getD (max (max s.deepest column) least) := by
    rcases hknows with hsome | ⟨hnone, -, -, -, hdeepest, hleast⟩
    · simp [hsome]
    · rw [hnone]
      show column = max (max s.deepest column) least
      omega
  rw [scan, if_neg (by simp [hline]), if_neg hspace]
  simp only [hbreak, if_neg htab, ← hcolumn]
  rfl

/-- A character of a line is passed, with the spaces before it. -/
theorem scan_char {s : State} {c : Char}
    (hknows : s.Knows column least c) (hprintable : isPrintable c = true)
    (hbreak : isBreak c = false) {p : Position} (hp : s.inLine = false → p.column = 0)
    (rest : List Char) :
    scan false least ((if !s.inLine then spaces column else []) ++ c :: rest) p s =
      scan false least rest (p.through ((if !s.inLine then spaces column else []) ++ [c]))
        (s.pass column c) := by
  cases hline : s.inLine with
  | true =>
    have hscan : scan false least (c :: rest) p s =
        scan false least rest (p.next c) { s with text := c :: s.text } := by
      simp [scan, hline, hbreak]
    have hpass : s.pass column c = { s with text := c :: s.text } := by
      simp [State.pass, hline, hbreak]
    have hthrough : p.through [c] = p.next c := by simp [Position.through_cons, hbreak]
    simp [hscan, hpass, hthrough]
  | false =>
    have hpass : s.pass column c = s.beginLine false column c := by
      simp [State.pass, hline, hbreak]
    rw [hpass]
    exact scan_beginLine hline hknows hprintable hbreak (hp hline) rest

/-- A break is passed, at the end of a line or in an empty line. -/
theorem scan_break (s : State) {b : Char} (hb : isBreak b = true) {p : Position}
    (hp : s.inLine = false → p.column = 0) (rest : List Char) :
    scan false least (b :: rest) p s = scan false least rest p.nextLine (s.pass column b) := by
  cases hline : s.inLine with
  | true =>
    have hpass : s.pass column b = { s with lineBreak := some b, inLine := false } := by
      simp [State.pass, hline, hb]
    simp [scan, hline, hb, hpass]
  | false =>
    have hpass : s.pass column b = { s with emptyLines := b :: s.emptyLines } := by
      simp [State.pass, hline, hb]
    have hblank := isBlank_of_isBreak hb
    simp only [isBlank, Bool.or_eq_false_iff, beq_eq_false_iff_ne, ne_eq] at hblank
    rw [hpass, scan, if_neg (by simp [hline]), if_neg (by simp [hblank])]
    simp [hblank, hb, hp hline]

/-- The lines of a text are passed character by character. -/
theorem scan_literalLines {cs : List Char} (hcs : ∀ c ∈ cs, isPrintable c = true) {s : State}
    (hknows : ∀ c ∈ cs.head?, s.Knows column least c) {p : Position}
    (hp : s.inLine = false → p.column = 0) (rest : List Char) :
    scan false least (literalLines column (!s.inLine) cs ++ rest) p s =
      scan false least rest (p.through (literalLines column (!s.inLine) cs))
        (cs.foldl (State.pass column) s) := by
  induction cs generalizing s p with
  | nil => rfl
  | cons c cs ih =>
    have hrest : ∀ d ∈ cs, isPrintable d = true := fun d hd => hcs d (List.mem_cons_of_mem _ hd)
    have hknows := hknows c rfl
    have hnext : ∀ d ∈ cs.head?, (s.pass column c).Knows column least d :=
      fun _ _ => .inl (State.column_pass hknows)
    have hline := State.inLine_pass column s c
    rw [literalLines, List.foldl_cons]
    -- the indentation is only written before the first character of a line
    by_cases hbreak : isBreak c = true
    · have ih := ih hrest hnext (p := p.nextLine) (fun _ => rfl)
      rw [hline, hbreak] at ih
      rw [if_pos hbreak, List.cons_append, scan_break s hbreak hp, Position.through_cons,
        if_pos hbreak]
      exact ih
    · have hbreak : isBreak c = false := by simpa using hbreak
      have hstep := scan_char hknows (hcs c List.mem_cons_self) hbreak hp
        (literalLines column false cs ++ rest)
      have ih := ih hrest hnext
        (p := p.through ((if !s.inLine then spaces column else []) ++ [c])) (by simp [hline, hbreak])
      rw [hline, hbreak, ← Position.through_append, ← List.append_cons] at ih
      rw [if_neg (by simp [hbreak]), List.append_assoc, List.cons_append, hstep]
      exact ih

/-- The scalar ends at a token to the left of its lines. -/
theorem scan_end {s : State} (hline : s.inLine = false) (hcolumn : s.column = some column)
    {more : List Char} (hmore : ∀ c ∈ more.head?, startsToken c = true) {m : Nat} (hm : m < column)
    (line : Nat) :
    scan false least (spaces m ++ more) ⟨line, 0, 0⟩ s = .ok (s, ⟨more, ⟨line, m, m⟩⟩) := by
  have hleft : ∀ n, n < column → s.isLeft n = true := by
    intro n hn
    simpa [State.isLeft, hcolumn] using hn
  rw [scan_spaces hline hleft _ (by simpa using Nat.le_of_lt hm), Position.through_spaces,
    Nat.zero_add]
  cases more with
  | nil => rfl
  | cons c more =>
    have hc : startsToken c = true := hmore c rfl
    have hblank := isBlank_of_startsToken hc
    simp only [isBlank, Bool.or_eq_false_iff, beq_eq_false_iff_ne, ne_eq] at hblank
    have hne : m ≠ column := Nat.ne_of_lt hm
    rw [scan, if_neg (by simp [hline]), if_neg (by simp [hblank])]
    simp [hblank, isBreak_of_startsToken hc, hcolumn, hne]

/-! ### The header -/

/-- Which breaks at its end a text asks to keep. -/
def chompingOf (cs : List Char) : Chomping :=
  match cs.reverse with
  | [] => .strip
  | last :: before =>
    if !isBreak last then .strip
    else if before.head?.all isBreak then .keep
    else .clip

/-- The indentation that a text asks to be said. -/
def indentationOf (cs : List Char) : Option Nat :=
  if cs.head?.any fun c => c == ' ' || isBreak c then some Tree.step else none

/-- The indicator for the breaks at the end. -/
def chompingHint : Chomping → List Char
  | .clip => []
  | .strip => ['-']
  | .keep => ['+']

theorem literalHints_eq (cs : List Char) :
    Tree.literalHints cs =
      (if (indentationOf cs).isSome then ['2'] else []) ++ chompingHint (chompingOf cs) := by
  have hstep : Nat.toDigits 10 Tree.step = ['2'] := by decide
  have hindentation : (if cs.head?.any fun c => c == ' ' || isBreak c then ['2'] else []) =
      if (indentationOf cs).isSome then ['2'] else [] := by
    unfold indentationOf
    split <;> rfl
  rw [Tree.literalHints, hstep, hindentation, chompingOf]
  refine congrArg ((if (indentationOf cs).isSome then ['2'] else []) ++ ·) ?_
  cases cs.reverse with
  | nil => rfl
  | cons last before =>
    simp only
    split
    · rfl
    · split <;> rfl

/-- The hints are read as what the text asks for. -/
theorem indicators_literalHints (cs rest : List Char) (p : Position) :
    indicators ⟨Tree.literalHints cs ++ '\n' :: rest, p⟩ =
      .ok (⟨chompingOf cs, indentationOf cs⟩,
        ⟨'\n' :: rest, p.advance (Tree.literalHints cs)⟩) := by
  rw [literalHints_eq]
  have hindentation : indentationOf cs = none ∨ indentationOf cs = some 2 := by
    unfold indentationOf
    split
    · exact .inr rfl
    · exact .inl rfl
  rcases hindentation with h | h <;> rw [h] <;> cases chompingOf cs <;> rfl

/-- The breaks at the end of a text are those that are kept. -/
theorem chomp_of_holds {cs : List Char} {s : State}
    (h : s.Holds (Tree.endLine cs).reverse) (hne : cs ≠ []) : s.chomp (chompingOf cs) = cs := by
  obtain ⟨last, before, hreverse⟩ : ∃ last before, cs.reverse = last :: before :=
    List.exists_cons_of_ne_nil (by simpa using hne)
  have hlast : cs.getLast? = some last := by rw [List.getLast?_eq_head?_reverse, hreverse]; rfl
  have hcs : cs = (last :: before).reverse := by rw [← hreverse, List.reverse_reverse]
  simp only [chompingOf, hreverse]
  simp only [Tree.endLine, hlast, Option.any_some] at h
  -- whether the text ends with one break, with more or with none
  cases hbreak : isBreak last with
  | false =>
    rw [hbreak, if_neg (by simp), List.reverse_append, hreverse] at h
    obtain ⟨-, -, htext⟩ := h.of_single (by decide) hbreak
    rw [if_pos (by simp), hcs]
    simp [State.chomp, htext]
  | true =>
    rw [hbreak, if_pos rfl, hreverse] at h
    rw [if_neg (by simp)]
    split
    · rw [hcs, ← h.passed_eq]
      rfl
    · next hall =>
      obtain ⟨d, ds, rfl⟩ : ∃ d ds, before = d :: ds := by
        cases before with
        | nil => exact absurd rfl hall
        | cons d ds => exact ⟨d, ds, rfl⟩
      obtain ⟨-, hline, htext⟩ := h.of_single hbreak (by simpa using hall)
      rw [hcs]
      simp [State.chomp, hline, htext]

/-! ### Whole scalars -/

theorem getLast?_literalLines (column : Nat) (atStart : Bool) (cs : List Char) :
    (literalLines column atStart cs).getLast? = cs.getLast? := by
  induction cs generalizing atStart with
  | nil => rfl
  | cons c cs ih =>
    rw [literalLines]
    split <;> simp [List.getLast?_append, List.getLast?_cons, ih]

theorem literalLines_concat (column : Nat) (atStart : Bool) (cs : List Char) {b : Char}
    (hb : isBreak b = true) :
    literalLines column atStart (cs ++ [b]) = literalLines column atStart cs ++ [b] := by
  induction cs generalizing atStart with
  | nil => simp [literalLines, hb]
  | cons c cs ih =>
    rw [List.cons_append, literalLines, literalLines]
    split <;> simp [ih]

/-- The end of the last line is part of the lines. -/
theorem endLine_literal (column : Nat) {cs : List Char} (hne : cs ≠ []) :
    Tree.endLine (Tree.literal column cs) =
      '|' :: Tree.literalHints cs ++ '\n' :: literalLines column true (Tree.endLine cs) := by
  have hlast : (Tree.literal column cs).getLast? = cs.getLast? := by
    obtain ⟨last, hlast⟩ : ∃ last, cs.getLast? = some last :=
      ⟨cs.getLast hne, List.getLast?_eq_some_getLast hne⟩
    have hlines := getLast?_literalLines column true cs
    rw [hlast] at hlines ⊢
    simp [Tree.literal, List.getLast?_append, List.getLast?_cons, hlines]
  unfold Tree.endLine
  rw [hlast]
  split
  · rfl
  · rw [literalLines_concat column true cs (by decide)]
    simp [Tree.literal]

theorem through_concat_break (p : Position) (cs : List Char) {b : Char} (hb : isBreak b = true) :
    p.through (cs ++ [b]) = (p.through cs).nextLine := by
  rw [Position.through_append, Position.through_cons, hb]
  rfl

theorem exists_endLine (cs : List Char) :
    ∃ ds b, isBreak b = true ∧ Tree.endLine cs = ds ++ [b] := by
  unfold Tree.endLine
  split
  · next h =>
    cases hlast : cs.getLast? with
    | none => simp [hlast] at h
    | some b =>
      obtain ⟨ds, hds⟩ := List.getLast?_eq_some_iff.1 hlast
      exact ⟨ds, b, by simpa [hlast] using h, hds⟩
  · exact ⟨cs, '\n', by decide, rfl⟩

/-- The reader knows the column of the lines, or sees it from the first
one. -/
theorem knows_initial {cs : List Char} {c : Char} (hc : cs.head? = some c) (n : Nat) :
    State.Knows ⟨(indentationOf cs).map (· + n), 0, [], none, [], false, false⟩ (n + Tree.step)
      (max 1 (n + 1)) c := by
  unfold indentationOf
  rw [hc, Option.any_some]
  split
  · exact .inl (by simp [Nat.add_comm])
  · next h =>
    simp only [Bool.or_eq_true, beq_iff_eq, not_or, Bool.not_eq_true] at h
    exact .inr ⟨rfl, rfl, h.2, h.1, Nat.zero_le _, by simp [Tree.step]⟩

/-- A literal scalar is read back, in a block that stands to the left of
its lines. -/
theorem read_literal {cs : List Char} (hcs : ∀ c ∈ cs, isPrintable c = true) (hne : cs ≠ [])
    (n : Nat) {more : List Char} (hmore : ∀ c ∈ more.head?, startsToken c = true) {m : Nat}
    (hm : m ≤ n) (p : Position) :
    ∃ line, p.line < line ∧
      read false n ⟨Tree.endLine (Tree.literal (n + Tree.step) cs) ++ (spaces m ++ more), p⟩ =
        .ok ⟨cs, ⟨more, ⟨line, m, m⟩⟩, true⟩ := by
  obtain ⟨ds, b, hb, hends⟩ := exists_endLine cs
  have hhead : (ds ++ [b]).head? = cs.head? := by
    obtain ⟨c, rest, rfl⟩ := List.exists_cons_of_ne_nil hne
    rw [← hends, Tree.endLine]
    split <;> rfl
  have hprintable : ∀ d ∈ ds ++ [b], isPrintable d = true := by
    intro d hd
    rw [← hends, Tree.endLine] at hd
    split at hd
    · exact hcs d hd
    · rcases List.mem_append.1 hd with hmem | hmem
      · exact hcs d hmem
      · rw [List.mem_singleton.1 hmem]
        decide
  -- the reader behind the header, and behind the lines
  generalize hs : (⟨(indentationOf cs).map (· + n), 0, [], none, [], false, false⟩ : State) = s
  have hstart : s.inLine = false := by rw [← hs]
  have hholds : s.Holds [] := by
    rw [← hs]
    exact ⟨rfl, by simp, by simp, rfl, by simp, by simp⟩
  have hknows : ∀ d ∈ (ds ++ [b]).head?, s.Knows (n + Tree.step) (max 1 (n + 1)) d := by
    intro d hd
    rw [← hs]
    exact knows_initial (by rw [← hhead]; exact hd) n
  have hline : ((ds ++ [b]).foldl (State.pass (n + Tree.step)) s).inLine = false := by
    rw [List.foldl_append, List.foldl_cons, List.foldl_nil, State.inLine_pass, hb]
    rfl
  have hcolumn := State.column_foldl_pass (by simp) hknows
  have hchomp := chomp_of_holds
    (by simpa [hends] using hholds.foldl_pass (n + Tree.step) (ds ++ [b])) hne
  generalize hq : ((p.next '|').advance (Tree.literalHints cs)).nextLine = q
  have hqcolumn : q.column = 0 := by rw [← hq]; rfl
  have hqline : p.line < q.line := by
    rw [← hq, Position.advance_eq]
    exact Nat.lt_succ_self _
  have hscan := scan_literalLines hprintable hknows (fun _ => hqcolumn) (spaces m ++ more)
  rw [hstart, Bool.not_false, literalLines_concat _ _ _ hb, through_concat_break _ _ hb,
    Position.nextLine, scan_end hline hcolumn hmore (by simp [Tree.step]; omega)] at hscan
  have hbreak (rest : List Char) (p : Position) :
      Cursor.endLine .malformedBlockHeader ⟨'\n' :: rest, p⟩ = .ok ⟨rest, p.nextLine⟩ := rfl
  have hleast : max 1 ((n : Int) + 1).toNat = max 1 (n + 1) := rfl
  refine ⟨(q.through (literalLines (n + Tree.step) true ds)).line + 1,
    Nat.lt_of_lt_of_le hqline (Nat.le_succ_of_le (Position.line_le_through _ _)), ?_⟩
  rw [endLine_literal _ hne, hends, literalLines_concat _ _ _ hb, List.append_assoc,
    List.cons_append, List.cons_append, read]
  show indicators ⟨Tree.literalHints cs ++ '\n' :: _, p.next '|'⟩ >>= _ = _
  rw [indicators_literalHints]
  simp only [bind, Except.bind, hbreak, hq, hleast, Int.toNat_natCast, hs, hscan]
  rw [List.foldl_append, List.foldl_cons, List.foldl_nil, hchomp]
  rfl

end AtomProbe.Yaml.Block
