import AtomProbe.Proofs.Yaml.Cursor
import AtomProbe.Yaml.Token.Lexer
import Mathlib.Data.List.TakeWhile

/-!
# `AtomProbe.Proofs.Yaml.Token.Lexer`: one token after the other

`Reads s r` says that the run from the lexer `s` on ends with `r`, for
all fuel that is not less than what is left of the document. It is
carried from a token to the one before it (`reads_of_readToken`), and
between lexers that find the same next token (`reads_of_advance_eq`).
The lexers in between are those at the beginning of a line
(`lineStart`) and those behind a word of a line (`inBlock`).

A block that ends before the next token may be taken for closed already
(`reads_close`).
-/

set_option autoImplicit false

namespace AtomProbe.Yaml.Lexer

open Yaml.Tree (spaces)

/-! ### Runs -/

/-- What a run does behind the gap before a token. -/
def resume (fuel : Nat) (s : Lexer) : Except Error (List Token) :=
  match s.cursor.rest with
  | [] => do
    let s ← (s.closeTo (-1)).dropCandidate
    return s.tokens.reverse
  | c :: rest => do
    let s ← s.readToken c rest
    run fuel s

theorem run_succ (fuel : Nat) (s : Lexer) : run (fuel + 1) s = s.advance >>= resume fuel := rfl

/-- The run from a lexer on ends with the given result. -/
def Reads (s : Lexer) (r : Except Error (List Token)) : Prop :=
  ∃ s', s.advance = .ok s' ∧ ∀ fuel, s'.cursor.rest.length ≤ fuel → s'.resume fuel = r

/-- Only the next token counts, and what is known there. -/
theorem reads_of_advance_eq {s t : Lexer} {r : Except Error (List Token)}
    (h : s.advance = t.advance) (ht : Reads t r) : Reads s r := by
  unfold Reads
  rw [h]
  exact ht

theorem length_rest_skipGap (inFlow : Bool) (rest : List Char) (p : Position) (ka ic : Bool) :
    (skipGap inFlow rest p ka ic).1.rest.length ≤ rest.length := by
  fun_induction skipGap inFlow rest p ka ic <;> simp_all <;> omega

theorem length_rest_advance {s s' : Lexer} (h : s.advance = .ok s') :
    s'.cursor.rest.length ≤ s.cursor.rest.length := by
  have hskip := length_rest_skipGap s.inFlow s.cursor.rest s.cursor.position s.keyAllowed false
  simp only [advance, dropStale] at h
  split at h
  · cases h
  · cases h
    refine Nat.le_trans (Nat.le_of_eq ?_) hskip
    unfold closeTo
    split <;> rfl

/-- A run with a step for each character that is left is long enough. -/
theorem run_of_reads {s : Lexer} {r : Except Error (List Token)} (h : Reads s r) {fuel : Nat}
    (hfuel : s.cursor.rest.length < fuel) : run fuel s = r := by
  obtain ⟨s', hadvance, hresume⟩ := h
  obtain ⟨fuel, rfl⟩ := Nat.exists_eq_add_of_lt hfuel
  have hlength := length_rest_advance hadvance
  rw [run_succ, hadvance]
  exact hresume _ (by omega)

/-- From the lexer behind a token to the one before it. -/
theorem reads_of_readToken {s s' t : Lexer} {c : Char} {rest : List Char}
    {r : Except Error (List Token)} (hadvance : s.advance = .ok s')
    (hrest : s'.cursor.rest = c :: rest) (htoken : s'.readToken c rest = .ok t)
    (hlength : t.cursor.rest.length ≤ rest.length) (ht : Reads t r) : Reads s r := by
  refine ⟨s', hadvance, fun fuel hfuel => ?_⟩
  rw [hrest, List.length_cons] at hfuel
  rw [resume, hrest]
  show s'.readToken c rest >>= run fuel = r
  rw [htoken]
  exact run_of_reads ht (by omega)

/-! ### Gaps -/

/-- A lexer outside of brackets, without a word that may turn out to be
a key. -/
def inBlock (cursor : Cursor) (blocks : List Nat) (keyAllowed : Bool) (tokens : List Token) :
    Lexer :=
  ⟨cursor, blocks, keyAllowed, none, [], tokens, tokens.length⟩

/-- A lexer at the beginning of a line. -/
def lineStart (line : Nat) (rest : List Char) (blocks : List Nat) (tokens : List Token) : Lexer :=
  inBlock ⟨rest, ⟨line, 0, 0⟩⟩ blocks true tokens

/-- At the beginning of a token there is no gap to pass. -/
theorem skipGap_of_startsToken {more : List Char} (h : ∀ c ∈ more.head?, startsToken c = true)
    (inFlow : Bool) (p : Position) (ka : Bool) :
    skipGap inFlow more p ka false = (⟨more, p⟩, ka) := by
  cases more with
  | nil => rfl
  | cons c cs =>
    have hc : startsToken c = true := h c rfl
    have hbreak := isBreak_of_startsToken hc
    have hblank := isBlank_of_startsToken hc
    simp only [startsToken, Bool.and_eq_true, bne_iff_ne, ne_eq] at hc
    simp only [isBlank, Bool.or_eq_false_iff, beq_eq_false_iff_ne, ne_eq] at hblank
    simp [skipGap, hbreak, hblank, hc]

theorem skipGap_space (inFlow : Bool) (rest : List Char) (p : Position) (ka : Bool) :
    skipGap inFlow (' ' :: rest) p ka false = skipGap inFlow rest (p.next ' ') ka false := by
  simp [skipGap, isBreak]

/-- Spaces before a token are passed. -/
theorem skipGap_spaces {more : List Char} (h : ∀ c ∈ more.head?, startsToken c = true)
    (inFlow : Bool) (n : Nat) (p : Position) (ka : Bool) :
    skipGap inFlow (spaces n ++ more) p ka false =
      (⟨more, ⟨p.line, p.column + n, p.offset + n⟩⟩, ka) := by
  induction n generalizing p with
  | zero => exact skipGap_of_startsToken h inFlow p ka
  | succ n ih =>
    rw [spaces_succ, List.cons_append, skipGap_space, ih]
    have hsize : Char.utf8Size ' ' = 1 := by decide
    simp only [Position.next, hsize]
    congr 3 <;> omega

/-- Going to the next token, where the word that may turn out to be a
key lies in an earlier line. -/
theorem advance_of_skipGap {cursor more : Cursor} {blocks : List Nat} {ka ka' : Bool}
    {candidate : Option Candidate} {tokens : List Token}
    (hskip : skipGap false cursor.rest cursor.position ka false = (more, ka'))
    (hcandidate : ∀ c ∈ candidate, c.isRequired = false ∧ c.position.line < more.position.line) :
    advance ⟨cursor, blocks, ka, candidate, [], tokens, tokens.length⟩ =
      .ok ((inBlock more blocks ka' tokens).closeTo more.position.column) := by
  simp only [advance, inFlow, List.isEmpty_nil, Bool.not_true, hskip, dropStale]
  cases candidate with
  | none => rfl
  | some c =>
    obtain ⟨hrequired, hline⟩ := hcandidate c rfl
    have hstale : c.isStale more.position = true := by simp [Candidate.isStale, hline]
    simp [hrequired, hstale, Option.filter]
    rfl

/-- At the beginning of a line that is not empty. -/
theorem advance_lineStart {more : List Char} (h : ∀ c ∈ more.head?, startsToken c = true)
    (line n : Nat) (blocks : List Nat) (tokens : List Token) :
    advance (lineStart line (spaces n ++ more) blocks tokens) =
      .ok ((inBlock ⟨more, ⟨line, n, n⟩⟩ blocks true tokens).closeTo n) := by
  have hskip := skipGap_spaces h false n ⟨line, 0, 0⟩ true
  rw [Nat.zero_add] at hskip
  exact advance_of_skipGap hskip (by simp)

/-- Behind a word at the column `n` and its mark, the line might as well
begin with spaces. The same holds in a line below the word. -/
theorem advance_column {rest : List Char} {m : Nat} (h : Follows m rest) (line n : Nat)
    (blocks : List Nat) {candidate : Option Candidate} (tokens : List Token)
    (hcandidate : ∀ c ∈ candidate, c.isRequired = false ∧ c.position.line < line) :
    advance ⟨⟨rest, ⟨line, n, n⟩⟩, blocks, true, candidate, [], tokens, tokens.length⟩ =
      advance (lineStart line (spaces n ++ rest) blocks tokens) := by
  obtain ⟨more, rfl, hmore⟩ := h
  have happend : spaces n ++ (spaces m ++ more) = spaces (n + m) ++ more := by
    simp only [spaces, ← List.append_assoc, List.replicate_append_replicate]
  rw [happend, advance_lineStart hmore]
  exact advance_of_skipGap (skipGap_spaces hmore false m ⟨line, n, n⟩ true) hcandidate

/-- Behind a word and the break of its line. -/
theorem advance_break {rest : List Char} {m : Nat} (h : Follows m rest) (p : Position)
    (blocks : List Nat) (ka : Bool) {candidate : Option Candidate} (tokens : List Token)
    (hcandidate : ∀ c ∈ candidate, c.isRequired = false ∧ c.position.line ≤ p.line) :
    advance ⟨⟨'\n' :: rest, p⟩, blocks, ka, candidate, [], tokens, tokens.length⟩ =
      advance (lineStart (p.line + 1) rest blocks tokens) := by
  obtain ⟨more, rfl, hmore⟩ := h
  have hskip : skipGap false ('\n' :: (spaces m ++ more)) p ka false =
      (⟨more, ⟨p.line + 1, m, m⟩⟩, true) := by
    have hbreak : skipGap false ('\n' :: (spaces m ++ more)) p ka false =
        skipGap false (spaces m ++ more) p.nextLine (ka || !false) false := rfl
    rw [hbreak, skipGap_spaces hmore]
    simp [Position.nextLine]
  rw [advance_lineStart hmore]
  exact advance_of_skipGap hskip fun c hc =>
    ⟨(hcandidate c hc).1, Nat.lt_succ_of_le (hcandidate c hc).2⟩

/-! ### The end of blocks -/

/-- Nothing is closed to the right of the innermost block. -/
theorem closeTo_of_le {s : Lexer} {n : Nat} (h : ∀ b ∈ s.blocks.head?, b ≤ n) :
    s.closeTo n = s := by
  have hclosed : s.blocks.takeWhile (fun (b : Nat) => decide ((n : Int) < b)) = [] := by
    cases hblocks : s.blocks with
    | nil => rfl
    | cons b bs =>
      have hb : b ≤ n := h b (by rw [hblocks]; rfl)
      simp [hb]
  simp only [closeTo, hclosed]
  split <;> rfl

/-- A block to the right of the next token ends before it. -/
theorem reads_close {rest : List Char} {n b : Nat} (h : Follows n rest) (hb : n < b)
    {line : Nat} {blocks : List Nat} {tokens : List Token} {r : Except Error (List Token)}
    (hr : Reads (lineStart line rest blocks (.blockEnd :: tokens)) r) :
    Reads (lineStart line rest (b :: blocks) tokens) r := by
  refine reads_of_advance_eq ?_ hr
  obtain ⟨more, rfl, hmore⟩ := h
  rw [advance_lineStart hmore, advance_lineStart hmore]
  have hb' : decide ((n : Int) < b) = true := by simpa using hb
  simp only [closeTo, inFlow, inBlock, List.isEmpty_nil, Bool.not_true, List.takeWhile_cons, hb',
    if_true, List.map_const', List.length_cons, List.drop_succ_cons]
  -- the end of the block may stand before or behind the ends of the others
  rw [List.replicate_succ', List.append_assoc]
  simp only [List.cons_append, List.nil_append, Nat.add_assoc, Nat.add_comm 1]
  rfl

/-- At the end of the document all blocks end. -/
theorem reads_end {blocks : List Nat} (h : ∀ b ∈ blocks.head?, b = 0) (line : Nat)
    (tokens : List Token) :
    Reads (lineStart line [] blocks tokens)
      (.ok (blocks.map (fun _ => Token.blockEnd) ++ tokens).reverse) := by
  have hadvance := advance_lineStart (by simp : ∀ c ∈ [].head?, _) line 0 blocks tokens
  rw [closeTo_of_le (by exact fun b hb => Nat.le_of_eq (h b hb))] at hadvance
  refine ⟨_, hadvance, fun fuel _ => ?_⟩
  have hall : blocks.takeWhile (fun (b : Nat) => decide ((-1 : Int) < b)) = blocks := by
    rw [List.takeWhile_eq_self_iff]
    intro b _
    simp
    omega
  simp only [resume, inBlock, closeTo, inFlow, List.isEmpty_nil, Bool.not_true, hall]
  rfl

/-! ### The beginning of blocks -/

/-- The open blocks behind a mark at a column. -/
def entered (column : Nat) (blocks : List Nat) : List Nat :=
  if blocks.head? = some column then blocks else column :: blocks

/-- The tokens that stand before a mark at a column, where `t` opens a
block. -/
def opening (t : Token) (column : Nat) (blocks : List Nat) : List Token :=
  if blocks.head? = some column then [] else [t]

theorem entered_of_head {column : Nat} {blocks : List Nat} (h : blocks.head? = some column) :
    entered column blocks = blocks := if_pos h

theorem opening_of_head {column : Nat} {blocks : List Nat} (h : blocks.head? = some column)
    (t : Token) : opening t column blocks = [] := if_pos h

theorem entered_of_lt {column n : Nat} {blocks : List Nat} (h : blocks.head? = some n)
    (hn : n < column) : entered column blocks = column :: blocks :=
  if_neg (by simp [h, Nat.ne_of_lt hn])

theorem opening_of_lt {column n : Nat} {blocks : List Nat} (h : blocks.head? = some n)
    (hn : n < column) (t : Token) : opening t column blocks = [t] :=
  if_neg (by simp [h, Nat.ne_of_lt hn])

theorem head?_entered (column : Nat) (blocks : List Nat) :
    (entered column blocks).head? = some column := by
  unfold entered
  split
  · assumption
  · rfl

/-- A block is opened if the innermost one stands to the left. -/
theorem openAt_eq {s : Lexer} (hflow : s.enclosing = []) {column : Nat}
    (h : ∀ b ∈ s.blocks.head?, b ≤ column) (t : Token) :
    s.openAt column t = (opening t column s.blocks, entered column s.blocks) := by
  have hindent : decide (s.indent < column) = !decide (s.blocks.head? = some column) := by
    unfold indent
    cases hblocks : s.blocks with
    | nil => simp; omega
    | cons b bs =>
      have hb : b ≤ column := h b (by rw [hblocks]; rfl)
      simp only [List.head?_cons, Option.some.injEq, Int.ofNat_lt]
      by_cases hcolumn : b = column
      · simp [hcolumn]
      · simp [hcolumn]
        omega
  simp only [openAt, inFlow, hflow, List.isEmpty_nil, Bool.not_true, Bool.not_false, Bool.true_and,
    hindent, opening, entered]
  by_cases hhead : s.blocks.head? = some column <;> simp [hhead]

theorem reverse_opening (t : Token) (column : Nat) (blocks : List Nat) :
    (opening t column blocks).reverse = opening t column blocks := by
  unfold opening
  split <;> rfl

/-- A mark that opens a block: the tokens before it and the open blocks
behind it. -/
theorem openHere_inBlock (cursor : Cursor) {blocks : List Nat}
    (h : ∀ b ∈ blocks.head?, b ≤ cursor.position.column) (ka : Bool) (tokens : List Token)
    (t : Token) :
    (inBlock cursor blocks ka tokens).openHere t =
      inBlock cursor (entered cursor.position.column blocks) ka
        (opening t cursor.position.column blocks ++ tokens) := by
  have hopen := openAt_eq (s := inBlock cursor blocks ka tokens) rfl h t
  have hhere (s : Lexer) : s.openHere t =
      { s.insert s.count (s.openAt s.column t).1 with blocks := (s.openAt s.column t).2 } := rfl
  rw [hhere, show (inBlock cursor blocks ka tokens).column = cursor.position.column from rfl, hopen]
  simp [insert, inBlock, reverse_opening, Nat.add_comm]

/-! ### Marks -/

/-- A mark of one character at the beginning of a line, and the block
that it opens. -/
theorem reads_of_mark {c : Char} (hc : startsToken c = true) {line n : Nat} {rest : List Char}
    {blocks : List Nat} (hblocks : ∀ b ∈ blocks.head?, b ≤ n) {tokens : List Token} {t : Lexer}
    {r : Except Error (List Token)}
    (htoken : (inBlock ⟨c :: rest, ⟨line, n, n⟩⟩ blocks true tokens).readToken c rest = .ok t)
    (hlength : t.cursor.rest.length ≤ rest.length) (ht : Reads t r) :
    Reads (lineStart line (spaces n ++ c :: rest) blocks tokens) r := by
  have hadvance := advance_lineStart (by simpa using hc : ∀ d ∈ (c :: rest).head?, _) line n
    blocks tokens
  rw [closeTo_of_le hblocks] at hadvance
  exact reads_of_readToken hadvance rfl htoken hlength ht

/-- A mark that opens a block, unless one is open there. -/
theorem reads_of_opening {c : Char} (hc : startsToken c = true) (hsize : c.utf8Size = 1)
    {line n : Nat} {rest : List Char} {blocks : List Nat} (hblocks : ∀ b ∈ blocks.head?, b ≤ n)
    {tokens : List Token} {start mark : Token} {r : Except Error (List Token)}
    (htoken : (inBlock ⟨c :: rest, ⟨line, n, n⟩⟩ blocks true tokens).readToken c rest =
      .ok { ((inBlock ⟨c :: rest, ⟨line, n, n⟩⟩ blocks true tokens).openHere start).pushOver
        mark 1 with keyAllowed := true })
    (h : Reads (inBlock ⟨rest, ⟨line, n + 1, n + 1⟩⟩ (entered n blocks) true
      (mark :: (opening start n blocks ++ tokens))) r) :
    Reads (lineStart line (spaces n ++ c :: rest) blocks tokens) r := by
  refine reads_of_mark hc hblocks ?_ (Nat.le_refl _) h
  have hopen := openHere_inBlock ⟨c :: rest, ⟨line, n, n⟩⟩ hblocks true tokens start
  have hnext : Position.advance ⟨line, n, n⟩ [c] = ⟨line, n + 1, n + 1⟩ := by
    simp [Position.advance, Position.next, hsize]
  rw [htoken, hopen, ← hnext]
  rfl

/-- No document marker begins with a dash before a gap. -/
theorem atDocumentMarker_dash {rest : List Char} (h : atGap rest = true) :
    atDocumentMarker ('-' :: rest) = false := by
  unfold atDocumentMarker
  split
  · next heq => cases heq; exact absurd h (by simp [atGap, isGap, isBlank, isBreak])
  · next heq => cases heq
  · rfl

/-- The dash before an entry of a block sequence. -/
theorem reads_entry {line n : Nat} {rest : List Char} (hgap : atGap rest = true)
    {blocks : List Nat} (hblocks : ∀ b ∈ blocks.head?, b ≤ n) {tokens : List Token}
    {r : Except Error (List Token)}
    (h : Reads (inBlock ⟨rest, ⟨line, n + 1, n + 1⟩⟩ (entered n blocks) true
      (.entry :: (opening .sequenceStart n blocks ++ tokens))) r) :
    Reads (lineStart line (spaces n ++ '-' :: rest) blocks tokens) r := by
  refine reads_of_opening (by decide) (by decide) hblocks ?_ h
  rw [readToken, if_neg (by simp), if_neg (by simp [atDocumentMarker_dash hgap]),
    if_pos ⟨rfl, hgap⟩]
  rfl

/-- The question mark before a key. -/
theorem reads_keyMark {line n : Nat} {rest : List Char} (hgap : atGap rest = true)
    {blocks : List Nat} (hblocks : ∀ b ∈ blocks.head?, b ≤ n) {tokens : List Token}
    {r : Except Error (List Token)}
    (h : Reads (inBlock ⟨rest, ⟨line, n + 1, n + 1⟩⟩ (entered n blocks) true
      (.key :: (opening .mappingStart n blocks ++ tokens))) r) :
    Reads (lineStart line (spaces n ++ '?' :: rest) blocks tokens) r := by
  refine reads_of_opening (by decide) (by decide) hblocks ?_ h
  rw [readToken, if_neg (by simp), if_neg (by simp [atDocumentMarker]), if_neg (by simp),
    if_pos ⟨rfl, .inr hgap⟩]
  rfl

/-- The colon behind a key that stands behind a question mark. The block
of its mapping is open. -/
theorem reads_valueMark {line n : Nat} {rest : List Char} (hgap : atGap rest = true)
    {blocks : List Nat} (hblocks : blocks.head? = some n) {tokens : List Token}
    {r : Except Error (List Token)}
    (h : Reads (inBlock ⟨rest, ⟨line, n + 1, n + 1⟩⟩ blocks true (.value :: tokens)) r) :
    Reads (lineStart line (spaces n ++ ':' :: rest) blocks tokens) r := by
  have hle : ∀ b ∈ blocks.head?, b ≤ n := by simp [hblocks]
  have htoken : (inBlock ⟨':' :: rest, ⟨line, n, n⟩⟩ blocks true tokens).readToken ':' rest =
      .ok { ((inBlock ⟨':' :: rest, ⟨line, n, n⟩⟩ blocks true tokens).openHere
        .mappingStart).pushOver .value 1 with keyAllowed := true } := by
    rw [readToken, if_neg (by simp), if_neg (by simp [atDocumentMarker]), if_neg (by simp),
      if_neg (by simp), if_pos ⟨rfl, .inr hgap⟩]
    rfl
  refine reads_of_opening (by decide) (by decide) hle htoken ?_
  rw [opening_of_head hblocks, entered_of_head hblocks]
  exact h

/-! ### Keys before their colon -/

/-- The word that begins at a place, as far as it may turn out to be a
key. -/
def wordAt (position : Position) (blocks : List Nat) (keyAllowed : Bool) (tokens : List Token) :
    Option Candidate :=
  if keyAllowed then
    some ⟨decide (blocks.head? = some position.column), tokens.length, position⟩
  else none

theorem saveCandidate_inBlock (cursor : Cursor) (blocks : List Nat) (ka : Bool)
    (tokens : List Token) :
    (inBlock cursor blocks ka tokens).saveCandidate =
      .ok { inBlock cursor blocks ka tokens with
        candidate := wordAt cursor.position blocks ka tokens } := by
  have hindent : decide ((inBlock cursor blocks ka tokens).indent = cursor.position.column) =
      decide (blocks.head? = some cursor.position.column) := by
    cases blocks with
    | nil => simp [indent, inBlock]
    | cons b bs => simp only [indent, inBlock, Int.natCast_inj, List.head?_cons, Option.some.injEq]
  cases ka with
  | false => rfl
  | true =>
    show Except.ok { inBlock cursor blocks true tokens with
      candidate := some ⟨true && decide ((inBlock cursor blocks true tokens).indent =
        cursor.position.column), tokens.length, cursor.position⟩ } = _
    rw [hindent, Bool.true_and]
    rfl

/-- A word that begins to the right of its block can be something else
than a key. -/
theorem isRequired_wordAt {position : Position} {blocks : List Nat} {ka : Bool}
    {tokens : List Token} (h : ∀ b ∈ blocks.head?, b < position.column) {c : Candidate}
    (hc : c ∈ wordAt position blocks ka tokens) : c.isRequired = false ∧ c.position = position := by
  unfold wordAt at hc
  split at hc
  · cases hc
    refine ⟨decide_eq_false fun hhead => ?_, rfl⟩
    exact Nat.lt_irrefl _ (h _ hhead)
  · cases hc

/-- The colon behind a word makes the word a key, which may open a
mapping. -/
theorem reads_colon {p q : Position} {rest : List Char} (hgap : atGap rest = true)
    {blocks : List Nat} (hblocks : ∀ b ∈ blocks.head?, b ≤ p.column) (hline : q.line = p.line)
    (hcolumn : p.column ≤ q.column) (hreach : q.offset ≤ p.offset + Candidate.reach)
    {word : Token} {tokens : List Token} {r : Except Error (List Token)}
    (h : Reads (inBlock ⟨rest, q.next ':'⟩ (entered p.column blocks) false
      (.value :: word :: .key :: (opening .mappingStart p.column blocks ++ tokens))) r) :
    Reads ⟨⟨':' :: rest, q⟩, blocks, false, wordAt p blocks true tokens, [], word :: tokens,
      tokens.length + 1⟩ r := by
  have hq : ∀ b ∈ blocks.head?, b ≤ q.column := fun b hb => Nat.le_trans (hblocks b hb) hcolumn
  have hskip := skipGap_of_startsToken (by simp; decide : ∀ c ∈ (':' :: rest).head?, _) false q
    false
  -- the word is in the line and not too long, and so may still be a key
  have hstale (b : Bool) (n : Nat) : Candidate.isStale ⟨b, n, p⟩ q = false := by
    simp [Candidate.isStale, hline]
    omega
  have hadvance : advance ⟨⟨':' :: rest, q⟩, blocks, false, wordAt p blocks true tokens, [],
      word :: tokens, tokens.length + 1⟩ =
      .ok ⟨⟨':' :: rest, q⟩, blocks, false, wordAt p blocks true tokens, [], word :: tokens,
        tokens.length + 1⟩ := by
    simp only [advance, inFlow, List.isEmpty_nil, Bool.not_true, hskip, dropStale, wordAt, if_true]
    simp only [Option.any_some, List.any_cons, List.any_nil, Bool.or_false, hstale, Bool.false_and]
    rw [if_neg (by simp)]
    show Except.ok (closeTo _ (q.column : Int)) = _
    rw [closeTo_of_le (by exact hq)]
    simp [Option.filter, hstale]
  refine reads_of_readToken hadvance rfl ?_ (Nat.le_refl _) h
  generalize hs : (⟨⟨':' :: rest, q⟩, blocks, false, wordAt p blocks true tokens, [],
    word :: tokens, tokens.length + 1⟩ : Lexer) = s
  -- the mark of the key is put in before the word
  have hvalue : s.readValue =
      .ok { (s.insert tokens.length ((s.openAt p.column .mappingStart).1 ++ [.key])).pushOver
        .value 1 with
          blocks := (s.openAt p.column .mappingStart).2
          candidate := none
          keyAllowed := false } := by
    rw [← hs]
    rfl
  have hflow : s.enclosing = [] := by rw [← hs]
  have hopen := openAt_eq hflow (by rw [← hs]; exact hblocks : ∀ b ∈ s.blocks.head?, b ≤ p.column)
    .mappingStart
  rw [readToken, if_neg (by simp), if_neg (by simp [atDocumentMarker]), if_neg (by simp),
    if_neg (by simp), if_pos ⟨rfl, .inr hgap⟩, hvalue, hopen, ← hs]
  simp [insert, inBlock, pushOver, push, Cursor.drop, Position.advance, reverse_opening]
  omega

end AtomProbe.Yaml.Lexer
