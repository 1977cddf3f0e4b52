import AtomProbe.Proofs.Yaml.Scalar.Block
import AtomProbe.Proofs.Yaml.Token.Lexer
import AtomProbe.Proofs.Yaml.Tree.Style

/-!
# `AtomProbe.Proofs.Yaml.Tree.Scalar`: reading a text in the style it is written in

The writer takes one of four styles, and each time the lexer goes back
to the right reader and finds the same text.
-/

set_option autoImplicit false

namespace AtomProbe.Yaml

/-! ### From a character to the reader of a scalar -/

namespace Lexer

open Yaml.Tree (BeginsPlain spaces)

theorem readToken_plain {s : Lexer} (hflow : s.enclosing = []) {c : Char} {rest : List Char}
    (h : BeginsPlain c rest) : s.readToken c rest = s.readPlain := by
  -- the reader tries one indicator after the other
  have hne : ∀ d ∈ Tree.firstIndicators, c ≠ d := by
    rintro d hd rfl
    exact h.not_indicator hd
  simp only [Tree.firstIndicators, List.forall_mem_cons] at hne
  obtain ⟨hhash, hcomma, hopen, hclose, hbrace, hunbrace, hand, hstar, hbang, hbar, hgreater,
    hsingle, hdouble, hpercent, hat, htick, -⟩ := hne
  have hflow : s.inFlow = false := by simp [inFlow, hflow]
  have hgap {d : Char} (hd : d = '?' ∨ d = ':' ∨ d = '-') : ¬ (c = d ∧ atGap rest = true) := by
    rintro ⟨rfl, htrue⟩
    rw [h.not_atGap hd] at htrue
    cases htrue
  have hisGap : isGap c = false := by
    simp [isGap, isBlank_of_startsToken h.startsToken, isBreak_of_startsToken h.startsToken]
  have hbegins : beginsPlain false c rest = true := by
    by_cases hdash : c = '-'
    · simp [beginsPlain, hdash]
    · by_cases hindicator : c = '?' ∨ c = ':'
      · have hrest := h.not_atGap (hindicator.imp_right .inl)
        rcases hindicator with rfl | rfl <;> simp [beginsPlain, hrest]
      · simp only [not_or] at hindicator
        simp [beginsPlain, *]
  -- question marks, colons and dashes are marks if a gap follows
  have hmark (d : Char) (hd : d = '?' ∨ d = ':' ∨ d = '-') :
      ¬ (c = d ∧ (s.inFlow = true ∨ atGap rest = true)) := by
    rw [hflow]
    rintro ⟨hc, hflow | hrest⟩
    · cases hflow
    · exact hgap hd ⟨hc, hrest⟩
  unfold readToken
  rw [if_neg (fun hc => hpercent hc.2), if_neg (by simp [h.not_marker]),
    if_neg (hgap (by simp)), if_neg (hmark _ (by simp)), if_neg (hmark _ (by simp)),
    if_neg hopen, if_neg hclose, if_neg hbrace, if_neg hunbrace, if_neg hcomma, if_neg hstar,
    if_neg hand, if_neg hbang, if_neg (fun hc => hbar hc.1), if_neg (fun hc => hgreater hc.1),
    if_neg (show c ≠ Quoted.single from hsingle), if_neg (show c ≠ Quoted.double from hdouble),
    hflow, if_pos hbegins]

theorem readToken_single (s : Lexer) (rest : List Char) :
    s.readToken Quoted.single rest = s.readQuoted .singleQuoted := by
  simp [readToken, Quoted.single, atDocumentMarker]

theorem readToken_double (s : Lexer) (rest : List Char) :
    s.readToken Quoted.double rest = s.readQuoted .doubleQuoted := by
  simp [readToken, Quoted.single, Quoted.double, atDocumentMarker]

theorem readToken_literal {s : Lexer} (hflow : s.enclosing = []) (rest : List Char) :
    s.readToken '|' rest = s.readBlock .literal := by
  simp [readToken, atDocumentMarker, inFlow, hflow]

/-- The lexer behind a word that began at a place. -/
def behindWord (position : Position) (blocks : List Nat) (keyAllowed : Bool)
    (tokens : List Token) (style : ScalarStyle) (l : Lexeme) : Lexer :=
  ⟨l.cursor, blocks, l.startsLine, wordAt position blocks keyAllowed tokens, [],
    .scalar style (String.ofList l.text) :: tokens, tokens.length + 1⟩

theorem readPlain_inBlock {cursor : Cursor} {blocks : List Nat} {tokens : List Token} {l : Lexeme}
    (ka : Bool)
    (h : Plain.read false ((inBlock cursor blocks ka tokens).indent + 1) cursor = .ok l) :
    (inBlock cursor blocks ka tokens).readPlain =
      .ok (behindWord cursor.position blocks ka tokens .plain l) := by
  rw [readPlain, saveCandidate_inBlock]
  show Plain.read false ((inBlock cursor blocks ka tokens).indent + 1) cursor >>= _ = _
  rw [h]
  rfl

theorem readBlock_inBlock {cursor : Cursor} {blocks : List Nat} {tokens : List Token} {l : Lexeme}
    (ka : Bool)
    (h : Block.read false (inBlock cursor blocks ka tokens).indent cursor = .ok l) :
    (inBlock cursor blocks ka tokens).readBlock .literal =
      .ok (inBlock l.cursor blocks true
        (.scalar .literal (String.ofList l.text) :: tokens)) := by
  show Block.read false (inBlock cursor blocks ka tokens).indent cursor >>= _ = _
  rw [h]
  rfl

theorem readQuoted_inBlock {cursor : Cursor} {blocks : List Nat} {tokens : List Token} {l : Lexeme}
    (ka : Bool) (style : ScalarStyle) (h : Quoted.read cursor = .ok l) (hline : l.startsLine = false) :
    (inBlock cursor blocks ka tokens).readQuoted style =
      .ok (behindWord cursor.position blocks ka tokens style l) := by
  rw [readQuoted, saveCandidate_inBlock]
  show Quoted.read cursor >>= _ = _
  rw [h, behindWord, hline]
  rfl

/-! ### Keys in one line -/

/-- The first character of what is written for a text in one line leads
to its reader, which stops at the colon. -/
theorem readToken_key {cs : List Char} (hcs : ∀ c ∈ cs, isBreak c = false) {indent : Nat}
    (hindent : 0 < indent) {rest : List Char} (hgap : atGap rest = true) (p : Position)
    (blocks : List Nat) (ka : Bool) (tokens : List Token) :
    ∃ c more, Tree.scalar indent cs ++ ':' :: rest = c :: more ∧ startsToken c = true ∧
      rest.length < more.length ∧
      (inBlock ⟨c :: more, p⟩ blocks ka tokens).readToken c more =
        .ok (behindWord p blocks ka tokens (Tree.styleOf cs)
          ⟨cs, ⟨':' :: rest, p.advance (Tree.scalar indent cs)⟩, false⟩) := by
  have hthrough := Position.through_eq_advance
    (fun c (hc : c ∈ Tree.scalar indent cs) => Tree.not_isBreak_scalar hcs hc) p
  have hlength (cs : List Char) : rest.length < (cs ++ ':' :: rest).length := by
    rw [List.length_append, List.length_cons]
    omega
  have hstyled := Tree.styled cs
  unfold Tree.scalar at hthrough ⊢
  generalize Tree.styleOf cs = style at hthrough hstyled ⊢
  -- a literal text has breaks, and so is no key in one line
  cases hstyled with
  | plain hne hadmits htext =>
    obtain ⟨c, cs, rfl⟩ := List.exists_cons_of_ne_nil hne
    have hbegins : Tree.BeginsPlain c (cs ++ ':' :: rest) :=
      Tree.beginsPlain_of_admitsPlain hadmits (by simp)
    refine ⟨c, cs ++ ':' :: rest, rfl, hbegins.startsToken, hlength cs, ?_⟩
    have hread := Plain.read_before_colon (Tree.isRest_of_admitsPlain hadmits) hgap
      ((inBlock ⟨c :: (cs ++ ':' :: rest), p⟩ blocks ka tokens).indent + 1) p
    rw [hthrough] at hread
    rw [readToken_plain rfl hbegins]
    exact readPlain_inBlock ka hread
  | singleQuoted hadmits hnewline =>
    have hread := Quoted.read_singleQuoted (Tree.isRest_of_admitsSingle hadmits hnewline) hindent
      (by simp [Quoted.single] : (':' :: rest).head? ≠ some Quoted.single) p
    rw [hthrough] at hread
    refine ⟨Quoted.single, _, rfl, by decide, hlength _, ?_⟩
    rw [readToken_single]
    exact readQuoted_inBlock ka _ hread rfl
  | doubleQuoted =>
    refine ⟨Quoted.double, _, rfl, by decide, hlength _, ?_⟩
    rw [readToken_double]
    exact readQuoted_inBlock ka _ (Quoted.read_doubleQuoted cs (':' :: rest) p) rfl
  | literal hadmits hnewline => exact absurd (hcs _ hnewline) (by decide)

theorem of_isSimpleKey {key : String} (h : Tree.isSimpleKey key = true) :
    key.utf8ByteSize ≤ Tree.maximalKeySize ∧ ∀ c ∈ key.toList, isBreak c = false := by
  simp only [Tree.isSimpleKey, Bool.and_eq_true, decide_eq_true_eq, Bool.not_eq_true',
    List.any_eq_false, Bool.not_eq_true] at h
  exact h

/-- A key in one line, its colon, and the mapping that it may open. -/
theorem reads_key {key : String} (hkey : Tree.isSimpleKey key = true) {n : Nat} {rest : List Char}
    (hgap : atGap rest = true) {blocks : List Nat} (hblocks : ∀ b ∈ blocks.head?, b ≤ n)
    {line : Nat} {tokens : List Token} {r : Except Error (List Token)}
    (h : ∀ q : Position, n < q.column → Reads (inBlock ⟨rest, q⟩ (entered n blocks) false
      (.value :: .scalar (Tree.styleOf key.toList) key :: .key ::
        (opening .mappingStart n blocks ++ tokens))) r) :
    Reads (lineStart line (spaces n ++ (Tree.scalar (n + Tree.step) key.toList ++ ':' :: rest))
      blocks tokens) r := by
  obtain ⟨hsize, hbreak⟩ := of_isSimpleKey hkey
  have hbytes := Tree.bytes_scalar_le (n + Tree.step) hbreak
  rw [Position.bytes_toList] at hbytes
  obtain ⟨c, more, happend, hstarts, hlength, hread⟩ :=
    readToken_key hbreak (by simp [Tree.step] : 0 < n + Tree.step) hgap ⟨line, n, n⟩ blocks true
      tokens
  have hadvance := advance_lineStart (by simpa using hstarts : ∀ d ∈ (c :: more).head?, _) line n
    blocks tokens
  rw [closeTo_of_le (by exact hblocks)] at hadvance
  rw [happend]
  refine reads_of_readToken hadvance rfl hread hlength ?_
  rw [behindWord, String.ofList_toList, Position.advance_eq]
  generalize hq : (⟨line, n + _, n + _⟩ : Position) = q
  have hcolumn : n ≤ q.column := by
    rw [← hq]
    exact Nat.le_add_right _ _
  have hline : q.line = line := by rw [← hq]
  -- the limit for the text of the key keeps it within reach of the colon
  have hreach : q.offset ≤ n + Candidate.reach := by
    rw [← hq]
    simp only [Tree.maximalKeySize] at hsize
    simp only [Candidate.reach]
    omega
  exact reads_colon (p := ⟨line, n, n⟩) hgap hblocks hline hcolumn hreach
    (h _ (Nat.lt_succ_of_le hcolumn))

/-! ### Values up to the end of their line -/

section

variable {n m : Nat} {rest : List Char} {blocks : List Nat} {p : Position} {tokens : List Token}
  {r : Except Error (List Token)}

theorem indent_of_head {s : Lexer} (h : s.blocks.head? = some n) : s.indent = n := by
  unfold indent
  split
  · next heq => rw [heq] at h; cases h
  · next heq => rw [heq] at h; cases h; rfl

/-- A word behind an indicator and a space. -/
theorem reads_of_word {c : Char} (hc : startsToken c = true) {more : List Char}
    (hblocks : blocks.head? = some n) (hp : n ≤ p.column) (ka : Bool) {t : Lexer}
    (htoken : (inBlock ⟨c :: more, p.next ' '⟩ blocks ka tokens).readToken c more = .ok t)
    (hlength : t.cursor.rest.length ≤ more.length) (ht : Reads t r) :
    Reads (inBlock ⟨' ' :: c :: more, p⟩ blocks ka tokens) r := by
  have hskip : skipGap false (' ' :: c :: more) p ka false = (⟨c :: more, p.next ' '⟩, ka) := by
    rw [skipGap_space]
    exact skipGap_of_startsToken (by simpa using hc) false _ ka
  have hadvance : (inBlock ⟨' ' :: c :: more, p⟩ blocks ka tokens).advance =
      .ok ((inBlock ⟨c :: more, p.next ' '⟩ blocks ka tokens).closeTo (p.next ' ').column) :=
    advance_of_skipGap hskip (by simp)
  have hle : ∀ b ∈ blocks.head?, b ≤ (p.next ' ').column := by
    intro b hb
    rw [hblocks] at hb
    cases hb
    exact Nat.le_succ_of_le hp
  rw [closeTo_of_le (by exact hle)] at hadvance
  exact reads_of_readToken hadvance rfl htoken hlength ht

/-- The word behind an indicator is no key, once its line is over. -/
theorem candidate_of_word (hblocks : blocks.head? = some n) (hp : n ≤ p.column) (ka : Bool) :
    ∀ c ∈ wordAt (p.next ' ') blocks ka tokens, c.isRequired = false ∧ c.position.line = p.line := by
  intro c hc
  have hlt : ∀ b ∈ blocks.head?, b < (p.next ' ').column := by
    intro b hb
    rw [hblocks] at hb
    cases hb
    exact Nat.lt_succ_of_le hp
  obtain ⟨hrequired, hposition⟩ := isRequired_wordAt hlt hc
  exact ⟨hrequired, by rw [hposition]; rfl⟩

/-- A text without quotes. -/
theorem reads_plain {cs : List Char} (hne : cs ≠ []) (hadmits : Tree.admitsPlain cs = true)
    (hblocks : blocks.head? = some n) (hrest : Follows m rest) (hm : m ≤ n) (hp : n ≤ p.column)
    (ka : Bool)
    (h : ∀ line, Reads (lineStart line rest blocks
      (.scalar .plain (String.ofList cs) :: tokens)) r) :
    Reads (inBlock ⟨' ' :: (cs ++ '\n' :: rest), p⟩ blocks ka tokens) r := by
  obtain ⟨more, rfl, hmore⟩ := hrest
  obtain ⟨c, cs, rfl⟩ := List.exists_cons_of_ne_nil hne
  have hbegins : Tree.BeginsPlain c (cs ++ '\n' :: (spaces m ++ more)) :=
    Tree.beginsPlain_of_admitsPlain hadmits (by simp)
  have hindent : (inBlock ⟨c :: (cs ++ '\n' :: (spaces m ++ more)), p.next ' '⟩ blocks ka
      tokens).indent = n := indent_of_head hblocks
  have hleast : (m : Int) < (n : Int) + 1 := by omega
  have hread := Plain.read_before_break (Tree.isRest_of_admitsPlain hadmits) hmore hleast
    (p.next ' ')
  rw [← hindent] at hread
  have htoken := readPlain_inBlock ka hread
  rw [← readToken_plain rfl hbegins] at htoken
  -- the word ends with its line, where it is no candidate for a key any more
  refine reads_of_word hbegins.startsToken hblocks hp ka htoken ?_
    (reads_of_advance_eq ?_ (h (((p.next ' ').through (c :: cs)).line + 1)))
  · show more.length ≤ (cs ++ '\n' :: (spaces m ++ more)).length
    simp only [List.length_append, List.length_cons]
    omega
  · refine advance_column (m := 0) ⟨more, rfl, hmore⟩ _ m blocks _ fun d hd => ?_
    obtain ⟨hrequired, hline⟩ := candidate_of_word hblocks hp ka d hd
    have hle := Position.line_le_through (p.next ' ') (c :: cs)
    exact ⟨hrequired, by rw [hline]; exact Nat.lt_succ_of_le hle⟩

/-- A text between quotes. -/
theorem reads_quoted {cs written : List Char} {quote : Char} {style : ScalarStyle}
    (hquote : startsToken quote = true)
    (htoken : ∀ (s : Lexer) rest, s.readToken quote rest = s.readQuoted style)
    {q : Position} (hq : p.line ≤ q.line)
    (hread : Quoted.read ⟨quote :: (written ++ '\n' :: rest), p.next ' '⟩ =
      .ok ⟨cs, ⟨'\n' :: rest, q⟩, false⟩)
    (hblocks : blocks.head? = some n) (hrest : Follows m rest) (hp : n ≤ p.column) (ka : Bool)
    (h : ∀ line, Reads (lineStart line rest blocks
      (.scalar style (String.ofList cs) :: tokens)) r) :
    Reads (inBlock ⟨' ' :: quote :: (written ++ '\n' :: rest), p⟩ blocks ka tokens) r := by
  have hword : (inBlock ⟨quote :: (written ++ '\n' :: rest), p.next ' '⟩ blocks ka tokens).readQuoted
      style = _ := readQuoted_inBlock ka style hread rfl
  rw [← htoken] at hword
  refine reads_of_word hquote hblocks hp ka hword ?_ (reads_of_advance_eq ?_ (h (q.line + 1)))
  · show ('\n' :: rest).length ≤ (written ++ '\n' :: rest).length
    simp
  · refine advance_break hrest q blocks false _ fun d hd => ?_
    obtain ⟨hrequired, hline⟩ := candidate_of_word hblocks hp ka d hd
    exact ⟨hrequired, by rw [hline]; exact hq⟩

/-- A literal scalar. -/
theorem reads_literal {cs : List Char} (hcs : ∀ c ∈ cs, isPrintable c = true) (hne : cs ≠ [])
    (hblocks : blocks.head? = some n) (hrest : Follows m rest) (hm : m ≤ n) (hp : n ≤ p.column)
    (ka : Bool)
    (h : ∀ line, Reads (lineStart line rest blocks
      (.scalar .literal (String.ofList cs) :: tokens)) r) :
    Reads (inBlock ⟨' ' :: (Tree.endLine (Tree.literal (n + Tree.step) cs) ++ rest), p⟩ blocks ka
      tokens) r := by
  obtain ⟨more, rfl, hmore⟩ := hrest
  obtain ⟨line, -, hread⟩ := Block.read_literal hcs hne n hmore hm (p.next ' ')
  obtain ⟨written, hwritten⟩ : ∃ written,
      Tree.endLine (Tree.literal (n + Tree.step) cs) = '|' :: written :=
    ⟨_, Block.endLine_literal _ hne⟩
  rw [hwritten, List.cons_append] at hread ⊢
  have hindent : (inBlock ⟨'|' :: (written ++ (spaces m ++ more)), p.next ' '⟩ blocks ka
      tokens).indent = n := indent_of_head hblocks
  rw [← hindent] at hread
  have hword := readBlock_inBlock ka hread
  rw [← readToken_literal rfl] at hword
  refine reads_of_word (by decide) hblocks hp ka hword ?_ (reads_of_advance_eq ?_ (h line))
  · show more.length ≤ (written ++ (spaces m ++ more)).length
    simp only [List.length_append]
    omega
  · exact advance_column (m := 0) ⟨more, rfl, hmore⟩ line m blocks _ (by simp)

theorem endLine_of_not_isBreak {cs : List Char} (h : cs.getLast?.any isBreak = false) :
    Tree.endLine cs = cs ++ ['\n'] := by
  rw [Tree.endLine, if_neg (by simp [h])]

/-- A text in the style that it is written in. -/
theorem reads_scalar {s : String} (hblocks : blocks.head? = some n) (hrest : Follows m rest)
    (hm : m ≤ n) (hp : n ≤ p.column) (ka : Bool)
    (h : ∀ line, Reads (lineStart line rest blocks
      (.scalar (Tree.styleOf s.toList) s :: tokens)) r) :
    Reads (inBlock ⟨' ' :: (Tree.endLine (Tree.scalar (n + Tree.step) s.toList) ++ rest), p⟩ blocks
      ka tokens) r := by
  obtain ⟨cs, rfl⟩ : ∃ cs, s = String.ofList cs := ⟨s.toList, (String.ofList_toList).symm⟩
  rw [String.toList_ofList] at h ⊢
  have hstyled := Tree.styled cs
  unfold Tree.scalar
  generalize Tree.styleOf cs = style at hstyled h ⊢
  -- only a literal text ends with a break of its own
  cases hstyled with
  | plain hne hadmits htext =>
    have hlast : cs.getLast?.any isBreak = false := by
      cases hlast : cs.getLast? with
      | none => rfl
      | some c =>
        exact (Tree.printable_of_admitsPlain hadmits c (List.mem_of_getLast? hlast)).2
    simp only [endLine_of_not_isBreak hlast, List.append_assoc, List.singleton_append]
    exact reads_plain hne hadmits hblocks hrest hm hp ka h
  | singleQuoted hadmits hnewline =>
    have hrest' := Tree.isRest_of_admitsSingle hadmits hnewline
    have hread := Quoted.read_singleQuoted hrest' (by simp [Tree.step] : 0 < n + Tree.step)
      (by simp [Quoted.single] : ('\n' :: rest).head? ≠ some Quoted.single) (p.next ' ')
    have hlast : (Tree.singleQuoted (n + Tree.step) cs).getLast?.any isBreak = false := by
      rw [Tree.singleQuoted, List.getLast?_cons, Tree.getLast?_singleQuotedRest]
      rfl
    have hline : p.line ≤ ((p.next ' ').through (Tree.singleQuoted (n + Tree.step) cs)).line :=
      Position.line_le_through (p.next ' ') _
    simp only [endLine_of_not_isBreak hlast, List.append_assoc, List.singleton_append]
    exact reads_quoted (by decide) readToken_single hline hread hblocks hrest hp ka h
  | doubleQuoted =>
    have hread := Quoted.read_doubleQuoted cs ('\n' :: rest) (p.next ' ')
    have hlast : (Tree.doubleQuoted cs).getLast?.any isBreak = false := by
      rw [Quoted.doubleQuoted_eq, List.getLast?_concat]
      rfl
    have hline : p.line ≤ ((p.next ' ').advance (Tree.doubleQuoted cs)).line := by
      rw [Position.advance_eq]
      exact Nat.le_refl _
    simp only [endLine_of_not_isBreak hlast, List.append_assoc, List.singleton_append]
    exact reads_quoted (by decide) readToken_double hline hread hblocks hrest hp ka h
  | literal hadmits hnewline =>
    simp only [Tree.admitsLiteral, Bool.and_eq_true, List.all_eq_true] at hadmits
    exact reads_literal hadmits.1.1 (List.ne_nil_of_mem hnewline) hblocks hrest hm hp ka h

end

end Lexer

end AtomProbe.Yaml
