import AtomProbe.Proofs.Yaml.Tree.Scalar

/-!
# `AtomProbe.Proofs.Yaml.Tree.Lexer`: the tokens of a document that is written

`Tree.tokens` lists the tokens of a tree, and the lexer finds exactly
these in its document (`tokens_of_document`). The proof follows the
writer: a value stands behind an indicator (`IsScanned`), the entries
of a sequence and the pairs of a mapping begin lines (`reads_items`,
`reads_pairs`). What follows is arbitrary, except that it must not be
indented further than the collection that the value belongs to.
-/

set_option autoImplicit false

namespace AtomProbe.Yaml

namespace Tree

/-! ### The tokens of a tree -/

mutual

/-- The tokens of what stands behind an indicator. Behind a key no
token says where a sequence begins and ends. -/
def tokens (behindKey : Bool) : Tree → List Token
  | .word s => [.scalar .plain s]
  | .text s => [.scalar (styleOf s.toList) s]
  | .sequence [] => [.flowSequenceStart, .flowSequenceEnd]
  | .sequence (item :: items) =>
    if behindKey then itemTokens (item :: items)
    else .sequenceStart :: itemTokens (item :: items) ++ [.blockEnd]
  | .mapping [] => [.flowMappingStart, .flowMappingEnd]
  | .mapping (pair :: pairs) => .mappingStart :: pairTokens (pair :: pairs) ++ [.blockEnd]

/-- The tokens of the entries of a sequence. -/
def itemTokens : List Tree → List Token
  | [] => []
  | item :: items => .entry :: tokens false item ++ itemTokens items

/-- The tokens of the pairs of a mapping. -/
def pairTokens : List (String × Tree) → List Token
  | [] => []
  | (key, value) :: pairs =>
    .key :: .scalar (styleOf key.toList) key :: .value :: tokens (isSimpleKey key) value ++
      pairTokens pairs

end

/-- A tree that can be read back: its words are words of a plain scalar
that stand for something, its keys are distinct, and it is not nested
deeper than the given depth. -/
inductive IsProper : (depth : Nat) → Tree → Prop
  | text (depth : Nat) (s : String) : IsProper depth (.text s)
  | word (depth : Nat) {s : String} {v : Scalar} (hne : s ≠ "")
    (hadmits : admitsPlain s.toList = true) (hresolve : Schema.resolve s = .ok v) :
    IsProper depth (.word s)
  | sequence {depth : Nat} {items : List Tree} (hitems : ∀ item ∈ items, IsProper depth item) :
    IsProper (depth + 1) (.sequence items)
  | mapping {depth : Nat} {pairs : List (String × Tree)} (hkeys : (pairs.map Prod.fst).Nodup)
    (hpairs : ∀ pair ∈ pairs, IsProper depth pair.2) : IsProper (depth + 1) (.mapping pairs)

end Tree

namespace Lexer

open Yaml.Tree (spaces step write writeItems writePairs itemTokens pairTokens)

/-! ### Values behind an indicator -/

/-- The lexer finds the tokens of a value behind the indicator of a
collection, wherever the collection stands. -/
def IsScanned (tree : Tree) : Prop :=
  ∀ (behindKey : Bool) {n m : Nat} {rest : List Char} {blocks : List Nat} {p : Position}
    {tokens : List Token} {r : Except Error (List Token)},
    blocks.head? = some n → Follows m rest → m ≤ n → n < p.column →
    (behindKey = false → p = ⟨p.line, n + 1, n + 1⟩) →
    (∀ line, Reads (lineStart line rest blocks ((tree.tokens behindKey).reverse ++ tokens)) r) →
    Reads (inBlock ⟨write n behindKey tree ++ rest, p⟩ blocks (!behindKey) tokens) r

theorem isScanned_text (s : String) : IsScanned (.text s) := by
  intro behindKey n m rest blocks p tokens r hblocks hrest hm hp _ h
  rw [write]
  exact reads_scalar hblocks hrest hm (Nat.le_of_lt hp) _ (by simpa [Tree.tokens] using h)

theorem isScanned_word {s : String} (hne : s ≠ "") (hadmits : Tree.admitsPlain s.toList = true) :
    IsScanned (.word s) := by
  intro behindKey n m rest blocks p tokens r hblocks hrest hm hp _ h
  have hcs : s.toList ≠ [] := by simpa using hne
  have hread := reads_plain hcs hadmits hblocks hrest hm (Nat.le_of_lt hp) (!behindKey)
    (by simpa [Tree.tokens] using h)
  simpa [write] using hread

/-- The brackets of an empty collection. -/
theorem reads_brackets {opening closing : Char} {first last : Token}
    (hstarts : startsToken opening = true ∧ startsToken closing = true)
    (hopening : ∀ (s : Lexer) rest, s.readToken opening rest = s.readOpening first)
    (hclosing : ∀ (s : Lexer) rest, s.readToken closing rest = s.readClosing last)
    {n m : Nat} {rest : List Char} {blocks : List Nat} {p : Position} {tokens : List Token}
    {r : Except Error (List Token)} (hblocks : blocks.head? = some n) (hrest : Follows m rest)
    (hp : n ≤ p.column) (ka : Bool)
    (h : ∀ line, Reads (lineStart line rest blocks (last :: first :: tokens)) r) :
    Reads (inBlock ⟨' ' :: opening :: closing :: '\n' :: rest, p⟩ blocks ka tokens) r := by
  generalize hcandidate : wordAt (p.next ' ') blocks ka tokens = candidate
  have hcandidates : ∀ c ∈ candidate, c.isRequired = false ∧ c.position.line = p.line := by
    rw [← hcandidate]
    exact candidate_of_word hblocks hp ka
  have hopen : (inBlock ⟨opening :: closing :: '\n' :: rest, p.next ' '⟩ blocks ka
      tokens).readOpening first = .ok ⟨⟨closing :: '\n' :: rest, (p.next ' ').next opening⟩, blocks,
        true, none, [candidate], first :: tokens, tokens.length + 1⟩ := by
    rw [readOpening, saveCandidate_inBlock, hcandidate]
    rfl
  rw [← hopening] at hopen
  refine reads_of_word hstarts.1 hblocks hp ka hopen (Nat.le_refl _) ?_
  -- a candidate that is dropped before the closing bracket does no harm either
  obtain ⟨kept, hkept, hadvance⟩ : ∃ kept : Option Candidate,
      (∀ c ∈ kept, c.isRequired = false ∧ c.position.line = p.line) ∧
      advance ⟨⟨closing :: '\n' :: rest, (p.next ' ').next opening⟩, blocks, true, none,
        [candidate], first :: tokens, tokens.length + 1⟩ =
        .ok ⟨⟨closing :: '\n' :: rest, (p.next ' ').next opening⟩, blocks, true, none, [kept],
          first :: tokens, tokens.length + 1⟩ := by
    have hskip := skipGap_of_startsToken
      (by simpa using hstarts.2 : ∀ d ∈ (closing :: '\n' :: rest).head?, _) true
      ((p.next ' ').next opening) true
    refine ⟨candidate.filter (!Candidate.isStale · ((p.next ' ').next opening)),
      fun c hc => hcandidates c (Option.mem_filter_iff.1 hc).1, ?_⟩
    have hrequired : candidate.any (fun c => c.isStale ((p.next ' ').next opening) &&
        c.isRequired) = false := by
      cases candidate with
      | none => rfl
      | some c => simp [(hcandidates c rfl).1]
    simp only [advance, inFlow, List.isEmpty_cons, Bool.not_false, hskip, dropStale]
    rw [if_neg (by simp [hrequired])]
    rfl
  have hclose : readClosing ⟨⟨closing :: '\n' :: rest, (p.next ' ').next opening⟩, blocks, true,
      none, [kept], first :: tokens, tokens.length + 1⟩ last =
      .ok ⟨⟨'\n' :: rest, ((p.next ' ').next opening).next closing⟩, blocks, false, kept, [],
        last :: first :: tokens, tokens.length + 2⟩ := rfl
  rw [← hclosing] at hclose
  have hbreak := advance_break hrest (((p.next ' ').next opening).next closing) blocks false
    (last :: first :: tokens) fun c hc => ⟨(hkept c hc).1, Nat.le_of_eq (hkept c hc).2⟩
  exact reads_of_readToken hadvance rfl hclose (Nat.le_refl _) (reads_of_advance_eq hbreak (h _))

theorem isScanned_sequence_nil : IsScanned (.sequence []) := by
  intro behindKey n m rest blocks p tokens r hblocks hrest _ hp _ h
  refine reads_brackets (by decide) (fun s rest => ?_) (fun s rest => ?_) hblocks hrest
    (Nat.le_of_lt hp) _ h
  · simp [readToken, atDocumentMarker]
  · simp [readToken, atDocumentMarker]

theorem isScanned_mapping_nil : IsScanned (.mapping []) := by
  intro behindKey n m rest blocks p tokens r hblocks hrest _ hp _ h
  refine reads_brackets (by decide) (fun s rest => ?_) (fun s rest => ?_) hblocks hrest
    (Nat.le_of_lt hp) _ h
  · simp [readToken, atDocumentMarker]
  · simp [readToken, atDocumentMarker]

/-! ### Lines of a collection -/

/-- What stands behind an indicator begins with a gap. -/
theorem atGap_write (n : Nat) (behindKey : Bool) (tree : Tree) (rest : List Char) :
    atGap (write n behindKey tree ++ rest) = true := by
  cases tree with
  | text s => rw [write]; rfl
  | word s => rw [write]; rfl
  | sequence items => cases items <;> cases behindKey <;> rw [write] <;> rfl
  | mapping pairs => cases pairs <;> cases behindKey <;> rw [write] <;> rfl

/-- The text begins with a token at a column. -/
def BeginsLine (n : Nat) (cs : List Char) : Prop :=
  ∃ c more, startsToken c = true ∧ cs = spaces n ++ c :: more

theorem follows_of_beginsLine {n : Nat} {cs : List Char} (h : BeginsLine n cs)
    (rest : List Char) : Follows n (cs ++ rest) := by
  obtain ⟨c, more, hc, rfl⟩ := h
  rw [List.append_assoc, List.cons_append]
  exact follows_cons n hc _

theorem beginsLine_writeItems (n : Nat) (item : Tree) (items : List Tree) :
    BeginsLine n (writeItems n (item :: items)) := by
  refine ⟨'-', write n false item ++ writeItems n items, by decide, ?_⟩
  rw [writeItems]
  simp

theorem beginsLine_writePairs (n : Nat) (pair : String × Tree) (pairs : List (String × Tree)) :
    BeginsLine n (writePairs n (pair :: pairs)) := by
  obtain ⟨key, value⟩ := pair
  rw [writePairs]
  split
  · next hkey =>
    obtain ⟨c, more, happend, hstarts, -⟩ := readToken_key (of_isSimpleKey hkey).2
      (by simp [step] : 0 < n + step) (atGap_write n true value (writePairs n pairs)) .start []
      true []
    refine ⟨c, more, hstarts, ?_⟩
    simp only [List.append_assoc, List.cons_append, happend]
  · simp only [List.append_assoc, List.cons_append]
    exact ⟨'?', _, by decide, rfl⟩

theorem follows_writeItems {n m : Nat} {rest : List Char} (hrest : Follows m rest) (hm : m ≤ n)
    (items : List Tree) : ∃ k, k ≤ n ∧ Follows k (writeItems n items ++ rest) := by
  cases items with
  | nil => exact ⟨m, hm, hrest⟩
  | cons item items =>
    exact ⟨n, Nat.le_refl n, follows_of_beginsLine (beginsLine_writeItems n item items) rest⟩

theorem follows_writePairs {n m : Nat} {rest : List Char} (hrest : Follows m rest) (hm : m ≤ n)
    (pairs : List (String × Tree)) : ∃ k, k ≤ n ∧ Follows k (writePairs n pairs ++ rest) := by
  cases pairs with
  | nil => exact ⟨m, hm, hrest⟩
  | cons pair pairs =>
    exact ⟨n, Nat.le_refl n, follows_of_beginsLine (beginsLine_writePairs n pair pairs) rest⟩

/-- The entries of a sequence, of which the first may open it. -/
theorem reads_items {items : List Tree} (hitems : ∀ item ∈ items, IsScanned item) {n m : Nat}
    {rest : List Char} (hrest : Follows m rest) (hm : m ≤ n) {blocks : List Nat}
    (hblocks : ∀ b ∈ blocks.head?, b ≤ n) (hopen : items = [] → blocks.head? = some n)
    {line : Nat} {tokens : List Token} {r : Except Error (List Token)}
    (h : ∀ line, Reads (lineStart line rest (entered n blocks)
      ((itemTokens items).reverse ++ (opening .sequenceStart n blocks ++ tokens))) r) :
    Reads (lineStart line (writeItems n items ++ rest) blocks tokens) r := by
  induction items generalizing blocks line tokens with
  | nil =>
    have hread := h line
    rw [entered_of_head (hopen rfl), opening_of_head (hopen rfl)] at hread
    exact hread
  | cons item items ih =>
    have hhead := head?_entered n blocks
    obtain ⟨k, hk, hfollows⟩ := follows_writeItems hrest hm items
    have happend : writeItems n (item :: items) ++ rest =
        spaces n ++ '-' :: (write n false item ++ (writeItems n items ++ rest)) := by
      rw [writeItems]
      simp
    rw [happend]
    refine reads_entry (atGap_write n false item _) hblocks ?_
    -- behind the first entry the block is open
    refine hitems item List.mem_cons_self false hhead hfollows hk (Nat.lt_succ_self n)
      (fun _ => rfl) fun line => ?_
    refine ih (fun t ht => hitems t (List.mem_cons_of_mem _ ht)) (by simp [hhead])
      (fun _ => hhead) fun line => ?_
    rw [entered_of_head hhead, opening_of_head hhead]
    simpa [itemTokens] using h line

/-- A pair of a mapping, which may open it. -/
theorem reads_pair {key : String} {value : Tree} (hvalue : IsScanned value) {n m : Nat}
    {rest : List Char} (hrest : Follows m rest) (hm : m ≤ n) {blocks : List Nat}
    (hblocks : ∀ b ∈ blocks.head?, b ≤ n) {line : Nat} {tokens : List Token}
    {r : Except Error (List Token)}
    (h : ∀ line, Reads (lineStart line rest (entered n blocks)
      ((pairTokens [(key, value)]).reverse ++ (opening .mappingStart n blocks ++ tokens))) r) :
    Reads (lineStart line (writePairs n [(key, value)] ++ rest) blocks tokens) r := by
  have hhead := head?_entered n blocks
  rw [writePairs, writePairs, List.append_nil]
  -- a key that is too long or has breaks stands behind a question mark
  split
  · next hkey =>
    rw [List.append_assoc, List.append_assoc, List.cons_append]
    refine reads_key hkey (atGap_write n true value rest) hblocks fun q hq => ?_
    refine hvalue true hhead hrest hm hq (by simp) fun line => ?_
    simpa [pairTokens, hkey] using h line
  · next hkey =>
    have happend : spaces n ++ '?' :: ' ' :: Tree.endLine (Tree.scalar (n + step) key.toList) ++
        spaces n ++ ':' :: write n false value ++ rest =
          spaces n ++ '?' :: (' ' :: (Tree.endLine (Tree.scalar (n + step) key.toList) ++
            (spaces n ++ ':' :: (write n false value ++ rest)))) := by
      simp
    rw [happend]
    refine reads_keyMark rfl hblocks ?_
    refine reads_scalar hhead (follows_cons n (by decide) _) (Nat.le_refl n) (Nat.le_succ n) true
      fun line => ?_
    refine reads_valueMark (atGap_write n false value rest) hhead ?_
    refine hvalue false hhead hrest hm (Nat.lt_succ_self n) (fun _ => rfl) fun line => ?_
    simpa [pairTokens, hkey] using h line

/-- The pairs of a mapping, of which the first may open it. -/
theorem reads_pairs {pairs : List (String × Tree)} (hpairs : ∀ pair ∈ pairs, IsScanned pair.2)
    {n m : Nat} {rest : List Char} (hrest : Follows m rest) (hm : m ≤ n) {blocks : List Nat}
    (hblocks : ∀ b ∈ blocks.head?, b ≤ n) (hopen : pairs = [] → blocks.head? = some n)
    {line : Nat} {tokens : List Token} {r : Except Error (List Token)}
    (h : ∀ line, Reads (lineStart line rest (entered n blocks)
      ((pairTokens pairs).reverse ++ (opening .mappingStart n blocks ++ tokens))) r) :
    Reads (lineStart line (writePairs n pairs ++ rest) blocks tokens) r := by
  induction pairs generalizing blocks line tokens with
  | nil =>
    have hread := h line
    rw [entered_of_head (hopen rfl), opening_of_head (hopen rfl)] at hread
    exact hread
  | cons pair pairs ih =>
    obtain ⟨key, value⟩ := pair
    have hhead := head?_entered n blocks
    obtain ⟨k, hk, hfollows⟩ := follows_writePairs hrest hm pairs
    have happend : writePairs n ((key, value) :: pairs) ++ rest =
        writePairs n [(key, value)] ++ (writePairs n pairs ++ rest) := by
      simp [writePairs]
    rw [happend]
    -- behind the first pair the block is open
    refine reads_pair (hpairs _ List.mem_cons_self) hfollows hk hblocks fun line => ?_
    refine ih (fun t ht => hpairs t (List.mem_cons_of_mem _ ht)) (by simp [hhead])
      (fun _ => hhead) fun line => ?_
    rw [entered_of_head hhead, opening_of_head hhead]
    simpa [pairTokens] using h line

/-! ### Whole trees -/

/-- The lines of a collection below its key. -/
theorem reads_belowKey {k : Nat} {lines : List Char} (hlines : BeginsLine k lines)
    {rest : List Char} {p : Position} {blocks : List Nat} {tokens : List Token}
    {r : Except Error (List Token)}
    (h : Reads (lineStart (p.line + 1) (lines ++ rest) blocks tokens) r) :
    Reads (inBlock ⟨'\n' :: lines ++ rest, p⟩ blocks false tokens) r :=
  reads_of_advance_eq
    (advance_break (follows_of_beginsLine hlines rest) p blocks false tokens (by simp)) h

/-- The lines of a collection behind a mark, of which the first goes on
in the line of the mark. -/
theorem reads_behindIndicator {n line : Nat} {lines : List Char}
    (hlines : BeginsLine (n + step) lines) {rest : List Char} {blocks : List Nat}
    {tokens : List Token} {r : Except Error (List Token)}
    (h : Reads (lineStart line (lines ++ rest) blocks tokens) r) :
    Reads (inBlock ⟨Tree.behindIndicator (n + step) lines ++ rest, ⟨line, n + 1, n + 1⟩⟩ blocks true
      tokens) r := by
  obtain ⟨c, more, hc, rfl⟩ := hlines
  have hdrop : Tree.behindIndicator (n + step) (spaces (n + step) ++ c :: more) ++ rest =
      spaces 1 ++ c :: (more ++ rest) := by
    simp [Tree.behindIndicator, spaces]
  have hline : spaces (n + 1) ++ (spaces 1 ++ c :: (more ++ rest)) =
      spaces (n + step) ++ c :: more ++ rest := by
    simp only [spaces, step, ← List.append_assoc, List.replicate_append_replicate]
    simp
  have hadvance : advance (inBlock ⟨spaces 1 ++ c :: (more ++ rest), ⟨line, n + 1, n + 1⟩⟩ blocks
      true tokens) = _ :=
    advance_column (follows_cons 1 hc (more ++ rest)) line (n + 1) blocks tokens (by simp)
  rw [hline] at hadvance
  rw [hdrop]
  exact reads_of_advance_eq hadvance h

/-- A sequence that is not empty. -/
theorem isScanned_sequence {item : Tree} {items : List Tree}
    (hitems : ∀ t ∈ item :: items, IsScanned t) : IsScanned (.sequence (item :: items)) := by
  intro behindKey n m rest blocks p tokens r hblocks hrest hm hp hmark h
  rw [write]
  cases behindKey with
  | true =>
    -- the entries belong to the block of the mapping around the key
    refine reads_belowKey (beginsLine_writeItems n item items) ?_
    refine reads_items hitems hrest hm (by simp [hblocks]) (fun _ => hblocks) fun line => ?_
    rw [entered_of_head hblocks, opening_of_head hblocks]
    simpa [Tree.tokens] using h line
  | false =>
    have hlt : n < n + step := by simp [step]
    rw [hmark rfl]
    refine reads_behindIndicator (beginsLine_writeItems (n + step) item items) ?_
    refine reads_items hitems hrest (by omega) (by simp [hblocks]) (by simp) fun line => ?_
    rw [entered_of_lt hblocks hlt, opening_of_lt hblocks hlt]
    refine reads_close hrest (by omega) ?_
    simpa [Tree.tokens] using h line

/-- A mapping that is not empty. -/
theorem isScanned_mapping {pair : String × Tree} {pairs : List (String × Tree)}
    (hpairs : ∀ q ∈ pair :: pairs, IsScanned q.2) : IsScanned (.mapping (pair :: pairs)) := by
  intro behindKey n m rest blocks p tokens r hblocks hrest hm hp hmark h
  have hlt : n < n + step := by simp [step]
  have hlines {line : Nat} :
      Reads (lineStart line (writePairs (n + step) (pair :: pairs) ++ rest) blocks tokens) r := by
    refine reads_pairs hpairs hrest (by omega) (by simp [hblocks]) (by simp) fun line => ?_
    rw [entered_of_lt hblocks hlt, opening_of_lt hblocks hlt]
    refine reads_close hrest (by omega) ?_
    simpa [Tree.tokens] using h line
  rw [write]
  cases behindKey with
  | true => exact reads_belowKey (beginsLine_writePairs (n + step) pair pairs) hlines
  | false =>
    rw [hmark rfl]
    exact reads_behindIndicator (beginsLine_writePairs (n + step) pair pairs) hlines

/-- Every proper tree is found behind an indicator. -/
theorem isScanned_of_isProper {depth : Nat} {tree : Tree} (h : tree.IsProper depth) :
    IsScanned tree := by
  induction h with
  | text depth s => exact isScanned_text s
  | word depth hne hadmits _ => exact isScanned_word hne hadmits
  | @sequence depth items _ ih =>
    cases items with
    | nil => exact isScanned_sequence_nil
    | cons item items => exact isScanned_sequence ih
  | @mapping depth pairs _ _ ih =>
    cases pairs with
    | nil => exact isScanned_mapping_nil
    | cons pair pairs => exact isScanned_mapping ih

end Lexer

namespace Tree

/-! ### Whole documents -/

theorem isPrintable_endLine_scalar (n : Nat) (cs : List Char) :
    ∀ c ∈ endLine (scalar n cs), isPrintable c = true := by
  unfold endLine
  split
  · exact fun c hc => isPrintable_scalar hc
  · simp only [List.forall_mem_append, List.forall_mem_singleton]
    exact ⟨fun c hc => isPrintable_scalar hc, by decide⟩

theorem isPrintable_spaces (n : Nat) : ∀ c ∈ spaces n, isPrintable c = true := by
  intro c hc
  rw [List.eq_of_mem_replicate hc]
  decide

theorem isPrintable_writeItems {items : List Tree}
    (h : ∀ item ∈ items, ∀ n, ∀ c ∈ write n false item, isPrintable c = true) (n : Nat) :
    ∀ c ∈ writeItems n items, isPrintable c = true := by
  induction items with
  | nil => simp [writeItems]
  | cons item items ih =>
    have hdash : isPrintable '-' = true := by decide
    simp only [writeItems, List.forall_mem_append, List.forall_mem_cons]
    exact ⟨⟨isPrintable_spaces n, hdash, h item List.mem_cons_self n⟩,
      ih fun t ht => h t (List.mem_cons_of_mem _ ht)⟩

theorem isPrintable_writePairs {pairs : List (String × Tree)}
    (h : ∀ pair ∈ pairs, ∀ n behindKey, ∀ c ∈ write n behindKey pair.2, isPrintable c = true)
    (n : Nat) : ∀ c ∈ writePairs n pairs, isPrintable c = true := by
  induction pairs with
  | nil => simp [writePairs]
  | cons pair pairs ih =>
    obtain ⟨key, value⟩ := pair
    have hmarks : isPrintable '?' = true ∧ isPrintable ' ' = true ∧ isPrintable ':' = true := by
      decide
    have hvalue := h _ List.mem_cons_self n
    have hrest := ih fun t ht => h t (List.mem_cons_of_mem _ ht)
    have hscalar : ∀ c ∈ scalar (n + step) key.toList, isPrintable c = true :=
      fun c hc => isPrintable_scalar hc
    rw [writePairs, List.forall_mem_append]
    refine ⟨?_, hrest⟩
    -- a simple key has its colon behind it, and any other has marks before it
    split
    · simp only [List.forall_mem_append, List.forall_mem_cons]
      exact ⟨⟨isPrintable_spaces n, hscalar⟩, hmarks.2.2, hvalue true⟩
    · simp only [List.forall_mem_append, List.forall_mem_cons]
      exact ⟨⟨⟨isPrintable_spaces n, hmarks.1, hmarks.2.1, isPrintable_endLine_scalar _ _⟩,
        isPrintable_spaces n⟩, hmarks.2.2, hvalue false⟩

/-- Lines of a collection behind its indicator. -/
theorem isPrintable_lines {behindKey : Bool} {below behind : List Char} (k : Nat)
    (hbelow : ∀ c ∈ below, isPrintable c = true) (hbehind : ∀ c ∈ behind, isPrintable c = true) :
    ∀ c ∈ if behindKey then '\n' :: below else behindIndicator k behind,
      isPrintable c = true := by
  have hgaps : isPrintable ' ' = true ∧ isPrintable '\n' = true := by decide
  cases behindKey with
  | true => simpa using ⟨hgaps.2, hbelow⟩
  | false =>
    simp only [Bool.false_eq_true, if_false, behindIndicator, List.forall_mem_cons]
    exact ⟨hgaps.1, fun c hc => hbehind c (List.mem_of_mem_drop hc)⟩

/-- A document may hold what is written for a proper tree. -/
theorem isPrintable_write {depth : Nat} {tree : Tree} (h : tree.IsProper depth) (n : Nat)
    (behindKey : Bool) : ∀ c ∈ write n behindKey tree, isPrintable c = true := by
  have hgaps : isPrintable ' ' = true ∧ isPrintable '\n' = true := by decide
  induction h generalizing n behindKey with
  | text depth s =>
    rw [write, List.forall_mem_cons]
    exact ⟨hgaps.1, isPrintable_endLine_scalar _ _⟩
  | word depth hne hadmits _ =>
    rw [write, List.cons_append, List.forall_mem_cons, List.forall_mem_append,
      List.forall_mem_singleton]
    exact ⟨hgaps.1, fun c hc => (printable_of_admitsPlain hadmits c hc).1, hgaps.2⟩
  | @sequence depth items _ ih =>
    -- an empty sequence is written in brackets
    cases items with
    | nil =>
      have hall : [' ', '[', ']', '\n'].all isPrintable = true := by decide
      rw [write]
      exact List.all_eq_true.1 hall
    | cons item items =>
      have hitems := isPrintable_writeItems fun t ht n => ih t ht n false
      rw [write]
      exact isPrintable_lines _ (hitems n) (hitems (n + step))
  | @mapping depth pairs _ _ ih =>
    cases pairs with
    | nil =>
      have hall : [' ', '\x7b', '\x7d', '\n'].all isPrintable = true := by decide
      rw [write]
      exact List.all_eq_true.1 hall
    | cons pair pairs =>
      have hpairs := isPrintable_writePairs fun t ht n behindKey => ih t ht n behindKey
      rw [write]
      exact isPrintable_lines _ (hpairs (n + step)) (hpairs (n + step))

/-- Where only visible characters and line feeds stand, all breaks are
line feeds or kept. -/
theorem unifyBreaks_eq {cs : List Char} (h : ∀ c ∈ cs, isPrintable c = true) :
    unifyBreaks cs = cs := by
  induction cs with
  | nil => rfl
  | cons c cs ih =>
    have hc := h c List.mem_cons_self
    -- the breaks that are unified are no visible characters
    have hreturn : c ≠ '\r' := by
      rintro rfl
      exact absurd hc (by decide)
    have hline : c ≠ '\u0085' := by
      rintro rfl
      exact absurd hc (by decide)
    rw [unifyBreaks, ih fun d hd => h d (List.mem_cons_of_mem _ hd), if_neg (by simp [*])]
    simp [hreturn]

/-- The tokens of the document of a mapping. -/
theorem tokens_of_document {depth : Nat} {pairs : List (String × Tree)}
    (h : IsProper depth (.mapping pairs)) :
    Token.ofText (document pairs) = .ok (tokens false (.mapping pairs)) := by
  cases pairs with
  | nil => decide
  | cons pair pairs =>
    cases h with
    | mapping hkeys hpairs =>
      have hprintable := isPrintable_writePairs
        (fun t ht n behindKey => isPrintable_write (hpairs t ht) n behindKey) 0
      have hreads : Lexer.Reads (.start (writePairs 0 (pair :: pairs)))
          (.ok (tokens false (.mapping (pair :: pairs)))) := by
        rw [← List.append_nil (writePairs 0 (pair :: pairs))]
        refine Lexer.reads_pairs (fun t ht => Lexer.isScanned_of_isProper (hpairs t ht))
          follows_nil (Nat.le_refl 0) (by simp : ∀ b ∈ [].head?, b ≤ 0) (by simp) fun line => ?_
        have hend := Lexer.reads_end (by simp : ∀ b ∈ [0].head?, b = 0) line
          ((pairTokens (pair :: pairs)).reverse ++ [.mappingStart])
        simpa [tokens, Lexer.entered, Lexer.opening] using hend
      have hrun := Lexer.run_of_reads hreads (Nat.lt_succ_self _)
      have hdocument : document (pair :: pairs) = String.ofList (writePairs 0 (pair :: pairs)) := rfl
      -- the text is read as it is, since it has no character that is not allowed
      rw [hdocument, Token.ofText, String.toList_ofList, unifyBreaks_eq hprintable, if_pos]
      · exact hrun
      · exact List.all_eq_true.2 fun c hc => isAllowed_of_isPrintable (hprintable c hc)

end Tree

end AtomProbe.Yaml
