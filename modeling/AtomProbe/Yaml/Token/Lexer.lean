import AtomProbe.Yaml.Scalar.Block
import AtomProbe.Yaml.Scalar.Plain
import AtomProbe.Yaml.Scalar.Quoted
import AtomProbe.Yaml.Token.Directive

/-!
# `AtomProbe.Yaml.Token.Lexer`: the tokens of a document

Two rules of the format need more than the next characters. The
columns at which words begin open and close block collections, so the
lexer keeps the columns of the open blocks. And a word is a mapping key
only if a colon follows it in the same line, so the lexer remembers the
latest word that may turn out to be one, at each level of flow
collections, and puts the key token before it when the colon comes.
-/

set_option autoImplicit false

namespace AtomProbe.Yaml

/-- A word that may turn out to be a mapping key. -/
structure Candidate where
  /-- The word can be nothing but a key. -/
  isRequired : Bool
  /-- The number of tokens before the word. -/
  tokensBefore : Nat
  position : Position
  deriving DecidableEq, Repr

/-- The most bytes from the beginning of a key to its colon. -/
def Candidate.reach : Nat := 1024

/-- Whether a colon at `p` comes too late. -/
def Candidate.isStale (c : Candidate) (p : Position) : Bool :=
  c.position.line < p.line || c.position.offset + reach < p.offset

/-- What the lexer knows at a place of a document. -/
structure Lexer where
  cursor : Cursor
  /-- The columns of the open blocks, the innermost first. -/
  blocks : List Nat
  /-- Whether a key may begin here. -/
  keyAllowed : Bool
  /-- The latest word that may turn out to be a key. -/
  candidate : Option Candidate
  /-- The same for the collections around each open flow collection, the
  innermost first. -/
  enclosing : List (Option Candidate)
  /-- The tokens so far, the latest first. -/
  tokens : List Token
  /-- The number of tokens so far. -/
  count : Nat
  deriving DecidableEq, Repr

namespace Lexer

/-- The beginning of a document. -/
def start (cs : List Char) : Lexer := ⟨.ofList cs, [], true, none, [], [], 0⟩

/-- Whether the place lies in a flow collection. -/
def inFlow (s : Lexer) : Bool := !s.enclosing.isEmpty

/-- The column of the innermost block, or -1 outside of all blocks. -/
def indent (s : Lexer) : Int :=
  match s.blocks with
  | [] => -1
  | column :: _ => column

/-- The column of the place. -/
def column (s : Lexer) : Nat := s.cursor.position.column

/-- Add a token. -/
def push (s : Lexer) (t : Token) : Lexer :=
  { s with tokens := t :: s.tokens, count := s.count + 1 }

/-- Add a token that `n` characters stand for. -/
def pushOver (s : Lexer) (t : Token) (n : Nat) : Lexer :=
  { s.push t with cursor := s.cursor.drop n }

/-- Put tokens behind the first `place` ones. -/
def insert (s : Lexer) (place : Nat) (new : List Token) : Lexer :=
  -- the latest tokens come first, so the first ones stand at the end
  let behind := s.count - place
  { s with
    tokens := s.tokens.take behind ++ new.reverse ++ s.tokens.drop behind
    count := s.count + new.length }

/-! ### Blocks -/

/-- Close the blocks to the right of a column. -/
def closeTo (s : Lexer) (column : Int) : Lexer :=
  -- inside of brackets the columns say nothing
  if s.inFlow then s
  else
    let closed := s.blocks.takeWhile fun (b : Nat) => decide (column < b)
    { s with
      blocks := s.blocks.drop closed.length
      tokens := closed.map (fun _ => Token.blockEnd) ++ s.tokens
      count := s.count + closed.length }

/-- The token that opens a block at a column, if none is open there,
and the blocks with it. -/
def openAt (s : Lexer) (column : Nat) (t : Token) : List Token × List Nat :=
  if !s.inFlow && decide (s.indent < column) then ([t], column :: s.blocks)
  else ([], s.blocks)

/-- Open a block here, if none is open at this column. -/
def openHere (s : Lexer) (t : Token) : Lexer :=
  let (new, blocks) := s.openAt s.column t
  { s.insert s.count new with blocks := blocks }

/-! ### Candidates for keys -/

/-- Give up the candidate. One that can be nothing but a key is refused. -/
def dropCandidate (s : Lexer) : Except Error Lexer :=
  if s.candidate.any (·.isRequired) then .error .missingColon
  else .ok { s with candidate := none }

/-- Give up the candidates for which a colon here comes too late. -/
def dropStale (s : Lexer) : Except Error Lexer :=
  let stale (c : Candidate) : Bool := c.isStale s.cursor.position
  let all := s.candidate :: s.enclosing
  if all.any (·.any fun c => stale c && c.isRequired) then .error .missingColon
  else
    .ok { s with
      candidate := s.candidate.filter (!stale ·)
      enclosing := s.enclosing.map (·.filter (!stale ·)) }

/-- The word that begins here may turn out to be a key. -/
def saveCandidate (s : Lexer) : Except Error Lexer := do
  if s.keyAllowed then
    -- at the column of its block a word can be nothing but a key
    let candidate := ⟨!s.inFlow && decide (s.indent = s.column), s.count, s.cursor.position⟩
    return { ← s.dropCandidate with candidate := some candidate }
  else return s

/-! ### Tokens -/

/-- Skip blanks, comments and breaks, and byte order marks at the
beginning of a line. A tab may not stand where a block could begin. A
break makes room for a key in a block. -/
def skipGap (inFlow : Bool) : (rest : List Char) → Position → (keyAllowed inComment : Bool) →
    Cursor × Bool
  | [], p, keyAllowed, _ => (⟨[], p⟩, keyAllowed)
  | c :: cs, p, keyAllowed, inComment =>
    if isBreak c then skipGap inFlow cs p.nextLine (keyAllowed || !inFlow) false
    else if inComment then skipGap inFlow cs (p.next c) keyAllowed true
    else if c = ' ' ∨ (c = '\t' ∧ (inFlow ∨ ¬ keyAllowed)) ∨
        (c = byteOrderMark ∧ p.column = 0) then
      skipGap inFlow cs (p.next c) keyAllowed false
    else if c = '#' then skipGap inFlow cs (p.next c) keyAllowed true
    else (⟨c :: cs, p⟩, keyAllowed)

/-- Go to the beginning of the next token, and close the blocks that end
before it. -/
def advance (s : Lexer) : Except Error Lexer := do
  let (cursor, keyAllowed) := skipGap s.inFlow s.cursor.rest s.cursor.position s.keyAllowed false
  let s ← { s with cursor := cursor, keyAllowed := keyAllowed }.dropStale
  return s.closeTo s.column

/-- Read a directive. -/
def readDirective (s : Lexer) : Except Error Lexer := do
  let s ← (s.closeTo (-1)).dropCandidate
  let (token, cursor) ← Directive.read s.cursor
  return { s.push token with cursor := cursor, keyAllowed := false }

/-- Read a document marker. -/
def readDocumentMarker (s : Lexer) (t : Token) : Except Error Lexer := do
  let s ← (s.closeTo (-1)).dropCandidate
  return { s.pushOver t 3 with keyAllowed := false }

/-- Read the opening bracket of a flow collection. -/
def readOpening (s : Lexer) (t : Token) : Except Error Lexer := do
  -- the whole collection may be a key, and so may each word in it
  let s ← s.saveCandidate
  return { s.pushOver t 1 with
    candidate := none
    enclosing := s.candidate :: s.enclosing
    keyAllowed := true }

/-- Read the closing bracket of a flow collection. -/
def readClosing (s : Lexer) (t : Token) : Except Error Lexer := do
  let s ← s.dropCandidate
  -- from here on the whole collection is the candidate again
  return { s.pushOver t 1 with
    candidate := s.enclosing.head?.join
    enclosing := s.enclosing.tail
    keyAllowed := false }

/-- Read a comma between entries of a flow collection. -/
def readComma (s : Lexer) : Except Error Lexer := do
  let s ← s.dropCandidate
  return { s.pushOver .comma 1 with keyAllowed := true }

/-- Read the dash before an entry of a block sequence. -/
def readEntry (s : Lexer) : Except Error Lexer := do
  if !s.inFlow && !s.keyAllowed then throw .entryNotAllowed
  let s ← (s.openHere .sequenceStart).dropCandidate
  return { s.pushOver .entry 1 with keyAllowed := true }

/-- Read the question mark before a key. -/
def readKey (s : Lexer) : Except Error Lexer := do
  if !s.inFlow && !s.keyAllowed then throw .keyNotAllowed
  let s ← (s.openHere .mappingStart).dropCandidate
  return { s.pushOver .key 1 with keyAllowed := !s.inFlow }

/-- Read the colon before a value. If there is a candidate, it is the
key. -/
def readValue (s : Lexer) : Except Error Lexer :=
  match s.candidate with
  | some c =>
    -- the key token goes before the word, and the block that it opens
    -- before the key token
    let (new, blocks) := s.openAt c.position.column .mappingStart
    let s := s.insert c.tokensBefore (new ++ [.key])
    .ok { s.pushOver .value 1 with blocks := blocks, candidate := none, keyAllowed := false }
  | none =>
    if !s.inFlow && !s.keyAllowed then .error .valueNotAllowed
    else .ok { (s.openHere .mappingStart).pushOver .value 1 with keyAllowed := !s.inFlow }

/-- Read an anchor or an alias. -/
def readAnchor (s : Lexer) (token : String → Token) : Except Error Lexer := do
  let s ← s.saveCandidate
  let (name, cursor) ← Anchor.read (s.cursor.drop 1)
  return { s.push (token name) with cursor := cursor, keyAllowed := false }

/-- Read a tag. -/
def readTag (s : Lexer) : Except Error Lexer := do
  let s ← s.saveCandidate
  let (token, cursor) ← Tag.read s.inFlow s.cursor
  return { s.push token with cursor := cursor, keyAllowed := false }

/-- Read a literal or folded scalar. -/
def readBlock (s : Lexer) (style : ScalarStyle) : Except Error Lexer := do
  let s ← s.dropCandidate
  let l ← Block.read (style == .folded) s.indent s.cursor
  -- the next token stands at the beginning of a line
  return { s.push (.scalar style (String.ofList l.text)) with
    cursor := l.cursor, keyAllowed := true }

/-- Read a scalar between quotes. -/
def readQuoted (s : Lexer) (style : ScalarStyle) : Except Error Lexer := do
  let s ← s.saveCandidate
  let l ← Quoted.read s.cursor
  return { s.push (.scalar style (String.ofList l.text)) with
    cursor := l.cursor, keyAllowed := false }

/-- Read a scalar without quotes. -/
def readPlain (s : Lexer) : Except Error Lexer := do
  let s ← s.saveCandidate
  let l ← Plain.read s.inFlow (s.indent + 1) s.cursor
  -- a scalar that is left in a later line leaves room for a key there
  return { s.push (.scalar .plain (String.ofList l.text)) with
    cursor := l.cursor, keyAllowed := l.startsLine }

/-- Whether a plain scalar can begin with `c` where `rest` follows, and
no other token does. -/
def beginsPlain (inFlow : Bool) (c : Char) (rest : List Char) : Bool :=
  !(isGap c || ['-', '?', ':', ',', '[', ']', '{', '}', '#', '&', '*', '!', '|', '>', '\x27',
    '\x22', '%', '@', '\x60'].contains c) ||
    c == '-' || (!inFlow && (c == '?' || c == ':') && !atGap rest)

/-- Read the token that begins here with `c`, before `rest`. -/
def readToken (s : Lexer) (c : Char) (rest : List Char) : Except Error Lexer :=
  -- directives and document markers stand at the margin only
  if s.column = 0 ∧ c = '%' then s.readDirective
  else if s.column = 0 ∧ atDocumentMarker (c :: rest) then
    s.readDocumentMarker (if c = '-' then .documentStart else .documentEnd)
  -- in a block the indicators need a gap behind them
  else if c = '-' ∧ atGap rest then s.readEntry
  else if c = '?' ∧ (s.inFlow ∨ atGap rest) then s.readKey
  else if c = ':' ∧ (s.inFlow ∨ atGap rest) then s.readValue
  else if c = '[' then s.readOpening .flowSequenceStart
  else if c = ']' then s.readClosing .flowSequenceEnd
  else if c = '\x7b' then s.readOpening .flowMappingStart
  else if c = '\x7d' then s.readClosing .flowMappingEnd
  else if c = ',' then s.readComma
  else if c = '*' then s.readAnchor .alias
  else if c = '&' then s.readAnchor .anchor
  else if c = '!' then s.readTag
  else if c = '|' ∧ ¬ s.inFlow then s.readBlock .literal
  else if c = '>' ∧ ¬ s.inFlow then s.readBlock .folded
  else if c = Quoted.single then s.readQuoted .singleQuoted
  else if c = Quoted.double then s.readQuoted .doubleQuoted
  else if beginsPlain s.inFlow c rest then s.readPlain
  else .error .noToken

/-- Read all tokens. Each but the last step passes a character, so more
steps than characters suffice. -/
def run : (fuel : Nat) → Lexer → Except Error (List Token)
  | 0, _ => .error .noToken
  | fuel + 1, s => do
    let s ← s.advance
    match s.cursor.rest with
    | [] => do
      let s ← (s.closeTo (-1)).dropCandidate
      return s.tokens.reverse
    | c :: rest => do
      let s ← s.readToken c rest
      run fuel s

end Lexer

/-- The tokens of a document. -/
def Token.ofText (text : String) : Except Error (List Token) :=
  let cs := text.toList
  if cs.all isAllowed then
    let cs := unifyBreaks cs
    Lexer.run (cs.length + 1) (.start cs)
  else .error .characterNotAllowed

end AtomProbe.Yaml
