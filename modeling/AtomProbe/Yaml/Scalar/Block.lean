import AtomProbe.Decimal.Digits
import AtomProbe.Yaml.Scalar.Gap

/-!
# `AtomProbe.Yaml.Scalar.Block`: scalars of whole lines

A literal scalar keeps its breaks, a folded one joins its lines. The
header may say how far the lines are indented; otherwise the first
line that is not empty says it. It may also say what happens to the
breaks at the end: by default one of them is kept.
-/

set_option autoImplicit false

namespace AtomProbe.Yaml.Block

/-- Which of the breaks at the end are kept. -/
inductive Chomping
  /-- The first one. -/
  | clip
  /-- None. -/
  | strip
  /-- All. -/
  | keep
  deriving DecidableEq, Repr

/-- What the header of a block scalar says. -/
structure Header where
  chomping : Chomping
  /-- The columns that the lines are indented by, if it is said. -/
  indentation : Option Nat
  deriving DecidableEq, Repr

/-- The indicator of the breaks that are kept. -/
def chomping? : Char → Option Chomping
  | '+' => some .keep
  | '-' => some .strip
  | _ => none

/-- Read the two indicators of a header, in either order. -/
def indicators (c : Cursor) : Except Error (Header × Cursor) :=
  let first := c.rest.head?.bind chomping?
  let c := if first.isSome then c.drop 1 else c
  match c.rest.head?.bind (Decimal.digit? 10) with
  | some 0 => .error .malformedBlockHeader
  | some n =>
    let c := c.drop 1
    match first, c.rest.head?.bind chomping? with
    | none, some chomping => .ok (⟨chomping, some n⟩, c.drop 1)
    | first, _ => .ok (⟨first.getD .clip, some n⟩, c)
  | none => .ok (⟨first.getD .clip, none⟩, c)

/-- What has been read of a block scalar. -/
structure State where
  /-- The column of the lines, once it is known. -/
  column : Option Nat
  /-- The deepest column that was reached before it is known. -/
  deepest : Nat
  /-- The text, the latest character first. -/
  text : List Char
  /-- The break behind the last line. -/
  lineBreak : Option Char
  /-- The breaks of the empty lines behind it, the latest first. -/
  emptyLines : List Char
  /-- Whether the last line begins with a blank. -/
  isIndented : Bool
  /-- Whether the reader stands inside of a line. -/
  inLine : Bool
  deriving DecidableEq, Repr

/-- Whether the column is to the left of the lines. -/
def State.isLeft (s : State) (column : Nat) : Bool :=
  match s.column with
  | none => true
  | some least => column < least

/-- Begin a line with the character `c`. The break before it and the
empty lines are now known to lie inside of the text. -/
def State.beginLine (s : State) (isFolded : Bool) (column : Nat) (c : Char) : State :=
  -- lines fold only where neither of them begins with a blank
  let folds := isFolded && s.lineBreak == some '\n' && !s.isIndented && !isBlank c
  let join :=
    if folds then (if s.emptyLines.isEmpty then [' '] else s.emptyLines)
    else s.emptyLines ++ s.lineBreak.toList
  { s with
    column := some column
    text := c :: join ++ s.text
    lineBreak := none
    emptyLines := []
    isIndented := isBlank c
    inLine := true }

/-- Read on inside of a block scalar, whose lines stand at `least`
columns or more where the column is not known. -/
def scan (isFolded : Bool) (least : Nat) :
    (rest : List Char) → Position → State → Except Error (State × Cursor)
  | [], p, s => .ok (s, ⟨[], p⟩)
  | c :: cs, p, s =>
    if s.inLine then
      if isBreak c then
        scan isFolded least cs (p.nextLine) { s with lineBreak := some c, inLine := false }
      else scan isFolded least cs (p.next c) { s with text := c :: s.text }
    -- at the beginning of a line, blanks up to the column are passed over
    else if c = ' ' ∧ s.isLeft p.column then scan isFolded least cs (p.next c) s
    else
      let deepest := max s.deepest p.column
      if c = '\t' ∧ s.isLeft p.column then .error .tabInIndentation
      else if isBreak c then
        scan isFolded least cs (p.nextLine)
          { s with deepest := deepest, emptyLines := c :: s.emptyLines }
      else
        -- the first line with a character settles the column of them all
        let column := s.column.getD (max deepest least)
        if p.column = column then scan isFolded least cs (p.next c) (s.beginLine isFolded column c)
        else .ok (s, ⟨c :: cs, p⟩)

/-- The text with the breaks at its end that are kept. -/
def State.chomp (s : State) (chomping : Chomping) : List Char :=
  let tail := match chomping with
    | .strip => []
    | .clip => s.lineBreak.toList
    | .keep => s.emptyLines ++ s.lineBreak.toList
  (tail ++ s.text).reverse

/-- Read the block scalar whose indicator stands here, in a block that
is indented by `indent` columns, or by -1 outside of all blocks. -/
def read (isFolded : Bool) (indent : Int) (c : Cursor) : Except Error Lexeme := do
  let (header, c) ← indicators (c.drop 1)
  let c ← c.endLine .malformedBlockHeader
  let column := header.indentation.map fun n => n + indent.toNat
  let least := max 1 (indent + 1).toNat
  let (s, c) ← scan isFolded least c.rest c.position ⟨column, 0, [], none, [], false, false⟩
  return ⟨s.chomp header.chomping, c, true⟩

end AtomProbe.Yaml.Block
