import AtomProbe.Yaml.Character
import AtomProbe.Yaml.Error

/-!
# `AtomProbe.Yaml.Cursor`: places in a document

The column of a word says to which block it belongs, so a reader
carries the place of the rest of the document along with it.
-/

set_option autoImplicit false

namespace AtomProbe.Yaml

/-- A place in a document. -/
structure Position where
  /-- The number of lines before it. -/
  line : Nat
  /-- The number of characters before it in its line. -/
  column : Nat
  /-- The number of bytes before it in its line. -/
  offset : Nat
  deriving DecidableEq, Repr

namespace Position

/-- The beginning of a document. -/
def start : Position := ⟨0, 0, 0⟩

/-- Behind one more character of the line. -/
def next (p : Position) (c : Char) : Position :=
  ⟨p.line, p.column + 1, p.offset + c.utf8Size⟩

/-- Behind more characters of the line. -/
def advance (p : Position) (cs : List Char) : Position := cs.foldl next p

/-- Behind a break. -/
def nextLine (p : Position) : Position := ⟨p.line + 1, 0, 0⟩

end Position

/-- The rest of a document and the place where it begins. -/
structure Cursor where
  rest : List Char
  position : Position
  deriving DecidableEq, Repr

namespace Cursor

/-- The whole of a document. -/
def ofList (cs : List Char) : Cursor := ⟨cs, .start⟩

/-- Skip `n` characters of the line. -/
def drop (c : Cursor) (n : Nat) : Cursor :=
  ⟨c.rest.drop n, c.position.advance (c.rest.take n)⟩

/-- Skip the characters of the line that satisfy `p`. -/
def dropWhile (c : Cursor) (p : Char → Bool) : Cursor :=
  ⟨c.rest.dropWhile p, c.position.advance (c.rest.takeWhile p)⟩

/-- Skip blanks, a comment and the break behind them. Anything else in
the line is refused for the given cause. -/
def endLine (cause : Error) (c : Cursor) : Except Error Cursor :=
  let c := c.dropWhile isBlank
  let c := if c.rest.head? = some '#' then c.dropWhile (!isBreak ·) else c
  match c.rest with
  | [] => .ok c
  | b :: cs => if isBreak b then .ok ⟨cs, c.position.nextLine⟩ else .error cause

end Cursor

end AtomProbe.Yaml
