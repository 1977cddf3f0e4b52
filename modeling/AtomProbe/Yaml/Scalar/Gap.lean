import AtomProbe.Yaml.Cursor

/-!
# `AtomProbe.Yaml.Scalar.Gap`: what stands between the words of a scalar

A plain or quoted scalar may run over several lines. Blanks inside a
line are kept; the blanks around a break are not. A single line feed
is read as a space, and of several the first is dropped. A separator
that is no line feed is kept. A break that a backslash escapes is
dropped as well, without a space in its place.
-/

set_option autoImplicit false

namespace AtomProbe.Yaml

/-- The blanks and breaks since the last word, the latest first. -/
structure Gap where
  blanks : List Char
  breaks : List Char
  /-- The gap began with an escaped break. -/
  isEscaped : Bool
  deriving DecidableEq, Repr

namespace Gap

/-- No gap: the next character belongs to the same word. -/
def none : Gap := ⟨[], [], false⟩

/-- Behind an escaped break. -/
def escaped : Gap := ⟨[], [], true⟩

/-- Whether the gap reaches into a new line. -/
def startsLine (g : Gap) : Bool := g.isEscaped || !g.breaks.isEmpty

/-- Whether a word ended before. -/
def isSome (g : Gap) : Bool := g.startsLine || !g.blanks.isEmpty

/-- The gap and another blank. -/
def addBlank (g : Gap) (c : Char) : Gap :=
  if g.startsLine then g else { g with blanks := c :: g.blanks }

/-- The gap and another break. -/
def addBreak (g : Gap) (c : Char) : Gap :=
  { g with blanks := [], breaks := c :: g.breaks }

/-- What the gap is read as. -/
def text (g : Gap) : List Char :=
  match g.isEscaped, g.breaks.reverse with
  | true, breaks => breaks
  | false, [] => g.blanks.reverse
  | false, '\n' :: [] => [' ']
  | false, '\n' :: more => more
  | false, breaks => breaks

end Gap

/-- A scalar that has been read, and the place behind it. -/
structure Lexeme where
  text : List Char
  cursor : Cursor
  /-- Whether the place behind lies in a later line than the last word. -/
  startsLine : Bool
  deriving DecidableEq, Repr

end AtomProbe.Yaml
