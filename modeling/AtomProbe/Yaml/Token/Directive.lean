import AtomProbe.Yaml.Token.Property

/-!
# `AtomProbe.Yaml.Token.Directive`: the lines before a document

A directive begins with a percent sign in the first column. One names
the version of the format, the other says what a tag handle stands for.
No other directive is known.
-/

set_option autoImplicit false

namespace AtomProbe.Yaml.Directive

/-- The most digits that a part of a version number has. -/
def maximalDigits : Nat := 9

/-- Read a part of a version number. -/
def readNumber (c : Cursor) : Except Error (Nat × Cursor) :=
  let digits := c.rest.takeWhile fun x => (Decimal.digit? 10 x).isSome
  match Decimal.natural? 10 digits with
  | some n =>
    if digits.length ≤ maximalDigits then .ok (n, c.drop digits.length)
    else .error .malformedDirective
  | none => .error .malformedDirective

/-- Read a version number. -/
def readVersion (c : Cursor) : Except Error (Token × Cursor) := do
  let (major, c) ← readNumber (c.dropWhile isBlank)
  if c.rest.head? ≠ some '.' then throw .malformedDirective
  let (minor, c) ← readNumber (c.drop 1)
  return (.version major minor, c)

/-- Read a tag handle and what it stands for. -/
def readTag (c : Cursor) : Except Error (Token × Cursor) := do
  let c := c.dropWhile isBlank
  if c.rest.head? ≠ some '!' then throw .malformedDirective
  let (handle, c) := (Tag.readHandle? (c.drop 1)).getD ("!", c.drop 1)
  if !c.rest.head?.any isBlank then throw .malformedDirective
  let (expansion, c) ← Tag.readNonemptyPart Tag.flowChars (c.dropWhile isBlank)
  if !atGap c.rest then throw .malformedDirective
  return (.handle handle expansion, c)

/-- Read the directive whose percent sign stands here, with its line. -/
def read (c : Cursor) : Except Error (Token × Cursor) := do
  let c := c.drop 1
  let name := c.rest.takeWhile isWordChar
  let c := c.drop name.length
  if !atGap c.rest then throw .malformedDirective
  let (token, c) ←
    if name = ['Y', 'A', 'M', 'L'] then readVersion c
    else if name = ['T', 'A', 'G'] then readTag c
    else throw .malformedDirective
  return (token, ← c.endLine .malformedDirective)

end AtomProbe.Yaml.Directive
