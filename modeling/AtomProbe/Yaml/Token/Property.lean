import AtomProbe.Yaml.Cursor
import AtomProbe.Yaml.Token

/-!
# `AtomProbe.Yaml.Token.Property`: anchors, aliases and tags

A node may carry a name that aliases repeat, and a tag that says of
what type it is. A tag is written with a handle, `!`, `!!` or a word
between bangs, which stands for the beginning of the tag.
-/

set_option autoImplicit false

namespace AtomProbe.Yaml

namespace Anchor

/-- The characters that may follow an anchor without a gap. -/
def ends : List Char := ['?', ':', ',', ']', '}', '%', '@', '\x60']

/-- Read the name of an anchor or alias, which begins here. -/
def read (c : Cursor) : Except Error (String × Cursor) :=
  let name := c.rest.takeWhile isWordChar
  let c := c.drop name.length
  if name.isEmpty || !(atGap c.rest || c.rest.head?.any ends.contains) then
    .error .malformedAnchor
  else .ok (String.ofList name, c)

end Anchor

namespace Tag

/-- Read the characters of a tag from here on, of which `more` are
admitted besides the usual ones. -/
def readPart (more : List Char) (c : Cursor) : Except Error (Tag × Cursor) :=
  let part := c.rest.takeWhile fun x => isTagChar x || x == '%' || more.contains x
  match ofChars? part with
  | some tag => .ok (tag, c.drop part.length)
  | none => .error .malformedTag

/-- Read the characters of a tag, of which there must be some. -/
def readNonemptyPart (more : List Char) (c : Cursor) : Except Error (Tag × Cursor) := do
  let (tag, behind) ← readPart more c
  -- an escaped zero byte is written, but leaves nothing of the tag
  if behind.position = c.position then throw .malformedTag
  return (tag, behind)

/-- The characters that only a whole tag admits. -/
def flowChars : List Char := [',', '[', ']']

/-- Read the handle that begins here, behind its first bang, if a
second bang ends it. -/
def readHandle? (c : Cursor) : Option (String × Cursor) :=
  let word := c.rest.takeWhile isWordChar
  match c.rest.drop word.length with
  | '!' :: _ => some (String.ofList ('!' :: word ++ ['!']), c.drop (word.length + 1))
  | _ => none

/-- Read the tag whose first bang stands here: its handle and what
follows it. A tag without a handle and a lone bang have the empty
handle. -/
def read (inFlow : Bool) (c : Cursor) : Except Error (Token × Cursor) := do
  let inside := c.drop 1
  let (token, c) ←
    if inside.rest.head? = some '<' then do
      let (suffix, c) ← readNonemptyPart flowChars (inside.drop 1)
      if c.rest.head? = some '>' then pure (Token.tag "" suffix, c.drop 1)
      else throw .malformedTag
    else
      match readHandle? inside with
      | some (handle, c) => do
        let (suffix, c) ← readNonemptyPart [] c
        pure (.tag handle suffix, c)
      | none => do
        let (suffix, c) ← readPart [] inside
        pure (if suffix.isEmpty then .tag "" bang else .tag "!" suffix, c)
  if atGap c.rest || (inFlow && c.rest.head? == some ',') then return (token, c)
  else throw .malformedTag

end Tag

end AtomProbe.Yaml
