import AtomProbe.Decimal.Digits

/-!
# `AtomProbe.Yaml.Tag`: what a document says of the type of a node

A tag is given by bytes. Most of them stand for themselves, and any may
be written as an escape, a percent sign with two hexadecimal digits.
The bytes must follow each other like those of UTF-8, where the first
byte of a character says how many more belong to it. But they need not
be a text: a character may be written with more bytes than it needs, or
be none at all. A tag ends before its first zero byte.
-/

set_option autoImplicit false

namespace AtomProbe.Yaml

/-- A tag, or a part of it. -/
structure Tag where
  bytes : List UInt8
  deriving DecidableEq, Repr

namespace Tag

/-- The tag that a text is. -/
def ofString (text : String) : Tag := ⟨text.toUTF8.data.toList⟩

/-- The text that a tag is, if its bytes are those of a text. -/
def text? (tag : Tag) : Option String := String.fromUTF8? ⟨tag.bytes.toArray⟩

/-- Whether nothing is left of a part of a tag. -/
def isEmpty (tag : Tag) : Bool := tag.bytes.isEmpty

/-- A part of a tag and the part behind it. -/
def append (first second : Tag) : Tag := ⟨first.bytes ++ second.bytes⟩

instance : Append Tag := ⟨append⟩

/-- The lone bang, which is the whole of a tag or begins one. -/
def bang : Tag := ofString "!"

/-- Whether the tag is local to its document, as one that begins with a
bang is. -/
def isLocal (tag : Tag) : Bool := bang.bytes.isPrefixOf tag.bytes

/-! ### Escapes -/

/-- How many bytes belong to a character besides its first byte, if the
given byte can be the first. -/
def laterBytes? (first : UInt8) : Option Nat :=
  if first < 0x80 then some 0
  else if first < 0xC0 then none
  else if first < 0xE0 then some 1
  else if first < 0xF0 then some 2
  else if first < 0xF8 then some 3
  else none

/-- How many bytes of a character are left behind the given byte, if it
may stand where `left` of them are. -/
def bytesLeft? (left : Nat) (byte : UInt8) : Option Nat :=
  match left with
  | 0 => laterBytes? byte
  | left + 1 => if 0x80 ≤ byte ∧ byte < 0xC0 then some left else none

/-- The bytes that characters of a tag stand for, where `left` bytes of
a character must come first. Only escapes can write these. -/
def bytes? : (left : Nat) → List Char → Option (List UInt8)
  | 0, [] => some []
  | left, '%' :: a :: b :: cs => do
    let byte := UInt8.ofNat (16 * (← Decimal.digit? 16 a) + (← Decimal.digit? 16 b))
    return byte :: (← bytes? (← bytesLeft? left byte) cs)
  | 0, c :: cs => if c = '%' then none else (bytes? 0 cs).map (UInt8.ofNat c.toNat :: ·)
  | _ + 1, _ => none

/-- The part of a tag that characters stand for. -/
def ofChars? (cs : List Char) : Option Tag :=
  (bytes? 0 cs).map fun bytes => ⟨bytes.takeWhile (· != 0)⟩

end Tag

end AtomProbe.Yaml
