import AtomProbe.Yaml.Tree.Scalar

/-!
# `AtomProbe.Yaml.Tree`: documents that are written

A tree holds texts, words that stand for something else than their text,
sequences, and mappings from texts. Its text is a document in block
style; only empty collections are written with brackets. The entries of
a sequence stand below the beginning of their key.
-/

set_option autoImplicit false

namespace AtomProbe.Yaml

/-- What a document is written from. -/
inductive Tree where
  | text (s : String)
  /-- A number, boolean or null, as it is written. -/
  | word (s : String)
  | sequence (items : List Tree)
  | mapping (pairs : List (String × Tree))
  deriving Repr

namespace Tree

/-- The longest text in bytes that is written before its colon. -/
def maximalKeySize : Nat := 128

/-- Whether a key is written before its colon in one line. -/
def isSimpleKey (key : String) : Bool :=
  key.utf8ByteSize ≤ maximalKeySize && !key.toList.any isBreak

/-- A text with the break that ends its line, unless it ends with one. -/
def endLine (cs : List Char) : List Char :=
  if cs.getLast?.any isBreak then cs else cs ++ ['\n']

/-- Lines that begin at a column, where the first of them goes on behind
an indicator. -/
def behindIndicator (column : Nat) (lines : List Char) : List Char :=
  ' ' :: lines.drop column

mutual

/-- What stands behind an indicator of a collection at the given column,
with the end of its last line. The indicator is a key with its colon,
or else a mark of a single character. -/
def write (column : Nat) (behindKey : Bool) : Tree → List Char
  | .word s => ' ' :: s.toList ++ ['\n']
  | .text s => ' ' :: endLine (scalar (column + step) s.toList)
  | .sequence [] => [' ', '[', ']', '\n']
  | .sequence (item :: items) =>
    -- behind a key the entries stand at its column, in lines of their own
    if behindKey then '\n' :: writeItems column (item :: items)
    else behindIndicator (column + step) (writeItems (column + step) (item :: items))
  | .mapping [] => [' ', '\x7b', '\x7d', '\n']
  | .mapping (pair :: pairs) =>
    if behindKey then '\n' :: writePairs (column + step) (pair :: pairs)
    else behindIndicator (column + step) (writePairs (column + step) (pair :: pairs))

/-- The entries of a sequence at a column. -/
def writeItems (column : Nat) : List Tree → List Char
  | [] => []
  | item :: items =>
    spaces column ++ '-' :: write column false item ++ writeItems column items

/-- The pairs of a mapping at a column. -/
def writePairs (column : Nat) : List (String × Tree) → List Char
  | [] => []
  | (key, value) :: pairs =>
    (if isSimpleKey key then
      spaces column ++ scalar (column + step) key.toList ++ ':' :: write column true value
    else
      spaces column ++ '?' :: ' ' :: endLine (scalar (column + step) key.toList) ++
        spaces column ++ ':' :: write column false value) ++
    writePairs column pairs

end

/-- The document of a mapping. -/
def document (pairs : List (String × Tree)) : String :=
  String.ofList (if pairs.isEmpty then ['\x7b', '\x7d', '\n'] else writePairs 0 pairs)

end Tree

end AtomProbe.Yaml
