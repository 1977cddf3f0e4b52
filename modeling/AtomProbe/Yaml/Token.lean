import AtomProbe.Yaml.Tag

/-!
# `AtomProbe.Yaml.Token`: the words of a document

A document is read in two steps. The first finds its tokens: scalars,
anchors, aliases, tags, the brackets of flow collections, and the
beginning and end of block collections, which the indentation gives.
The second builds the nodes. The end of the list is the end of the
stream.
-/

set_option autoImplicit false

namespace AtomProbe.Yaml

/-- How a scalar is written. -/
inductive ScalarStyle
  | plain
  | singleQuoted
  | doubleQuoted
  | literal
  | folded
  deriving DecidableEq, Repr

/-- A token. -/
inductive Token
  /-- A directive that names the version of the format. -/
  | version (major minor : Nat)
  /-- A directive that says what a tag handle stands for. -/
  | handle (name : String) (expansion : Tag)
  | documentStart
  | documentEnd
  | sequenceStart
  | mappingStart
  | blockEnd
  | flowSequenceStart
  | flowSequenceEnd
  | flowMappingStart
  | flowMappingEnd
  | entry
  | comma
  | key
  | value
  | anchor (name : String)
  | alias (name : String)
  /-- A tag as written: its handle and what follows the handle. -/
  | tag (handle : String) (suffix : Tag)
  | scalar (style : ScalarStyle) (text : String)
  deriving DecidableEq, Repr

end AtomProbe.Yaml
