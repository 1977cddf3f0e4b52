/-!
# `AtomProbe.Yaml.Error`: why a document is refused
-/

set_option autoImplicit false

namespace AtomProbe.Yaml

/-- The causes for which a document is refused. -/
inductive Error
  /-- A control character or another character outside of the format. -/
  | characterNotAllowed
  /-- No token can begin with the character. -/
  | noToken
  /-- A block sequence entry where none may stand. -/
  | entryNotAllowed
  /-- A mapping key where none may stand. -/
  | keyNotAllowed
  /-- A mapping value where none may stand. -/
  | valueNotAllowed
  /-- A text in key position that no colon follows. -/
  | missingColon
  /-- An anchor or alias without a name, or with more than a name. -/
  | malformedAnchor
  /-- A tag that breaks the rules for tags. -/
  | malformedTag
  /-- A tag whose handle no directive declares. -/
  | undefinedHandle
  /-- A directive that is unknown, malformed, repeated or misplaced. -/
  | malformedDirective
  /-- A header of a block scalar with something else in it. -/
  | malformedBlockHeader
  /-- A tab where the indentation asks for spaces. -/
  | tabInIndentation
  /-- A document marker inside of a quoted scalar. -/
  | markerInQuotes
  /-- A quoted scalar without its closing quote. -/
  | unclosedQuotes
  /-- A backslash with a character that is no escape. -/
  | unknownEscape
  /-- A colon before a flow indicator inside of a plain scalar. -/
  | colonInFlow
  /-- A token other than those that may follow. -/
  | unexpectedToken
  /-- An alias to a name that no node carries. -/
  | unknownAnchor
  /-- A key that a mapping holds twice. -/
  | duplicateKey
  /-- Collections nested beyond the limit. -/
  | nestedTooDeep
  /-- Aliases followed beyond the limit. -/
  | repetitionLimit
  /-- A scalar that its tag or its place does not admit. -/
  | invalidScalar
  /-- A whole number beyond 64 bits. -/
  | integerOutOfRange
  /-- A node of another kind than its place asks for. -/
  | invalidKind
  /-- A field that a record must hold. -/
  | missingField (name : String)
  /-- More than one document. -/
  | moreThanOneDocument
  deriving DecidableEq, Repr

/-- The wording of an error. -/
def Error.message : Error → String
  | .characterNotAllowed => "control characters are not allowed"
  | .noToken => "found character that cannot start any token"
  | .entryNotAllowed => "block sequence entries are not allowed in this context"
  | .keyNotAllowed => "mapping keys are not allowed in this context"
  | .valueNotAllowed => "mapping values are not allowed in this context"
  | .missingColon => "could not find expected ':'"
  | .malformedAnchor => "did not find expected alphabetic or numeric character"
  | .malformedTag => "did not find expected tag"
  | .undefinedHandle => "found undefined tag handle"
  | .malformedDirective => "found malformed directive"
  | .malformedBlockHeader => "did not find expected comment or line break"
  | .tabInIndentation => "found a tab character that violates indentation"
  | .markerInQuotes => "found unexpected document indicator"
  | .unclosedQuotes => "found unexpected end of stream"
  | .unknownEscape => "found unknown escape character"
  | .colonInFlow => "found unexpected ':'"
  | .unexpectedToken => "did not find expected node content"
  | .unknownAnchor => "unknown anchor"
  | .duplicateKey => "duplicate entry in mapping"
  | .nestedTooDeep => "recursion limit exceeded"
  | .repetitionLimit => "repetition limit exceeded"
  | .invalidScalar => "invalid value"
  | .integerOutOfRange => "integer out of range"
  | .invalidKind => "invalid type"
  | .missingField name => "missing field " ++ name
  | .moreThanOneDocument => "more than one document in the stream"

end AtomProbe.Yaml
