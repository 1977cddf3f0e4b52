import AtomProbe.Yaml.Error
import AtomProbe.Yaml.Node

/-!
# `AtomProbe.Yaml.Node.Grammar`: the nodes that a list of tokens forms

Each function reads from the front of the tokens and gives back those
behind what it has read. A node may be left out in most places; then a
token that may follow it stands there, and the node is an empty scalar.
Recursion is bounded by a number of steps for which the number of the
tokens suffices.
-/

set_option autoImplicit false

namespace AtomProbe.Yaml.Grammar

/-- What the tag handles stand for. -/
abbrev Handles := List (String × Tag)

/-- The handles that need no directive. -/
def defaultHandles : Handles := [("!", .bang), ("!!", .ofString "tag:yaml.org,2002:")]

/-- The tag that is written with a handle. -/
def expand (handles : Handles) (handle : String) (suffix : Tag) : Except Error Tag :=
  if handle = "" then .ok suffix
  else
    match handles.lookup handle with
    | some expansion => .ok (expansion ++ suffix)
    | none => .error .undefinedHandle

/-- The anchor and the tag before a node, in either order. -/
def properties (handles : Handles) : List Token → Except Error (Properties × List Token)
  | .anchor name :: .tag handle suffix :: ts => do
    return (⟨some name, some (← expand handles handle suffix)⟩, ts)
  | .tag handle suffix :: .anchor name :: ts => do
    return (⟨some name, some (← expand handles handle suffix)⟩, ts)
  | .anchor name :: ts => .ok (⟨some name, none⟩, ts)
  | .tag handle suffix :: ts => do return (⟨none, some (← expand handles handle suffix)⟩, ts)
  | ts => .ok (.none, ts)

/-- Where a node stands. -/
inductive Place
  /-- In a flow collection. -/
  | flow
  /-- In a document or an entry of a block sequence. -/
  | block
  /-- In a block mapping, where the entries of a sequence need not be
  indented. -/
  | blockPair
  deriving DecidableEq, Repr

/-- The tokens that may follow an entry of an indented sequence. -/
def endsEntry : Token → Bool
  | .entry | .blockEnd => true
  | _ => false

/-- The tokens that may follow an entry of a sequence that is not
indented. -/
def endsBareEntry : Token → Bool
  | .entry | .key | .value | .blockEnd => true
  | _ => false

/-- The tokens that may follow a key or value of a block mapping. -/
def endsBlockPart : Token → Bool
  | .key | .value | .blockEnd => true
  | _ => false

/-- The tokens that may follow a key of a flow mapping. -/
def endsFlowKey : Token → Bool
  | .value | .comma | .flowMappingEnd => true
  | _ => false

/-- The tokens that may follow a value of a flow mapping. -/
def endsFlowValue : Token → Bool
  | .comma | .flowMappingEnd => true
  | _ => false

/-- The tokens that may follow a key of a pair in a flow sequence. -/
def endsPairKey : Token → Bool
  | .value | .comma | .flowSequenceEnd => true
  | _ => false

/-- The tokens that may follow a value of a pair in a flow sequence. -/
def endsPairValue : Token → Bool
  | .comma | .flowSequenceEnd => true
  | _ => false

/-- Skip the comma before an entry of a flow collection, unless it is
the first one. -/
def skipComma (isFirst : Bool) (ts : List Token) : Except Error (List Token) :=
  if isFirst then .ok ts
  else
    match ts with
    | .comma :: ts => .ok ts
    | _ => .error .unexpectedToken

mutual

/-- Read a node. -/
def node (handles : Handles) (place : Place) :
    Nat → List Token → Except Error (Node String × List Token)
  | 0, _ => .error .unexpectedToken
  | _ + 1, .alias name :: ts => .ok (.alias name, ts)
  | steps + 1, ts => do
    let (given, ts) ← properties handles ts
    let absent : Except Error (Node String × List Token) :=
      if given.isSome then .ok (.scalar given .plain "", ts) else .error .unexpectedToken
    match ts with
    | .scalar style text :: ts => return (.scalar given style text, ts)
    | .flowSequenceStart :: ts => do
      let (items, ts) ← flowItems handles true steps ts
      return (.sequence given items, ts)
    | .flowMappingStart :: ts => do
      let (pairs, ts) ← flowPairs handles true steps ts
      return (.mapping given pairs, ts)
    | .sequenceStart :: ts =>
      -- no block collection begins between brackets
      if place = .flow then absent
      else do
        let (items, ts) ← entries handles steps ts
        return (.sequence given items, ts)
    | .mappingStart :: ts =>
      if place = .flow then absent
      else do
        let (pairs, ts) ← blockPairs handles steps ts
        return (.mapping given pairs, ts)
    | .entry :: _ =>
      -- the entries stand at the column of the key, and no token ends them
      if place = .blockPair then do
        let (items, ts) ← bareEntries handles steps ts
        return (.sequence given items, ts)
      else absent
    | _ => absent

/-- Read a node that may be left out before a token that `ends` it. -/
def optional (handles : Handles) (place : Place) (ends : Token → Bool) :
    Nat → List Token → Except Error (Node String × List Token)
  | 0, _ => .error .unexpectedToken
  | steps + 1, ts =>
    if ts.head?.any ends then .ok (.missing, ts) else node handles place steps ts

/-- Read a value that may be left out with its colon. -/
def optionalValue (handles : Handles) (place : Place) (ends : Token → Bool) :
    Nat → List Token → Except Error (Node String × List Token)
  | 0, _ => .error .unexpectedToken
  | steps + 1, .value :: ts => optional handles place ends steps ts
  | _ + 1, ts => .ok (.missing, ts)

/-- Read the entries of an indented sequence and its end. -/
def entries (handles : Handles) : Nat → List Token → Except Error (List (Node String) × List Token)
  | steps + 1, .entry :: ts => do
    let (item, ts) ← optional handles .block endsEntry steps ts
    let (items, ts) ← entries handles steps ts
    return (item :: items, ts)
  | _ + 1, .blockEnd :: ts => .ok ([], ts)
  | _, _ => .error .unexpectedToken

/-- Read the entries of a sequence that is not indented. -/
def bareEntries (handles : Handles) :
    Nat → List Token → Except Error (List (Node String) × List Token)
  | 0, _ => .error .unexpectedToken
  | steps + 1, .entry :: ts => do
    let (item, ts) ← optional handles .block endsBareEntry steps ts
    let (items, ts) ← bareEntries handles steps ts
    return (item :: items, ts)
  | _ + 1, ts => .ok ([], ts)

/-- Read the pairs of a block mapping and its end. -/
def blockPairs (handles : Handles) :
    Nat → List Token → Except Error (List (Node String × Node String) × List Token)
  | steps + 1, .key :: ts => do
    let (key, ts) ← optional handles .blockPair endsBlockPart steps ts
    let (value, ts) ← optionalValue handles .blockPair endsBlockPart steps ts
    let (pairs, ts) ← blockPairs handles steps ts
    return ((key, value) :: pairs, ts)
  | _ + 1, .blockEnd :: ts => .ok ([], ts)
  | _, _ => .error .unexpectedToken

/-- Read the items of a flow sequence and its end. An item may be a
single pair without braces; if its key is left out, the token behind
the question mark is left out with it. -/
def flowItems (handles : Handles) (isFirst : Bool) :
    Nat → List Token → Except Error (List (Node String) × List Token)
  | 0, _ => .error .unexpectedToken
  | _ + 1, .flowSequenceEnd :: ts => .ok ([], ts)
  | steps + 1, ts => do
    let ts ← skipComma isFirst ts
    match ts with
    | .flowSequenceEnd :: ts => return ([], ts)
    | .key :: ts => do
      -- a pair without braces is a mapping of its own
      let (key, ts) ←
        if ts.head?.any endsPairKey then .ok (.missing, ts.tail) else node handles .flow steps ts
      let (value, ts) ← optionalValue handles .flow endsPairValue steps ts
      let (items, ts) ← flowItems handles false steps ts
      return (.mapping .none [(key, value)] :: items, ts)
    | ts => do
      let (item, ts) ← node handles .flow steps ts
      let (items, ts) ← flowItems handles false steps ts
      return (item :: items, ts)

/-- Read the pairs of a flow mapping and its end. A key without a
question mark and a colon has no value. -/
def flowPairs (handles : Handles) (isFirst : Bool) :
    Nat → List Token → Except Error (List (Node String × Node String) × List Token)
  | 0, _ => .error .unexpectedToken
  | _ + 1, .flowMappingEnd :: ts => .ok ([], ts)
  | steps + 1, ts => do
    let ts ← skipComma isFirst ts
    match ts with
    | .flowMappingEnd :: ts => return ([], ts)
    | .key :: ts => do
      let (key, ts) ← optional handles .flow endsFlowKey steps ts
      let (value, ts) ← optionalValue handles .flow endsFlowValue steps ts
      let (pairs, ts) ← flowPairs handles false steps ts
      return ((key, value) :: pairs, ts)
    | ts => do
      let (key, ts) ← node handles .flow steps ts
      let (pairs, ts) ← flowPairs handles false steps ts
      return ((key, .missing) :: pairs, ts)

end

/-- The tokens before the content of a document that has a beginning of
its own. -/
def beginsDocument : Token → Bool
  | .version .. | .handle .. | .documentStart => true
  | _ => false

/-- Read directives up to the beginning of their document. The version
may be given once, and each handle once. -/
def directives (hasVersion : Bool) (handles : Handles) :
    List Token → Except Error (Handles × List Token)
  | .version major minor :: ts =>
    if hasVersion || major != 1 || (minor != 1 && minor != 2) then .error .malformedDirective
    else directives true handles ts
  | .handle name expansion :: ts =>
    if (handles.lookup name).isSome then .error .malformedDirective
    else directives hasVersion ((name, expansion) :: handles) ts
  | .documentStart :: ts => .ok (handles ++ defaultHandles, ts)
  | _ => .error .unexpectedToken

/-- Read the content of a document that has a beginning of its own. -/
def content (handles : Handles) (steps : Nat) (ts : List Token) :
    Except Error (Node String × List Token) :=
  if ts.isEmpty || ts.head?.any fun t => beginsDocument t || t == .documentEnd then
    .ok (.missing, ts)
  else node handles .block steps ts

end Grammar

/-- The node that the tokens of a stream form. A stream holds at most
one document; without a document it is an empty scalar. -/
def Node.ofTokens (ts : List Token) : Except Error (Node String) := do
  -- a token takes at most three steps: an entry, its part and the node
  let steps := 3 * ts.length + 3
  let (node, rest) ←
    if ts.isEmpty then .ok (.missing, ts)
    else if ts.head?.any Grammar.beginsDocument then do
      let (handles, ts) ← Grammar.directives false [] ts
      Grammar.content handles steps ts
    else Grammar.node Grammar.defaultHandles .block steps ts
  if (rest.dropWhile (· == .documentEnd)).isEmpty then return node
  else throw .moreThanOneDocument

end AtomProbe.Yaml
