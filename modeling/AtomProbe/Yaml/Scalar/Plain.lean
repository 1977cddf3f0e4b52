import AtomProbe.Yaml.Scalar.Gap

/-!
# `AtomProbe.Yaml.Scalar.Plain`: scalars without quotes

A plain scalar ends before a colon that a gap follows, before a comment
and before a document marker. In a block it also ends at a line that is
not indented enough, in a flow collection at a bracket or a comma. The
gap at its end does not belong to it, but is skipped.
-/

set_option autoImplicit false

namespace AtomProbe.Yaml.Plain

/-- The characters that end a plain scalar in a flow collection. -/
def flowEnds : List Char := [',', '[', ']', '{', '}']

/-- The characters that may not follow a colon there. -/
def flowColonEnds : List Char := [',', '?', '[', ']', '{', '}']

/-- Whether the scalar ended before the gap, judged by the character `c`
behind it and the rest after that. -/
def endedBefore (inFlow : Bool) (leastColumn : Int) (column : Nat) (gap : Gap) (c : Char)
    (rest : List Char) : Bool :=
  gap.isSome && (c == '#' || (column == 0 && atDocumentMarker (c :: rest)) ||
    (gap.startsLine && !inFlow && decide ((column : Int) < leastColumn)))

/-- Whether the scalar ends at the character `c`, which the rest
follows. -/
def endsAt (inFlow : Bool) (c : Char) (rest : List Char) : Bool :=
  (c == ':' && atGap rest) || (inFlow && flowEnds.contains c)

/-- Read on from a place inside of a scalar. `gap` is what lies behind
the last word, `text` what has been read, both the latest first. -/
def scan (inFlow : Bool) (leastColumn : Int) :
    (rest : List Char) → Position → Gap → (text : List Char) → Except Error Lexeme
  | [], p, gap, text => .ok ⟨text.reverse, ⟨[], p⟩, gap.startsLine⟩
  | c :: cs, p, gap, text =>
    -- blanks and breaks are held back until a word follows them
    if isBlank c then
      if c = '\t' ∧ gap.startsLine ∧ (p.column : Int) < leastColumn then .error .tabInIndentation
      else scan inFlow leastColumn cs (p.next c) (gap.addBlank c) text
    else if isBreak c then scan inFlow leastColumn cs p.nextLine (gap.addBreak c) text
    else if endedBefore inFlow leastColumn p.column gap c cs then
      .ok ⟨text.reverse, ⟨c :: cs, p⟩, gap.startsLine⟩
    -- before an indicator a colon neither ends the word nor belongs to it
    else if inFlow && c == ':' && cs.head?.any flowColonEnds.contains then .error .colonInFlow
    else if endsAt inFlow c cs then .ok ⟨text.reverse, ⟨c :: cs, p⟩, gap.startsLine⟩
    else scan inFlow leastColumn cs (p.next c) .none (c :: gap.text.reverse ++ text)

/-- Read the plain scalar that begins here. -/
def read (inFlow : Bool) (leastColumn : Int) (c : Cursor) : Except Error Lexeme :=
  scan inFlow leastColumn c.rest c.position .none []

end AtomProbe.Yaml.Plain
