import AtomProbe.Decimal.Digits
import AtomProbe.Yaml.Scalar.Gap

/-!
# `AtomProbe.Yaml.Scalar.Quoted`: scalars between quotes

Between single quotes only the quote itself is special: it is written
twice. Between double quotes a backslash begins an escape: a letter, a
character of two, four or eight hexadecimal digits, or a break, which
is then not part of the text.
-/

set_option autoImplicit false

namespace AtomProbe.Yaml.Quoted

/-- The single quote. -/
def single : Char := '\x27'

/-- The double quote. -/
def double : Char := '\x22'

/-- The character that a letter behind a backslash stands for. -/
def escape? : Char → Option Char
  | '0' => some '\x00'
  | 'a' => some '\x07'
  | 'b' => some '\x08'
  | 't' => some '\t'
  | '\t' => some '\t'
  | 'n' => some '\n'
  | 'v' => some '\x0b'
  | 'f' => some '\x0c'
  | 'r' => some '\r'
  | 'e' => some '\x1b'
  | ' ' => some ' '
  | '\x22' => some '\x22'
  | '/' => some '/'
  | '\\' => some '\\'
  | 'N' => some '\u0085'
  | '_' => some '\u00a0'
  | 'L' => some '\u2028'
  | 'P' => some '\u2029'
  | _ => none

/-- The number of digits that a letter behind a backslash asks for. -/
def escapeDigits? : Char → Option Nat
  | 'x' => some 2
  | 'u' => some 4
  | 'U' => some 8
  | _ => none

/-- The character with a code point, if there is one. -/
def charOfCode? (n : Nat) : Option Char :=
  if h : n.isValidChar then some (Char.ofNatAux n h) else none

/-- Where a reader stands inside of a scalar. -/
inductive Mode
  /-- In its text. -/
  | text
  /-- Behind a backslash. -/
  | escape
  /-- In an escape, with digits to come and the value so far. -/
  | digits (left value : Nat)
  deriving DecidableEq, Repr

/-- Read on inside of double quotes. -/
def scanDouble : (rest : List Char) → Position → Mode → Gap → (text : List Char) →
    Except Error Lexeme
  | [], _, _, _, _ => .error .unclosedQuotes
  | c :: cs, p, .digits left value, gap, text =>
    match Decimal.digit? 16 c with
    | none => .error .unknownEscape
    | some d =>
      if 1 < left then scanDouble cs (p.next c) (.digits (left - 1) (value * 16 + d)) gap text
      else
        match charOfCode? (value * 16 + d) with
        | none => .error .unknownEscape
        | some e => scanDouble cs (p.next c) .text .none (e :: text)
  | c :: cs, p, .escape, gap, text =>
    if isBreak c then scanDouble cs (p.nextLine) .text .escaped text
    else
      match escape? c, escapeDigits? c with
      | some e, _ => scanDouble cs (p.next c) .text .none (e :: text)
      | none, some n => scanDouble cs (p.next c) (.digits n 0) gap text
      | none, none => .error .unknownEscape
  | c :: cs, p, .text, gap, text =>
    if isBlank c then scanDouble cs (p.next c) .text (gap.addBlank c) text
    else if isBreak c then scanDouble cs (p.nextLine) .text (gap.addBreak c) text
    else if p.column == 0 && atDocumentMarker (c :: cs) then .error .markerInQuotes
    else
      let text := gap.text.reverse ++ text
      if c = double then .ok ⟨text.reverse, ⟨cs, p.next c⟩, false⟩
      -- a break that follows the backslash begins a gap of its own
      else if c = '\\' then scanDouble cs (p.next c) .escape .none text
      else scanDouble cs (p.next c) .text .none (c :: text)

/-- Read on inside of single quotes. -/
def scanSingle : (rest : List Char) → Position → Gap → (text : List Char) → Except Error Lexeme
  | [], _, _, _ => .error .unclosedQuotes
  | c :: cs, p, gap, text =>
    if isBlank c then scanSingle cs (p.next c) (gap.addBlank c) text
    else if isBreak c then scanSingle cs (p.nextLine) (gap.addBreak c) text
    else if p.column == 0 && atDocumentMarker (c :: cs) then .error .markerInQuotes
    else
      let text := gap.text.reverse ++ text
      if c = single then
        -- a quote that is written twice is a character of the text
        match cs with
        | '\x27' :: cs => scanSingle cs (p.advance [c, c]) .none (single :: text)
        | cs => .ok ⟨text.reverse, ⟨cs, p.next c⟩, false⟩
      else scanSingle cs (p.next c) .none (c :: text)

/-- Read the scalar whose opening quote stands here. -/
def read (c : Cursor) : Except Error Lexeme :=
  let inside := c.drop 1
  if c.rest.head? = some single then scanSingle inside.rest inside.position .none []
  else scanDouble inside.rest inside.position .text .none []

end AtomProbe.Yaml.Quoted
