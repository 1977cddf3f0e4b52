import AtomProbe.Yaml.Character
import AtomProbe.Yaml.Scalar.Quoted
import AtomProbe.Yaml.Schema
import AtomProbe.Yaml.Token

/-!
# `AtomProbe.Yaml.Tree.Scalar`: how a text is written

A text is written without quotes where a reader takes it for the same
text, and else between single quotes. A text with a line feed is
written as a literal scalar. Where neither can hold it, it stands
between double quotes with escapes. Lines are never folded.
-/

set_option autoImplicit false

namespace AtomProbe.Yaml.Tree

/-- How far the lines of a scalar and of a nested collection are
indented. -/
def step : Nat := 2

/-- Blanks up to a column. -/
def spaces (column : Nat) : List Char := List.replicate column ' '

/-! ### The choice of a style -/

/-- Whether a character satisfying `p` is directly followed by one
satisfying `q`. -/
def hasPair (p q : Char → Bool) : List Char → Bool
  | c :: d :: cs => (p c && q d) || hasPair p q (d :: cs)
  | _ => false

/-- Whether the character is a space. -/
def isSpace (c : Char) : Bool := c == ' '

/-- The characters that cannot begin a plain scalar. -/
def firstIndicators : List Char :=
  ['#', ',', '[', ']', '\x7b', '\x7d', '&', '*', '!', '|', '>', '\x27', '\x22', '%', '@', '\x60']

/-- Whether the first characters mean something else than a scalar. -/
def beginsIndicator : List Char → Bool
  | '-' :: '-' :: '-' :: _ => true
  | '.' :: '.' :: '.' :: _ => true
  | c :: cs => firstIndicators.contains c || (['?', ':', '-'].contains c && atGap cs)
  | [] => false

/-- Whether the text holds a colon before a gap, or a hash behind one. -/
def hasIndicator (cs : List Char) : Bool :=
  hasPair (· == ':') isGap cs || cs.getLast? == some ':' || hasPair isGap (· == '#') cs

/-- Whether the text may stand between single quotes: its characters are
visible, and no space touches a break. -/
def admitsSingle (cs : List Char) : Bool :=
  cs.all isPrintable && !hasPair isSpace isBreak cs && !hasPair isBreak isSpace cs

/-- Whether the text may be written as a literal scalar. -/
def admitsLiteral (cs : List Char) : Bool :=
  cs.all isPrintable && !hasPair isSpace isBreak cs && cs.getLast? != some ' '

/-- Whether the text may stand without quotes. -/
def admitsPlain (cs : List Char) : Bool :=
  cs.all (fun c => isPrintable c && !isBreak c) &&
    cs.head? != some ' ' && cs.getLast? != some ' ' &&
    !beginsIndicator cs && !hasIndicator cs

/-- Whether a reader takes the text without quotes for a text. -/
def readsAsText (cs : List Char) : Bool :=
  !Schema.hasLeadingZero cs && Schema.resolve (String.ofList cs) matches .ok (.text _)

/-- The style in which a text is written. -/
def styleOf (cs : List Char) : ScalarStyle :=
  -- a text of several lines is literal wherever it can be
  if cs.contains '\n' then
    if admitsLiteral cs then .literal else .doubleQuoted
  else if readsAsText cs && admitsPlain cs then .plain
  else if admitsSingle cs then .singleQuoted
  else .doubleQuoted

/-! ### The text in each style -/

/-- The hexadecimal digits of `n` up to the given width, with capital
letters. -/
def hexDigits (width n : Nat) : List Char :=
  let digits := (Nat.toDigits 16 n).map Char.toUpper
  List.replicate (width - digits.length) '0' ++ digits

/-- A character as an escape. -/
def escape (c : Char) : List Char :=
  '\\' ::
    match c with
    | '\x00' => ['0']
    | '\x07' => ['a']
    | '\x08' => ['b']
    | '\t' => ['t']
    | '\n' => ['n']
    | '\x0b' => ['v']
    | '\x0c' => ['f']
    | '\r' => ['r']
    | '\x1b' => ['e']
    | '\x22' => ['\x22']
    | '\\' => ['\\']
    | '\u0085' => ['N']
    | '\u2028' => ['L']
    | '\u2029' => ['P']
    | c =>
      if c.toNat ≤ 0xFF then 'x' :: hexDigits 2 c.toNat
      else if c.toNat ≤ 0xFFFF then 'u' :: hexDigits 4 c.toNat
      else 'U' :: hexDigits 8 c.toNat

/-- Whether a character stands for itself between double quotes. -/
def isDirect (c : Char) : Bool :=
  isPrintable c && !isBreak c && c != Quoted.double && c != '\\'

/-- The text between double quotes. -/
def doubleQuoted (cs : List Char) : List Char :=
  Quoted.double :: cs.flatMap (fun c => if isDirect c then [c] else escape c) ++ [Quoted.double]

/-- The rest of a text and its closing single quote. A line behind a
break is indented. A line feed is doubled, since a reader drops one. -/
def singleQuotedRest (indent : Nat) (behindBreak : Bool) : List Char → List Char
  | [] => (if behindBreak then spaces indent else []) ++ [Quoted.single]
  | c :: cs =>
    if isBreak c then
      (if c = '\n' ∧ ¬ behindBreak then ['\n', '\n'] else [c]) ++ singleQuotedRest indent true cs
    else
      (if behindBreak then spaces indent else []) ++
        (if c = Quoted.single then [c, c] else [c]) ++ singleQuotedRest indent false cs

/-- The text between single quotes. -/
def singleQuoted (indent : Nat) (cs : List Char) : List Char :=
  Quoted.single :: singleQuotedRest indent false cs

/-- The indicators behind the bar of a literal scalar: the indentation,
if a reader could not see it, and what happens to the breaks at the
end. -/
def literalHints (cs : List Char) : List Char :=
  (if cs.head?.any fun c => c == ' ' || isBreak c then Nat.toDigits 10 step else []) ++
    match cs.reverse with
    | [] => ['-']
    | last :: before =>
      if !isBreak last then ['-']
      else if before.head?.all isBreak then ['+']
      else []

/-- The lines of a literal scalar. A line that is not empty is indented. -/
def literalLines (indent : Nat) (atStart : Bool) : List Char → List Char
  | [] => []
  | c :: cs =>
    if isBreak c then c :: literalLines indent true cs
    else (if atStart then spaces indent else []) ++ c :: literalLines indent false cs

/-- The text as a literal scalar. -/
def literal (indent : Nat) (cs : List Char) : List Char :=
  '|' :: literalHints cs ++ '\n' :: literalLines indent true cs

/-- A text, with its further lines indented to a column. -/
def scalar (indent : Nat) (cs : List Char) : List Char :=
  match styleOf cs with
  | .plain => cs
  | .singleQuoted => singleQuoted indent cs
  | .literal => literal indent cs
  | _ => doubleQuoted cs

end AtomProbe.Yaml.Tree
