import AtomProbe.Yaml.Scalar.Gap
import AtomProbe.Yaml.Tree.Scalar

/-!
# `AtomProbe.Proofs.Yaml.Cursor`: places behind a written text

A reader that passes a text moves to the place behind it. Within one
line that is `Position.advance`; `Position.through` is the same for a
text that may hold breaks. What a text is written for follows at the
beginning of a line, indented by spaces (`Follows`). The spaces inside
of a line are held back until a word follows them (`Gap.ofBlanks`).
-/

set_option autoImplicit false

namespace AtomProbe.Yaml

namespace Position

/-- Behind more characters, of which some may be breaks. -/
def through (p : Position) (cs : List Char) : Position :=
  cs.foldl (fun p c => if isBreak c then p.nextLine else p.next c) p

@[simp] theorem through_nil (p : Position) : p.through [] = p := rfl

theorem through_cons (p : Position) (c : Char) (cs : List Char) :
    p.through (c :: cs) = (if isBreak c then p.nextLine else p.next c).through cs := rfl

theorem through_append (p : Position) (cs ds : List Char) :
    p.through (cs ++ ds) = (p.through cs).through ds := by
  simp [through]

/-- The number of bytes of a text. -/
def bytes : List Char → Nat
  | [] => 0
  | c :: cs => c.utf8Size + bytes cs

@[simp] theorem bytes_nil : bytes [] = 0 := rfl

@[simp] theorem bytes_cons (c : Char) (cs : List Char) :
    bytes (c :: cs) = c.utf8Size + bytes cs := rfl

@[simp] theorem bytes_append (cs ds : List Char) : bytes (cs ++ ds) = bytes cs + bytes ds := by
  induction cs with
  | nil => simp
  | cons c cs ih =>
    rw [List.cons_append, bytes_cons, bytes_cons, ih]
    omega

theorem bytes_toList (s : String) : bytes s.toList = s.utf8ByteSize := by
  have hlist (cs : List Char) : cs.utf8Encode.size = bytes cs := by
    induction cs with
    | nil => rfl
    | cons c cs ih =>
      rw [List.utf8Encode_cons, ByteArray.size_append, ih, bytes_cons]
      simp [List.utf8Encode_singleton]
  rw [← hlist, ← String.toByteArray_ofList, String.ofList_toList]
  rfl

/-- Within one line the columns are counted in characters, and the
offsets in bytes. -/
theorem advance_eq (p : Position) (cs : List Char) :
    p.advance cs = ⟨p.line, p.column + cs.length, p.offset + bytes cs⟩ := by
  induction cs generalizing p with
  | nil => rfl
  | cons c cs ih =>
    have hstep : p.advance (c :: cs) = (p.next c).advance cs := rfl
    rw [hstep, ih]
    simp [next]
    omega

theorem advance_append (p : Position) (cs ds : List Char) :
    p.advance (cs ++ ds) = (p.advance cs).advance ds := by
  simp [advance]

/-- Passing characters never leads to an earlier line. -/
theorem line_le_through (p : Position) (cs : List Char) : p.line ≤ (p.through cs).line := by
  induction cs generalizing p with
  | nil => exact Nat.le_refl _
  | cons c cs ih =>
    rw [through_cons]
    refine Nat.le_trans ?_ (ih _)
    split
    · exact Nat.le_succ _
    · exact Nat.le_refl _

/-- A text without breaks is passed within one line. -/
theorem through_eq_advance {cs : List Char} (h : ∀ c ∈ cs, isBreak c = false) (p : Position) :
    p.through cs = p.advance cs := by
  induction cs generalizing p with
  | nil => rfl
  | cons c cs ih =>
    rw [through_cons, h c List.mem_cons_self]
    exact ih (fun d hd => h d (List.mem_cons_of_mem _ hd)) _

end Position

open Yaml.Tree (spaces)

theorem spaces_succ (n : Nat) : spaces (n + 1) = ' ' :: spaces n := rfl

theorem Position.through_spaces (p : Position) (n : Nat) :
    p.through (spaces n) = ⟨p.line, p.column + n, p.offset + n⟩ := by
  have hbytes : bytes (spaces n) = n := by
    induction n with
    | zero => rfl
    | succ n ih =>
      have hsize : Char.utf8Size ' ' = 1 := by decide
      rw [spaces_succ, bytes_cons, ih, hsize]
      omega
  have hbreak : ∀ c ∈ spaces n, isBreak c = false := by simp [spaces, isBreak]
  rw [through_eq_advance hbreak, advance_eq, hbytes]
  simp [spaces]

theorem Tree.hasPair_cons (p q : Char → Bool) (c : Char) (cs : List Char) :
    hasPair p q (c :: cs) = ((p c && cs.head?.any q) || hasPair p q cs) := by
  cases cs with
  | nil => simp [hasPair]
  | cons d ds => rfl

theorem Tree.hasPair_of_cons {p q : Char → Bool} {c : Char} {cs : List Char}
    (h : hasPair p q (c :: cs) = false) :
    (p c = true → cs.head?.any q = false) ∧ hasPair p q cs = false := by
  rw [hasPair_cons, Bool.or_eq_false_iff] at h
  refine ⟨fun hc => ?_, h.2⟩
  simpa [hc] using h.1

/-- Whether a token may begin with the character, so that it is not
passed over as a gap or a comment. -/
def startsToken (c : Char) : Bool :=
  !isGap c && c != '#' && c != byteOrderMark

/-- A visible character of a single byte. -/
def IsNarrow (c : Char) : Prop :=
  isPrintable c = true ∧ isBreak c = false ∧ c.utf8Size = 1

instance (c : Char) : Decidable (IsNarrow c) := inferInstanceAs (Decidable (_ ∧ _ ∧ _))

theorem isBlank_of_isBreak {c : Char} (h : isBreak c = true) : isBlank c = false := by
  simp only [isBreak, Bool.or_eq_true, beq_iff_eq] at h
  rcases h with (((rfl | rfl) | rfl) | rfl) | rfl <;> decide

/-- The only blank that a writer leaves as it is is the space. -/
theorem isBlank_of_isPrintable {c : Char} (h : isPrintable c = true) (hc : c ≠ ' ') :
    isBlank c = false := by
  have htab : c ≠ '\t' := by
    rintro rfl
    exact absurd h (by decide)
  simp [isBlank, hc, htab]

/-- What stands behind the end of a line: a token in a line that is
indented by `n` columns, or the end of the document. -/
def Follows (n : Nat) (rest : List Char) : Prop :=
  ∃ more, rest = spaces n ++ more ∧ ∀ c ∈ more.head?, startsToken c = true

theorem follows_nil : Follows 0 [] := ⟨[], rfl, by simp⟩

theorem follows_cons (n : Nat) {c : Char} (hc : startsToken c = true) (cs : List Char) :
    Follows n (spaces n ++ c :: cs) :=
  ⟨c :: cs, rfl, by simpa using hc⟩

theorem isBlank_of_startsToken {c : Char} (h : startsToken c = true) : isBlank c = false := by
  simp only [startsToken, isGap, Bool.and_eq_true, Bool.not_eq_true', Bool.or_eq_false_iff] at h
  exact h.1.1.1

theorem isBreak_of_startsToken {c : Char} (h : startsToken c = true) : isBreak c = false := by
  simp only [startsToken, isGap, Bool.and_eq_true, Bool.not_eq_true', Bool.or_eq_false_iff] at h
  exact h.1.1.2

namespace Gap

/-- Spaces inside of a line, the latest first. -/
def ofBlanks (blanks : List Char) : Gap := ⟨blanks, [], false⟩

theorem ofBlanks_nil : ofBlanks [] = .none := rfl

theorem addBlank_ofBlanks (blanks : List Char) (c : Char) :
    (ofBlanks blanks).addBlank c = ofBlanks (c :: blanks) := rfl

@[simp] theorem text_ofBlanks (blanks : List Char) :
    (ofBlanks blanks).text = blanks.reverse := rfl

theorem startsLine_ofBlanks (blanks : List Char) : (ofBlanks blanks).startsLine = false := rfl

end Gap

end AtomProbe.Yaml
