import AtomProbe.Text.Lower
import Mathlib.Data.List.Forall2

/-!
# `AtomProbe.Proofs.Text.Lower`: words in letters of either case

Many characters have an ASCII letter as their small letter, and two of
them are no ASCII letters: the Kelvin sign, and the capital `İ`. A word
without `k` and `i` is read from its own letters alone, each of them
capital or small.

* `mem_smallLetters`: the small letters beyond ASCII.
* `lowerChars_eq_iff`: the texts that are a word in small letters.
-/

set_option autoImplicit false

namespace AtomProbe.Text

/-- Whether a character is the given small letter or its capital. -/
def SameLetter (c small : Char) : Prop := c = small ∨ c = small.toUpper

/-- The ASCII characters that are the small letter of no character beyond
ASCII, and are no capital letters. -/
structure IsPlain (d : Char) : Prop where
  ascii : d.toNat < 128
  small : d.isUpper = false
  noDot : d ≠ 'i'
  noKelvin : d ≠ 'k'

instance (d : Char) : Decidable (IsPlain d) :=
  decidable_of_iff (d.toNat < 128 ∧ d.isUpper = false ∧ d ≠ 'i' ∧ d ≠ 'k')
    ⟨fun ⟨ha, hs, hi, hk⟩ => ⟨ha, hs, hi, hk⟩, fun ⟨ha, hs, hi, hk⟩ => ⟨ha, hs, hi, hk⟩⟩

/-- What holds of the first 128 characters holds of each of them. -/
theorem of_ascii {p : Char → Prop} (h : ∀ n < 128, p (Char.ofNat n)) {c : Char}
    (hc : c.toNat < 128) : p c :=
  Char.ofNat_toNat c ▸ h c.toNat hc

/-! ### Small letters of one character -/

theorem smallLetters_ne_nil (c : Char) : smallLetters c ≠ [] := by
  rw [smallLetters]
  split
  · exact List.cons_ne_nil _ _
  · split
    · exact List.cons_ne_nil _ _
    · exact List.cons_ne_nil _ _

/-- The ASCII letters are those that the core library knows. -/
theorem smallLetters_of_ascii {c : Char} (hc : c.toNat < 128) : smallLetters c = [c.toLower] :=
  of_ascii (p := fun c => smallLetters c = [c.toLower]) (by decide +kernel) hc

/-- Where the small letters of capitals beyond ASCII lie. -/
theorem small_of_mem_capitalRuns : ∀ run ∈ capitalRuns, 128 ≤ run.last →
    run.first = run.last ∧ run.small = 'k'.toNat ∨
      128 ≤ run.small ∧ (run.small + (run.last - run.first) < 0xd800 ∨
        0xdfff < run.small ∧ run.small + (run.last - run.first) < 0x110000) := by
  decide +kernel

/-- No small letter of a character beyond ASCII is an ASCII character, but
for two. -/
theorem mem_smallLetters {c d : Char} (hc : 128 ≤ c.toNat) (h : d ∈ smallLetters c) :
    128 ≤ d.toNat ∨ d = 'i' ∨ d = 'k' := by
  rw [smallLetters] at h
  split at h
  · rcases List.mem_cons.1 h with rfl | h
    · exact .inr (.inl rfl)
    · rw [List.mem_singleton.1 h]
      exact .inl (by decide)
  · split at h
    · next run hfind =>
      have hcovers := List.find?_some hfind
      simp only [CapitalRun.covers, Bool.and_eq_true, decide_eq_true_eq] at hcovers
      obtain ⟨⟨hfirst, hlast⟩, -⟩ := hcovers
      rw [List.mem_singleton.1 h]
      -- of the runs, only the Kelvin sign has a small form in ASCII
      rcases small_of_mem_capitalRuns run (List.mem_of_find?_eq_some hfind) (by omega) with
        ⟨hsingle, hkelvin⟩ | ⟨hsmall, hvalid⟩
      · have hzero : c.toNat - run.first = 0 := by omega
        rw [hkelvin, hzero]
        exact .inr (.inr rfl)
      · have hchar : (run.small + (c.toNat - run.first)).isValidChar := by
          rw [Nat.isValidChar]
          omega
        rw [Char.ofNat, dif_pos hchar]
        exact .inl (show 128 ≤ run.small + (c.toNat - run.first) by omega)
    · rw [List.mem_singleton.1 h]
      exact .inl hc

/-! ### Words -/

/-- A character in front of others has a plain character as its small
letter if it is the same letter. -/
theorem smallLetters_append_eq_cons_iff {c d : Char} (hd : IsPlain d) {rest ds : List Char} :
    smallLetters c ++ rest = d :: ds ↔ SameLetter c d ∧ rest = ds := by
  by_cases hc : c.toNat < 128
  · rw [smallLetters_of_ascii hc, List.singleton_append, List.cons.injEq]
    refine and_congr_left fun _ => ⟨?_, ?_⟩
    · rintro rfl
      exact of_ascii (p := fun c => c = c.toLower ∨ c = c.toLower.toUpper) (by decide) hc
    · have hlower : d.isUpper = false → d.toLower = d ∧ d.toUpper.toLower = d :=
        of_ascii (p := fun d => d.isUpper = false → d.toLower = d ∧ d.toUpper.toLower = d)
          (by decide) hd.ascii
      rintro (rfl | rfl)
      · exact (hlower hd.small).1
      · exact (hlower hd.small).2
  · constructor
    · intro h
      -- the first small letter is the plain character, which it cannot be
      obtain ⟨e, es, hsmall⟩ := List.exists_cons_of_ne_nil (smallLetters_ne_nil c)
      rw [hsmall, List.cons_append, List.cons.injEq] at h
      obtain ⟨rfl, -⟩ := h
      have hmem : e ∈ smallLetters c := hsmall ▸ List.mem_cons_self
      rcases mem_smallLetters (by omega) hmem with hbeyond | hdot | hkelvin
      · exact absurd hd.ascii (by omega)
      · exact absurd hdot hd.noDot
      · exact absurd hkelvin hd.noKelvin
    · have hupper : d.toUpper.toNat < 128 :=
        of_ascii (p := fun d => d.toUpper.toNat < 128) (by decide) hd.ascii
      rintro ⟨rfl | rfl, -⟩
      · exact absurd hd.ascii hc
      · exact absurd hupper hc

/-- Characters are a word in small letters if they are its letters, each
of them capital or small. Induction on the word. -/
theorem lowerChars_eq_iff {cs word : List Char} (hword : ∀ d ∈ word, IsPlain d) :
    lowerChars cs = word ↔ List.Forall₂ SameLetter cs word := by
  induction word generalizing cs with
  | nil =>
    rw [List.forall₂_nil_right_iff]
    cases cs with
    | nil => exact iff_of_true rfl rfl
    | cons c cs =>
      rw [lowerChars, List.flatMap_cons, List.append_eq_nil_iff]
      exact iff_of_false (fun h => smallLetters_ne_nil c h.1) (List.cons_ne_nil c cs)
  | cons d word ih =>
    rw [List.forall_mem_cons] at hword
    cases cs with
    | nil => exact iff_of_false nofun nofun
    | cons c cs =>
      rw [List.forall₂_cons, ← ih hword.2, lowerChars, List.flatMap_cons,
        smallLetters_append_eq_cons_iff hword.1]
      rfl

end AtomProbe.Text
