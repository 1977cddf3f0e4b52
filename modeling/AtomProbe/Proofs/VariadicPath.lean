import Mathlib.Data.List.Pairwise
import AtomProbe.VariadicPath

/-!
# `AtomProbe.Proofs.VariadicPath`: different addresses are different paths

An address is a variadic path together with the identifiers that are
written in place of its markers. Two addresses of the same resolved path
would make one value of the template overwrite another.

* `fill_eq_some`: what resolving does, and that no marker is left.
* `exists_fill`: which paths can be resolved.
* `fill_ne_fill_of_separate`: two paths that can be told apart by their
  characters (`separate`) have no resolved path in common, whatever the
  identifiers are.
* `take_eq_of_fill_eq`: a path whose markers are kept apart
  (`IsSeparated`) gives back its identifiers: those of the entries 1 and
  11 are never mixed up.
* `nodup_filterMap_resolve`: both together, for a list of addresses.
* `prefix_of_prefix_fill`: letters in front are kept.
* `fill_cut`: a last name without markers is kept.

The comparison of two paths has to know where a number ends. It does
where the next character is plain, that is neither a digit nor a marker.
For one path with different identifiers less will do: digits right
behind a marker are the same ones each time.
-/

set_option autoImplicit false

namespace AtomProbe.VariadicPath

/-! ### What resolving does -/

/-- The path with numbers in place of its markers, from left to right. -/
def substitute : List Char → List Nat → List Char
  | [], _ => []
  | c :: cs, numbers =>
    if c = marker then
      match numbers with
      | [] => c :: substitute cs []
      | n :: numbers => Nat.toDigits 10 n ++ substitute cs numbers
    else c :: substitute cs numbers

/-- Whether no marker follows another marker or a backslash. -/
def isResolvable (previous : Char) : List Char → Bool
  | [] => true
  | c :: cs => (c != marker || previous != marker && previous != '\\') && isResolvable c cs

theorem isDigit_of_mem_digits {id : UInt32} {c : Char} (h : c ∈ digits id) : c.isDigit = true :=
  Nat.isDigit_of_mem_toDigits (by decide) (by decide) h

theorem digits_ne_nil (id : UInt32) : digits id ≠ [] := Nat.toDigits_ne_nil

theorem digits_injective {id id' : UInt32} (h : digits id = digits id') : id = id' := by
  have hnumber := congrArg (fun cs => Nat.ofDigitChars 10 cs 0) h
  simp only [digits, Nat.ofDigitChars_ten_toDigits] at hnumber
  exact UInt32.toNat_inj.1 hnumber

theorem fill_cons {previous c : Char} (hc : c ≠ marker) (cs : List Char) (ids : List UInt32) :
    fill previous (c :: cs) ids = (fill c cs ids).map (c :: ·) := by
  cases ids <;> simp [fill, hc]

/-- One step of `fill` at a marker. -/
theorem fill_marker_eq_some {previous : Char} {cs xs : List Char} {ids : List UInt32}
    (h : fill previous (marker :: cs) ids = some xs) :
    ∃ id ids' ys, ids = id :: ids' ∧ fill marker cs ids' = some ys ∧ xs = digits id ++ ys := by
  cases ids with
  | nil => simp [fill] at h
  | cons id ids =>
    rw [fill, if_pos rfl] at h
    split at h
    · cases h
    · obtain ⟨ys, hys, rfl⟩ := Option.map_eq_some_iff.1 h
      exact ⟨id, ids, ys, rfl, hys, rfl⟩

/-- One step of `fill` at any other character. -/
theorem fill_cons_eq_some {previous c : Char} {cs xs : List Char} {ids : List UInt32}
    (hc : c ≠ marker) (h : fill previous (c :: cs) ids = some xs) :
    ∃ ys, fill c cs ids = some ys ∧ xs = c :: ys := by
  rw [fill_cons hc] at h
  obtain ⟨ys, hys, rfl⟩ := Option.map_eq_some_iff.1 h
  exact ⟨ys, hys, rfl⟩

/-- Resolving writes the identifiers in decimal in place of the markers,
and leaves no marker. -/
theorem fill_eq_some {previous : Char} {cs xs : List Char} {ids : List UInt32}
    (h : fill previous cs ids = some xs) :
    xs = substitute cs (ids.map UInt32.toNat) ∧ marker ∉ xs := by
  induction cs generalizing previous ids xs with
  | nil =>
    cases h
    exact ⟨rfl, List.not_mem_nil⟩
  | cons c cs ih =>
    by_cases hc : c = marker
    · subst hc
      obtain ⟨id, ids, ys, rfl, hys, rfl⟩ := fill_marker_eq_some h
      obtain ⟨rfl, hmarker⟩ := ih hys
      refine ⟨by simp [substitute, digits], fun hmem => ?_⟩
      rcases List.mem_append.1 hmem with hmem | hmem
      · exact absurd (isDigit_of_mem_digits hmem) (by decide)
      · exact hmarker hmem
    · obtain ⟨ys, hys, rfl⟩ := fill_cons_eq_some hc h
      obtain ⟨rfl, hmarker⟩ := ih hys
      refine ⟨by cases ids <;> simp [substitute, hc], fun hmem => ?_⟩
      rcases List.mem_cons.1 hmem with rfl | hmem
      · exact hc rfl
      · exact hmarker hmem

/-- What stands before the first marker stays. -/
theorem substitute_append {cs : List Char} (h : marker ∉ cs) (ds : List Char)
    (numbers : List Nat) : substitute (cs ++ ds) numbers = cs ++ substitute ds numbers := by
  induction cs with
  | nil => rfl
  | cons c cs ih =>
    have hc : c ≠ marker := fun he => h (he ▸ List.mem_cons_self)
    have hcs := ih fun hmem => h (List.mem_cons_of_mem c hmem)
    rw [List.cons_append, List.cons_append, ← hcs]
    cases numbers <;> simp [substitute, hc]

theorem substitute_of_notMem {cs : List Char} (h : marker ∉ cs) (numbers : List Nat) :
    substitute cs numbers = cs := by
  have hnil := substitute_append h [] numbers
  rwa [List.append_nil, substitute, List.append_nil] at hnil

theorem substitute_marker (cs : List Char) (n : Nat) (numbers : List Nat) :
    substitute (marker :: cs) (n :: numbers) = Nat.toDigits 10 n ++ substitute cs numbers := by
  rw [substitute, if_pos rfl]

/-- A path below one with a single marker is written below it. -/
theorem prefix_substitute {before behind cs : List Char} (hbefore : marker ∉ before)
    (hbehind : marker ∉ behind) (h : before ++ marker :: behind <+: cs) (n : Nat)
    (numbers : List Nat) :
    before ++ Nat.toDigits 10 n ++ behind <+: substitute cs (n :: numbers) := by
  obtain ⟨rest, rfl⟩ := h
  refine ⟨substitute rest numbers, ?_⟩
  have hsplit : before ++ marker :: behind ++ rest = before ++ marker :: (behind ++ rest) := by
    simp only [List.append_assoc, List.cons_append]
  rw [hsplit, substitute_append hbefore, substitute_marker, substitute_append hbehind]
  simp only [List.append_assoc]

/-- A path can be resolved if no marker follows another marker or a
backslash, and there are as many identifiers as markers. -/
theorem exists_fill {previous : Char} {cs : List Char} (h : isResolvable previous cs = true)
    (ids : List UInt32) (hlength : cs.count marker ≤ ids.length) :
    ∃ xs, fill previous cs ids = some xs := by
  induction cs generalizing previous ids with
  | nil => exact ⟨[], rfl⟩
  | cons c cs ih =>
    rw [isResolvable, Bool.and_eq_true] at h
    by_cases hc : c = marker
    · subst hc
      cases ids with
      | nil => simp at hlength
      | cons id ids =>
        obtain ⟨ys, hys⟩ := ih h.2 ids (by simpa using hlength)
        have hprevious : ¬ (previous = marker ∨ previous = '\\') := by
          simpa [not_or] using h.1
        exact ⟨digits id ++ ys, by rw [fill, if_pos rfl, if_neg hprevious, hys]; rfl⟩
    · obtain ⟨ys, hys⟩ := ih h.2 ids (by simpa [hc] using hlength)
      exact ⟨c :: ys, by rw [fill_cons hc, hys]; rfl⟩

theorem fill_of_notMem {previous : Char} {cs : List Char} (h : marker ∉ cs) (ids : List UInt32) :
    fill previous cs ids = some cs := by
  induction cs generalizing previous with
  | nil => rw [fill]
  | cons c cs ih =>
    rw [List.mem_cons, not_or] at h
    rw [fill_cons (Ne.symm h.1), ih h.2]
    rfl

/-- One step of `fill` at a marker that may be replaced. -/
theorem fill_marker {previous : Char} (h : ¬ (previous = marker ∨ previous = '\\'))
    (cs : List Char) (id : UInt32) (ids : List UInt32) :
    fill previous (marker :: cs) (id :: ids) = (fill marker cs ids).map (digits id ++ ·) := by
  rw [fill, if_pos rfl, if_neg h]

theorem fill_blocked {previous : Char} (h : previous = marker ∨ previous = '\\') (cs : List Char)
    (ids : List UInt32) : fill previous (marker :: cs) ids = none := by
  rw [fill.eq_def]
  exact (if_pos rfl).trans (if_pos h)

theorem fill_marker_nil (previous : Char) (cs : List Char) :
    fill previous (marker :: cs) [] = none := by
  rw [fill, if_pos rfl, ite_self]

theorem not_blocked_of_fill {previous : Char} {cs xs : List Char} {ids : List UInt32}
    (h : fill previous (marker :: cs) ids = some xs) :
    ¬ (previous = marker ∨ previous = '\\') := by
  intro hblocked
  rw [fill_blocked hblocked] at h
  cases h

/-- What holds no marker stays as it is at the end of a path, and does not
matter to what stands before it. Induction on the latter; a marker there
is blocked, has no identifier, or is replaced, on both sides alike. -/
theorem fill_append {ds : List Char} (hds : marker ∉ ds) (previous : Char) (cs : List Char)
    (ids : List UInt32) : fill previous (cs ++ ds) ids = (fill previous cs ids).map (· ++ ds) := by
  induction cs generalizing previous ids with
  | nil =>
    rw [List.nil_append, fill_of_notMem hds, fill]
    rfl
  | cons c cs ih =>
    rw [List.cons_append]
    by_cases hc : c = marker
    · subst hc
      by_cases hblocked : previous = marker ∨ previous = '\\'
      · rw [fill_blocked hblocked, fill_blocked hblocked]
        rfl
      · cases ids with
        | nil =>
          rw [fill_marker_nil, fill_marker_nil]
          rfl
        | cons id ids =>
          rw [fill_marker hblocked, fill_marker hblocked, ih, Option.map_map, Option.map_map]
          exact congrArg (Option.map · _) (funext fun ys => (List.append_assoc ..).symm)
    · rw [fill_cons hc, fill_cons hc, ih, Option.map_map, Option.map_map]
      rfl

/-- What stands before and behind the first marker of a resolved path. -/
theorem fill_first_eq_some {previous : Char} {cs ds xs : List Char} {id : UInt32}
    {ids : List UInt32} (hcs : marker ∉ cs)
    (h : fill previous (cs ++ marker :: ds) (id :: ids) = some xs) :
    ∃ ys, fill marker ds ids = some ys ∧ xs = cs ++ (digits id ++ ys) := by
  induction cs generalizing previous xs with
  | nil =>
    obtain ⟨id', ids', ys, hids, hys, rfl⟩ := fill_marker_eq_some h
    cases hids
    exact ⟨ys, hys, rfl⟩
  | cons c cs ih =>
    rw [List.mem_cons, not_or] at hcs
    obtain ⟨zs, hzs, rfl⟩ := fill_cons_eq_some (Ne.symm hcs.1) h
    obtain ⟨ys, hys, rfl⟩ := ih hcs.2 hzs
    exact ⟨ys, hys, rfl⟩

/-- Letters in front of a resolved path stand in front of the path. A
marker would have put a digit there. -/
theorem prefix_of_prefix_fill {plain cs xs : List Char} (hplain : ∀ c ∈ plain, c.isDigit = false)
    {previous : Char} {ids : List UInt32} (h : fill previous cs ids = some xs)
    (hxs : plain <+: xs) : plain <+: cs := by
  induction plain generalizing cs xs previous ids with
  | nil => exact List.nil_prefix
  | cons p plain ih =>
    obtain ⟨hp, hplain⟩ := List.forall_mem_cons.1 hplain
    cases cs with
    | nil =>
      cases h
      exact absurd (List.prefix_nil.1 hxs) (List.cons_ne_nil p plain)
    | cons c cs =>
      by_cases hc : c = marker
      · subst hc
        obtain ⟨id, ids', ys, rfl, -, rfl⟩ := fill_marker_eq_some h
        obtain ⟨rest, hrest⟩ := hxs
        cases hdigits : digits id with
        | nil => exact absurd hdigits (digits_ne_nil id)
        | cons d ds =>
          rw [hdigits] at hrest
          obtain rfl := (List.cons.inj hrest).1
          have hd := isDigit_of_mem_digits (hdigits ▸ List.mem_cons_self : p ∈ digits id)
          rw [hp] at hd
          cases hd
      · obtain ⟨ys, hys, rfl⟩ := fill_cons_eq_some hc h
        obtain ⟨rfl, hys'⟩ := List.cons_prefix_cons.1 hxs
        exact List.cons_prefix_cons.2 ⟨rfl, ih hplain hys hys'⟩

/-! ### Where a number ends -/

/-- Whether a path begins with neither a digit nor a marker. -/
def startsPlain (cs : List Char) : Bool :=
  cs.head?.all fun c => c != marker && !c.isDigit

/-- Whether a plain character stands behind each marker. -/
def isDelimited : List Char → Bool
  | [] => true
  | c :: cs => (c != marker || startsPlain cs) && isDelimited cs

/-- Whether the characters of two paths tell all their resolved paths
apart. Numbers are passed over where both of them end. -/
def separate : List Char → List Char → Bool
  | [], [] => false
  | [], _ :: _ => true
  | _ :: _, [] => true
  | c :: cs, d :: ds =>
    if c = d then (c != marker || startsPlain cs && startsPlain ds) && separate cs ds
    else (c != marker || !d.isDigit) && (d != marker || !c.isDigit)

/-- What a plain path resolves to begins with no digit. -/
theorem takeWhile_isDigit_of_startsPlain {previous : Char} {cs xs : List Char} {ids : List UInt32}
    (hplain : startsPlain cs = true) (h : fill previous cs ids = some xs) :
    xs.takeWhile Char.isDigit = [] := by
  cases cs with
  | nil =>
    cases h
    rfl
  | cons c cs =>
    have ⟨hc, hdigit⟩ : c ≠ marker ∧ c.isDigit = false := by simpa [startsPlain] using hplain
    obtain ⟨ys, -, rfl⟩ := fill_cons_eq_some hc h
    simp [hdigit]

theorem takeWhile_isDigit_append (id : UInt32) (xs : List Char) :
    (digits id ++ xs).takeWhile Char.isDigit = digits id ++ xs.takeWhile Char.isDigit :=
  List.takeWhile_append_of_pos fun _ => isDigit_of_mem_digits

/-- A number can be read back if the same digits, or none, stand behind
it each time. -/
theorem digits_append_inj {id id' : UInt32} {xs xs' : List Char}
    (hdigits : xs.takeWhile Char.isDigit = xs'.takeWhile Char.isDigit)
    (h : digits id ++ xs = digits id' ++ xs') : id = id' ∧ xs = xs' := by
  have hid : id = id' := by
    have htake := congrArg (List.takeWhile Char.isDigit) h
    rw [takeWhile_isDigit_append, takeWhile_isDigit_append, hdigits] at htake
    exact digits_injective (List.append_cancel_right htake)
  subst hid
  exact ⟨rfl, List.append_cancel_left h⟩

/-- No path lies below the same one for two identifiers. -/
theorem eq_of_below {before behind path : List Char} {id id' : UInt32} {c : Char}
    (hc : c.isDigit = false) (h : before ++ digits id ++ c :: behind <+: path)
    (h' : before ++ digits id' ++ c :: behind <+: path) : id = id' := by
  obtain ⟨xs, hxs⟩ := h
  obtain ⟨ys, hys⟩ := h'
  have heq := hxs.trans hys.symm
  simp only [List.append_assoc, List.cons_append] at heq
  exact (digits_append_inj (by simp [hc]) (List.append_cancel_left heq)).1

theorem digits_append_ne_cons {id : UInt32} {c : Char} {xs ys : List Char}
    (hc : c.isDigit = false) : digits id ++ xs ≠ c :: ys := by
  intro h
  cases hdigits : digits id with
  | nil => exact digits_ne_nil id hdigits
  | cons d ds =>
    rw [hdigits] at h
    obtain rfl := (List.cons.inj h).1
    have hd := isDigit_of_mem_digits (hdigits ▸ List.mem_cons_self : d ∈ digits id)
    rw [hc] at hd
    cases hd

/-! ### Paths that are told apart -/

theorem fill_cons_ne_nil {previous c : Char} {cs xs : List Char} {ids : List UInt32}
    (h : fill previous (c :: cs) ids = some xs) : xs ≠ [] := by
  by_cases hc : c = marker
  · subst hc
    obtain ⟨id, ids, ys, -, -, rfl⟩ := fill_marker_eq_some h
    exact fun hnil => digits_ne_nil id (List.append_eq_nil_iff.1 hnil).1
  · obtain ⟨ys, -, rfl⟩ := fill_cons_eq_some hc h
    exact List.cons_ne_nil c ys

/-- Separate paths have no resolved path in common. Induction on the
first path; the two are walked along together, and at a pair of markers
both numbers are read to their ends. -/
theorem fill_ne_fill_of_separate {p q : List Char} (h : separate p q = true)
    {previous previous' : Char} {ids ids' : List UInt32} {xs xs' : List Char}
    (hp : fill previous p ids = some xs) (hq : fill previous' q ids' = some xs') : xs ≠ xs' := by
  induction p generalizing q previous previous' ids ids' xs xs' with
  | nil =>
    cases hp
    cases q with
    | nil => cases h
    | cons d ds => exact (fill_cons_ne_nil hq).symm
  | cons c cs ih =>
    cases q with
    | nil =>
      cases hq
      exact fill_cons_ne_nil hp
    | cons d ds =>
      rw [separate] at h
      by_cases hcd : c = d
      · subst hcd
        rw [if_pos rfl, Bool.and_eq_true] at h
        by_cases hc : c = marker
        · subst hc
          obtain ⟨id, ids, ys, rfl, hys, rfl⟩ := fill_marker_eq_some hp
          obtain ⟨id', ids', ys', rfl, hys', rfl⟩ := fill_marker_eq_some hq
          have ⟨hcs, hds⟩ : startsPlain cs = true ∧ startsPlain ds = true := by simpa using h.1
          have hdigits : ys.takeWhile Char.isDigit = ys'.takeWhile Char.isDigit := by
            rw [takeWhile_isDigit_of_startsPlain hcs hys, takeWhile_isDigit_of_startsPlain hds hys']
          intro heq
          exact ih h.2 hys hys' (digits_append_inj hdigits heq).2
        · obtain ⟨ys, hys, rfl⟩ := fill_cons_eq_some hc hp
          obtain ⟨ys', hys', rfl⟩ := fill_cons_eq_some hc hq
          intro heq
          exact ih h.2 hys hys' (List.cons.inj heq).2
      · rw [if_neg hcd, Bool.and_eq_true] at h
        by_cases hc : c = marker
        · subst hc
          obtain ⟨id, ids, ys, rfl, -, rfl⟩ := fill_marker_eq_some hp
          obtain ⟨ys', -, rfl⟩ := fill_cons_eq_some (Ne.symm hcd) hq
          exact digits_append_ne_cons (by simpa using h.1)
        · obtain ⟨ys, -, rfl⟩ := fill_cons_eq_some hc hp
          by_cases hd : d = marker
          · subst hd
            obtain ⟨id', ids', ys', rfl, -, rfl⟩ := fill_marker_eq_some hq
            exact (digits_append_ne_cons (by simpa using h.2)).symm
          · obtain ⟨ys', -, rfl⟩ := fill_cons_eq_some hd hq
            exact fun heq => hcd (List.cons.inj heq).1

/-! ### Identifiers that are read back -/

/-- What stands before the first marker of a path. -/
def beforeMarker (cs : List Char) : List Char := cs.takeWhile (· != marker)

theorem marker_notMem_beforeMarker (cs : List Char) : marker ∉ beforeMarker cs := by
  intro h
  have hne := List.all_eq_true.1 List.all_takeWhile _ h
  simp at hne

theorem beforeMarker_append {segment : List Char} (h : marker ∉ segment) (behind : List Char) :
    beforeMarker (segment ++ marker :: behind) = segment := by
  have hsegment : ∀ c ∈ segment, (c != marker) = true := by
    intro c hc
    rw [bne_iff_ne]
    rintro rfl
    exact h hc
  rw [beforeMarker, List.takeWhile_append_of_pos hsegment]
  simp

/-- Whether from each marker to the next one there is a character that
is no digit. -/
def IsSeparated (cs : List Char) : Prop :=
  ∀ segment, marker :: (segment ++ [marker]) <:+: cs → marker ∉ segment →
    ∃ c ∈ segment, c.isDigit = false

theorem isSeparated_nil : IsSeparated [] := by
  intro segment h
  exact absurd (List.infix_nil.1 h) (List.cons_ne_nil _ _)

theorem isSeparated_cons {c : Char} {cs : List Char} :
    IsSeparated (c :: cs) ↔
      (c = marker → marker ∈ cs → ∃ d ∈ beforeMarker cs, d.isDigit = false) ∧
        IsSeparated cs := by
  constructor
  · intro h
    refine ⟨?_, fun segment hinfix => h segment (List.infix_cons hinfix)⟩
    rintro rfl hmem
    obtain ⟨segment, behind, rfl, hsegment⟩ := List.eq_append_cons_of_mem hmem
    rw [beforeMarker_append hsegment]
    exact h segment ⟨[], behind, by simp⟩ hsegment
  · rintro ⟨hfirst, hrest⟩ segment hinfix hsegment
    rcases List.infix_cons_iff.1 hinfix with hprefix | hinfix
    · obtain ⟨hc, behind, rfl⟩ := List.cons_prefix_cons.1 hprefix
      have h := hfirst hc.symm (by simp)
      rwa [List.append_assoc, List.singleton_append, beforeMarker_append hsegment] at h
    · exact hrest segment hinfix hsegment

instance decidableIsSeparated : DecidablePred IsSeparated
  | [] => .isTrue isSeparated_nil
  | _ :: cs =>
    have := decidableIsSeparated cs
    -- goes through what stands before the marker, not through all characters
    have : Decidable (∃ d ∈ beforeMarker cs, d.isDigit = false) := List.decidableBEx _ _
    decidable_of_iff _ isSeparated_cons.symm

theorem isSeparated_of_isDelimited {cs : List Char} (h : isDelimited cs = true) :
    IsSeparated cs := by
  induction cs with
  | nil => exact isSeparated_nil
  | cons c cs ih =>
    rw [isDelimited, Bool.and_eq_true] at h
    refine isSeparated_cons.2 ⟨?_, ih h.2⟩
    rintro rfl hmem
    cases cs with
    | nil => cases hmem
    | cons d ds =>
      -- the character behind the marker ends the number already
      have ⟨hd, hdigit⟩ : d ≠ marker ∧ d.isDigit = false := by simpa [startsPlain] using h.1
      exact ⟨d, by simp [beforeMarker, hd], hdigit⟩

/-- What stands before the first marker stays there. -/
theorem beforeMarker_prefix_fill {previous : Char} {cs xs : List Char} {ids : List UInt32}
    (h : fill previous cs ids = some xs) : beforeMarker cs <+: xs := by
  refine ⟨substitute (cs.dropWhile (· != marker)) (ids.map UInt32.toNat), ?_⟩
  rw [(fill_eq_some h).1, ← substitute_append (marker_notMem_beforeMarker cs), beforeMarker,
    List.takeWhile_append_dropWhile]

theorem takeWhile_isDigit_append_of_exists {segment : List Char}
    (h : ∃ c ∈ segment, c.isDigit = false) (xs : List Char) :
    (segment ++ xs).takeWhile Char.isDigit = segment.takeWhile Char.isDigit := by
  rw [List.takeWhile_append, if_neg]
  intro hlength
  obtain ⟨c, hc, hdigit⟩ := h
  rw [← (List.takeWhile_prefix Char.isDigit).eq_of_length hlength] at hc
  exact absurd (List.all_eq_true.1 List.all_takeWhile c hc) (by simp [hdigit])

/-- What the rest of a path resolves to begins with the same digits for
all identifiers, if a character that is no digit stands before the next
marker. -/
theorem takeWhile_isDigit_fill_eq {cs : List Char}
    (hcs : marker ∈ cs → ∃ c ∈ beforeMarker cs, c.isDigit = false)
    {previous previous' : Char} {ids ids' : List UInt32} {xs xs' : List Char}
    (h : fill previous cs ids = some xs) (h' : fill previous' cs ids' = some xs') :
    xs.takeWhile Char.isDigit = xs'.takeWhile Char.isDigit := by
  by_cases hmem : marker ∈ cs
  · obtain ⟨ys, rfl⟩ := beforeMarker_prefix_fill h
    obtain ⟨ys', rfl⟩ := beforeMarker_prefix_fill h'
    rw [takeWhile_isDigit_append_of_exists (hcs hmem),
      takeWhile_isDigit_append_of_exists (hcs hmem)]
  · -- behind the last marker all is the same, be it digits or not
    rw [fill_of_notMem hmem] at h h'
    cases h
    cases h'
    rfl

/-- The identifiers of a separated path can be read back from what it
resolves to. -/
theorem take_eq_of_fill_eq {p : List Char} (h : IsSeparated p)
    {previous previous' : Char} {ids ids' : List UInt32} {xs : List Char}
    (hp : fill previous p ids = some xs) (hp' : fill previous' p ids' = some xs) :
    ids.take (p.count marker) = ids'.take (p.count marker) := by
  induction p generalizing previous previous' ids ids' xs with
  | nil => rfl
  | cons c cs ih =>
    obtain ⟨hfirst, hcs⟩ := isSeparated_cons.1 h
    by_cases hc : c = marker
    · subst hc
      obtain ⟨id, ids, ys, rfl, hys, rfl⟩ := fill_marker_eq_some hp
      obtain ⟨id', ids', ys', rfl, hys', heq⟩ := fill_marker_eq_some hp'
      -- both numbers end at the same place
      have hdigits := takeWhile_isDigit_fill_eq (hfirst rfl) hys hys'
      obtain ⟨rfl, rfl⟩ := digits_append_inj hdigits heq
      rw [List.count_cons_self, List.take_succ_cons, List.take_succ_cons, ih hcs hys hys']
    · obtain ⟨ys, hys, rfl⟩ := fill_cons_eq_some hc hp
      obtain ⟨ys', hys', heq⟩ := fill_cons_eq_some hc hp'
      obtain rfl := (List.cons.inj heq).2
      rw [List.count_cons_of_ne hc]
      exact ih hcs hys hys'

/-! ### The last name of a path -/

/-- What stands before the last slash of a path, and behind it. -/
def cut (cs : List Char) : List Char × List Char :=
  ((cs.reverse.dropWhile (· != '/')).tail.reverse, (cs.reverse.takeWhile (· != '/')).reverse)

theorem cut_append (cs : List Char) {name : List Char} (h : '/' ∉ name) :
    cut (cs ++ '/' :: name) = (cs, name) := by
  have hname : ∀ c ∈ name.reverse, (c != '/') = true := by
    intro c hc
    rw [bne_iff_ne]
    rintro rfl
    exact h (List.mem_reverse.1 hc)
  have hreverse : (cs ++ '/' :: name).reverse = name.reverse ++ '/' :: cs.reverse := by simp
  rw [cut, hreverse, List.dropWhile_append_of_pos hname, List.takeWhile_append_of_pos hname]
  simp

/-- A path with a slash is cut at the last one. -/
theorem exists_of_mem_slash {cs : List Char} (h : '/' ∈ cs) :
    ∃ above name, cs = above ++ '/' :: name ∧ '/' ∉ name ∧ cut cs = (above, name) := by
  obtain ⟨behind, before, hreverse, hbehind⟩ :=
    List.eq_append_cons_of_mem (List.mem_reverse.2 h)
  have hcs : cs = before.reverse ++ '/' :: behind.reverse := by
    rw [← List.reverse_reverse cs, hreverse]
    simp
  have hname : '/' ∉ behind.reverse := fun hmem => hbehind (List.mem_reverse.1 hmem)
  exact ⟨before.reverse, behind.reverse, hcs, hname, hcs ▸ cut_append _ hname⟩

/-- Whether a path ends with a name without markers. -/
def endsPlain (cs : List Char) : Bool := cs.contains '/' && !(cut cs).2.contains marker

/-- A path that ends with a plain name keeps the name when it is
resolved. -/
theorem fill_cut {previous : Char} {cs xs : List Char} {ids : List UInt32}
    (hplain : endsPlain cs = true) (h : fill previous cs ids = some xs) :
    fill previous (cut cs).1 ids = some (cut xs).1 ∧ (cut xs).2 = (cut cs).2 := by
  rw [endsPlain, Bool.and_eq_true, List.contains_iff_mem] at hplain
  obtain ⟨above, name, rfl, hname, hcut⟩ := exists_of_mem_slash hplain.1
  rw [hcut] at hplain ⊢
  have hmarker : marker ∉ '/' :: name := by
    rw [List.mem_cons, not_or]
    exact ⟨by decide, by simpa using hplain.2⟩
  rw [fill_append hmarker] at h
  obtain ⟨ys, hys, rfl⟩ := Option.map_eq_some_iff.1 h
  rw [cut_append ys hname]
  exact ⟨hys, rfl⟩

/-! ### Addresses -/

theorem fill_of_resolve? {path resolved : String} {ids : List UInt32}
    (h : resolve? path ids = some resolved) :
    fill ' ' path.toList ids = some resolved.toList := by
  rw [resolve?] at h
  split at h
  · cases h
  · obtain ⟨xs, hxs, rfl⟩ := Option.map_eq_some_iff.1 h
    rw [hxs, String.toList_ofList]

theorem resolve?_of_fill {path : String} {ids : List UInt32} {xs : List Char}
    (hpath : path ≠ "") (h : fill ' ' path.toList ids = some xs) :
    resolve? path ids = some (String.ofList xs) := by
  rw [resolve?, if_neg hpath, h]
  rfl

/-- Whether two paths have no resolved path in common. -/
def Apart (p q : String) : Prop :=
  ∀ ids ids' resolved, resolve? p ids = some resolved → resolve? q ids' ≠ some resolved

instance : Std.Symm Apart where
  symm _ _ h ids ids' resolved hq hp := h ids' ids resolved hp hq

theorem apart_of_separate {p q : String} (h : separate p.toList q.toList = true) : Apart p q :=
  fun _ _ _ hp hq =>
    fill_ne_fill_of_separate h (fill_of_resolve? hp) (fill_of_resolve? hq) rfl

/-- Whether each path of a list is separate from all later ones. -/
def allSeparate : List (List Char) → Bool
  | [] => true
  | p :: ps => ps.all (separate p) && allSeparate ps

theorem pairwise_separate {paths : List (List Char)} (h : allSeparate paths = true) :
    paths.Pairwise fun p q => separate p q = true := by
  induction paths with
  | nil => exact .nil
  | cons p ps ih =>
    rw [allSeparate, Bool.and_eq_true, List.all_eq_true] at h
    exact .cons h.1 (ih h.2)

theorem pairwise_apart {paths : List String}
    (h : allSeparate (paths.map String.toList) = true) : paths.Pairwise Apart :=
  (List.pairwise_map.1 (pairwise_separate h)).imp apart_of_separate

theorem separate_self (p : List Char) : separate p p = false := by
  induction p with
  | nil => rfl
  | cons c cs ih => rw [separate, if_pos rfl, ih, Bool.and_false]

theorem nodup_of_allSeparate {paths : List String}
    (h : allSeparate (paths.map String.toList) = true) : paths.Nodup := by
  refine (List.pairwise_map.1 (pairwise_separate h)).imp ?_
  rintro p q hseparate rfl
  rw [separate_self] at hseparate
  cases hseparate

/-- Whether an address names one identifier for each marker of a
delimited path. -/
def IsExact (address : String × List UInt32) : Prop :=
  isDelimited address.1.toList = true ∧ address.2.length = markerCount address.1

/-- Different exact addresses of paths that are apart resolve to
different paths. -/
theorem nodup_filterMap_resolve {paths : List String} {addresses : List (String × List UInt32)}
    (hpaths : paths.Pairwise Apart) (hmem : ∀ a ∈ addresses, a.1 ∈ paths)
    (hexact : ∀ a ∈ addresses, IsExact a) (hnodup : addresses.Nodup) :
    (addresses.filterMap fun a => resolve? a.1 a.2).Nodup := by
  refine List.pairwise_filterMap.2 (hnodup.imp_of_mem fun {a b} ha hb hne => ?_)
  intro resolved hresolved resolved' hresolved' heq
  subst heq
  by_cases hpath : a.1 = b.1
  · obtain ⟨p, ids⟩ := a
    obtain ⟨q, ids'⟩ := b
    obtain rfl : p = q := hpath
    have htake := take_eq_of_fill_eq (isSeparated_of_isDelimited (hexact _ ha).1)
      (fill_of_resolve? hresolved) (fill_of_resolve? hresolved')
    have hids : ids.length = p.toList.count marker := (hexact _ ha).2
    have hids' : ids'.length = p.toList.count marker := (hexact _ hb).2
    rw [← hids, List.take_length, hids, ← hids', List.take_length] at htake
    exact hne (by rw [htake])
  · have hapart : Apart a.1 b.1 :=
      hpaths.forall (hmem a ha) (hmem b hb) hpath
    exact hapart a.2 b.2 resolved hresolved hresolved'

end AtomProbe.VariadicPath
