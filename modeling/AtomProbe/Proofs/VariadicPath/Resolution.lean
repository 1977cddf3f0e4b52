import AtomProbe.Proofs.Mapping.Dependence

/-!
# `AtomProbe.Proofs.VariadicPath.Resolution`: what a path resolves to

`fill` walks along a path once, and remembers only the character before
and the identifiers that are left. Here its answer is told from the path
alone. A path can be resolved if its markers are well placed and the
identifiers suffice for them, and then the number of markers before a
marker says which identifier stands in its place (`inPlace`).

* `isResolvable_iff`: well placed means that no two neighbours in the
  path are a marker or a backslash with a marker behind it.
* `fill_eq_some_iff`: which paths can be filled, and with what.
* `substitute_eq_flatten`: the substitution, position by position.
* `resolution_of_path`: all of this for whole paths.
-/

set_option autoImplicit false

namespace AtomProbe.VariadicPath

/-! ### Paths that can be resolved -/

theorem infix_pair_cons {a b c d : Char} {cs : List Char} :
    [a, b] <:+: c :: d :: cs ↔ c = a ∧ d = b ∨ [a, b] <:+: d :: cs := by
  rw [List.infix_cons_iff, List.cons_prefix_cons, List.cons_prefix_cons]
  simp [eq_comm]

theorem not_infix_pair_singleton {a b c : Char} : ¬ [a, b] <:+: [c] := by
  intro h
  have hlength := h.length_le
  simp at hlength

/-- The markers are well placed if none of them has a marker or a
backslash right before it. Induction on the path, with the character
before it. -/
theorem isResolvable_iff (previous : Char) (cs : List Char) :
    isResolvable previous cs = true ↔
      ¬ [marker, marker] <:+: previous :: cs ∧ ¬ ['\\', marker] <:+: previous :: cs := by
  induction cs generalizing previous with
  | nil =>
    rw [isResolvable]
    exact ⟨fun _ => ⟨not_infix_pair_singleton, not_infix_pair_singleton⟩, fun _ => rfl⟩
  | cons c cs ih =>
    rw [isResolvable, Bool.and_eq_true, ih c, infix_pair_cons, infix_pair_cons]
    by_cases hc : c = marker
    · simp only [hc, bne_self_eq_false, Bool.false_or, Bool.and_eq_true, bne_iff_ne, and_true,
        not_or]
      exact and_and_and_comm
    · simp [hc]

/-- The blank before a path places no marker badly. -/
theorem isResolvable_start {cs : List Char} :
    isResolvable ' ' cs = true ↔ ¬ [marker, marker] <:+: cs ∧ ¬ ['\\', marker] <:+: cs := by
  rw [isResolvable_iff]
  cases cs with
  | nil =>
    exact iff_of_true ⟨not_infix_pair_singleton, not_infix_pair_singleton⟩ ⟨by simp, by simp⟩
  | cons c cs =>
    have hblank : ' ' ≠ marker ∧ ' ' ≠ '\\' := by decide
    rw [infix_pair_cons, infix_pair_cons]
    simp [hblank.1, hblank.2]

/-- Of a path that is filled the markers are well placed, and the
identifiers suffice. -/
theorem isResolvable_of_fill {previous : Char} {cs xs : List Char} {ids : List UInt32}
    (h : fill previous cs ids = some xs) :
    isResolvable previous cs = true ∧ cs.count marker ≤ ids.length := by
  induction cs generalizing previous xs ids with
  | nil => exact ⟨rfl, Nat.zero_le _⟩
  | cons c cs ih =>
    rw [isResolvable, Bool.and_eq_true]
    by_cases hc : c = marker
    · subst hc
      have hblocked := not_or.1 (not_blocked_of_fill h)
      obtain ⟨id, ids, ys, rfl, hys, rfl⟩ := fill_marker_eq_some h
      obtain ⟨hresolvable, hcount⟩ := ih hys
      rw [List.count_cons_self, List.length_cons]
      exact ⟨⟨by simpa using hblocked, hresolvable⟩, Nat.succ_le_succ hcount⟩
    · obtain ⟨ys, hys, rfl⟩ := fill_cons_eq_some hc h
      obtain ⟨hresolvable, hcount⟩ := ih hys
      rw [List.count_cons_of_ne hc]
      exact ⟨⟨by simp [hc], hresolvable⟩, hcount⟩

/-- A path is filled if its markers are well placed and the identifiers
suffice, and then with the identifiers. -/
theorem fill_eq_some_iff {previous : Char} {cs xs : List Char} {ids : List UInt32} :
    fill previous cs ids = some xs ↔
      isResolvable previous cs = true ∧ cs.count marker ≤ ids.length ∧
        xs = substitute cs (ids.map UInt32.toNat) := by
  constructor
  · intro h
    obtain ⟨hresolvable, hcount⟩ := isResolvable_of_fill h
    exact ⟨hresolvable, hcount, (fill_eq_some h).1⟩
  · rintro ⟨hresolvable, hcount, rfl⟩
    obtain ⟨ys, hys⟩ := exists_fill hresolvable ids hcount
    rw [hys, (fill_eq_some hys).1]

/-! ### What stands in the place of each character -/

/-- What stands in the place of the character at a position. A marker
gives way to the identifier that has as many identifiers before it as
the marker has markers before it. All other characters stay. -/
def inPlace (cs : List Char) (ids : List UInt32) (position : Nat) (c : Char) : List Char :=
  if c = marker then (ids[(cs.take position).count marker]?).elim [c] digits else [c]

/-- Behind a marker one identifier less is left. -/
theorem inPlace_succ (c : Char) (cs : List Char) (ids : List UInt32) :
    (fun i => inPlace (c :: cs) ids (i + 1)) =
      inPlace cs (if c = marker then ids.tail else ids) := by
  funext i d
  rw [inPlace, inPlace, List.take_succ_cons]
  by_cases hc : c = marker
  · rw [hc, List.count_cons_self, if_pos rfl, List.getElem?_tail]
  · rw [List.count_cons_of_ne hc, if_neg hc]

/-- The substitution, position by position. -/
theorem substitute_eq_flatten (cs : List Char) (ids : List UInt32) :
    substitute cs (ids.map UInt32.toNat) = (cs.mapIdx (inPlace cs ids)).flatten := by
  induction cs generalizing ids with
  | nil => rfl
  | cons c cs ih =>
    rw [List.mapIdx_cons, List.flatten_cons, inPlace_succ, ← ih]
    by_cases hc : c = marker
    · subst hc
      cases ids with
      | nil => simp [substitute, inPlace]
      | cons id ids => simp [substitute, inPlace, digits]
    · cases ids <;> simp [substitute, inPlace, hc]

/-! ### Whole paths -/

theorem resolve?_eq_some_iff {path resolved : String} {ids : List UInt32} :
    resolve? path ids = some resolved ↔
      path ≠ "" ∧ isResolvable ' ' path.toList = true ∧ markerCount path ≤ ids.length ∧
        resolved.toList = (path.toList.mapIdx (inPlace path.toList ids)).flatten := by
  constructor
  · intro h
    have hne : path ≠ "" := by
      rintro rfl
      cases h
    have hfill := fill_eq_some_iff.1 (fill_of_resolve? h)
    exact ⟨hne, hfill.1, hfill.2.1, by rw [hfill.2.2, substitute_eq_flatten]⟩
  · rintro ⟨hne, hresolvable, hcount, hresolved⟩
    rw [← substitute_eq_flatten] at hresolved
    have hfill := fill_eq_some_iff.2 ⟨hresolvable, hcount, hresolved⟩
    rw [resolve?_of_fill hne hfill, String.ofList_toList]

theorem fill_ne_nil {path resolved : String} {ids : List UInt32} (hne : path ≠ "")
    (h : fill ' ' path.toList ids = some resolved.toList) : resolved.toList ≠ [] := by
  cases hpath : path.toList with
  | nil => exact absurd (String.toList_eq_nil_iff.1 hpath) hne
  | cons c cs =>
    rw [hpath] at h
    exact fill_cons_ne_nil h

/-- A path without markers is its own resolution. -/
theorem resolve?_of_notMem {path : String} (hne : path ≠ "") (h : marker ∉ path.toList)
    (ids : List UInt32) : resolve? path ids = some path := by
  rw [resolve?_of_fill hne (fill_of_notMem h ids), String.ofList_toList]

/-- A path can be resolved if and only if it is not empty and either has
no marker, or has no more markers than there are identifiers, no two of
them side by side and none behind a backslash. The resolved path has the
identifiers in the places of the markers, from left to right, and is the
same otherwise. It has no marker, does not depend on identifiers beyond
the last marker, and is not changed by resolving it again. -/
theorem resolution_of_path (path : String) (ids : List UInt32) :
    ((∃ resolved, resolve? path ids = some resolved) ↔
      path ≠ "" ∧ (marker ∉ path.toList ∨
        markerCount path ≤ ids.length ∧ ¬ [marker, marker] <:+: path.toList ∧
          ¬ ['\\', marker] <:+: path.toList)) ∧
    ∀ resolved, resolve? path ids = some resolved →
      resolved.toList = (path.toList.mapIdx (inPlace path.toList ids)).flatten ∧
      marker ∉ resolved.toList ∧
      (∀ surplus, resolve? path (ids.take (markerCount path) ++ surplus) = some resolved) ∧
      ∀ ids', resolve? resolved ids' = some resolved := by
  constructor
  · constructor
    · rintro ⟨resolved, h⟩
      obtain ⟨hne, hresolvable, hcount, -⟩ := resolve?_eq_some_iff.1 h
      exact ⟨hne, .inr ⟨hcount, isResolvable_start.1 hresolvable⟩⟩
    · rintro ⟨hne, hmarkers | ⟨hcount, hplaced⟩⟩
      · exact ⟨path, resolve?_of_notMem hne hmarkers ids⟩
      · have hresolvable := isResolvable_start.2 hplaced
        exact ⟨String.ofList _, resolve?_eq_some_iff.2
          ⟨hne, hresolvable, hcount, String.toList_ofList⟩⟩
  · intro resolved h
    obtain ⟨hne, hresolvable, hcount, hresolved⟩ := resolve?_eq_some_iff.1 h
    have hmarker : marker ∉ resolved.toList := (fill_eq_some (fill_of_resolve? h)).2
    have hresolvedNe : resolved ≠ "" := by
      rintro rfl
      exact fill_ne_nil hne (fill_of_resolve? h) rfl
    refine ⟨hresolved, hmarker, fun surplus => ?_, resolve?_of_notMem hresolvedNe hmarker⟩
    rw [← h]
    refine resolve?_congr ?_ (Nat.le_refl _)
    rw [List.take_append_of_le_length (by simp [hcount]), List.take_take, Nat.min_self]

/-- A path with letters beyond ASCII, and one identifier too many. -/
theorem resolution_of_path_surplus :
    markerCount "/ENTRY[entry*]/TIP[µm*]/größe" ≤ [2, 11, (5 : UInt32)].length ∧
      resolve? "/ENTRY[entry*]/TIP[µm*]/größe" [2, 11, 5] =
        some "/ENTRY[entry2]/TIP[µm11]/größe" ∧
      resolve? "/ENTRY[entry*]/TIP[µm*]/größe" [2, 11] =
        some "/ENTRY[entry2]/TIP[µm11]/größe" ∧
      resolve? "/ENTRY[entry2]/TIP[µm11]/größe" [7] =
        some "/ENTRY[entry2]/TIP[µm11]/größe" := by
  have h : resolve? "/ENTRY[entry*]/TIP[µm*]/größe" [2, 11, 5] =
      some "/ENTRY[entry2]/TIP[µm11]/größe" := by decide
  have hresolution := (resolution_of_path _ _).2 _ h
  exact ⟨by decide, h, hresolution.2.2.1 [], hresolution.2.2.2 [7]⟩

example : resolve? "/ENTRY[entry**]/sample" [1, 2] = none := by decide

end AtomProbe.VariadicPath
