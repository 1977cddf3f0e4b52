import Mathlib.Data.List.TakeWhile
import AtomProbe.Files.Path

/-!
# `AtomProbe.Proofs.Files.Path`: a name below a directory

A directory and a name are joined with a slash. The parent of the path is
the directory again, and its last name is that of the name alone. The
ends of paths are trimmed, so this holds of directories that have nothing
there to be trimmed.
-/

set_option autoImplicit false

namespace AtomProbe.Path

/-- Nothing is trimmed from a path that ends neither with a slash nor
with a slash and a dot. -/
theorem trimEnd_eq_self {cs : List Char} (hslash : ¬ ['/'] <+: cs) (hdot : ¬ ['.', '/'] <+: cs) :
    trimEnd cs = cs := by
  unfold trimEnd
  split
  · rfl
  · exact absurd (by simp) hslash
  · exact absurd (by simp) hdot
  · rfl

/-- A directory whose end is not trimmed. -/
structure EndsProperly (directory : String) : Prop where
  nonempty : directory ≠ ""
  slash : ¬ ['/'] <:+ directory.toList
  dot : ¬ ['/', '.'] <:+ directory.toList

theorem EndsProperly.trimEnd_eq {directory : String} (h : EndsProperly directory) :
    trimEnd directory.toList.reverse = directory.toList.reverse := by
  refine trimEnd_eq_self (fun hslash => h.slash ?_) fun hdot => h.dot ?_
  · rw [← List.reverse_prefix]
    exact hslash
  · rw [← List.reverse_prefix]
    exact hdot

/-- A single name, which is not that of the directory itself. -/
structure IsName (name : String) : Prop where
  nonempty : name ≠ ""
  slash : '/' ∉ name.toList
  dot : name ≠ "."

instance (name : String) : Decidable (IsName name) :=
  decidable_of_iff (name ≠ "" ∧ '/' ∉ name.toList ∧ name ≠ ".")
    ⟨fun ⟨nonempty, slash, dot⟩ => ⟨nonempty, slash, dot⟩, fun h => ⟨h.nonempty, h.slash, h.dot⟩⟩

/-- Whatever stands in front of a name, nothing behind it is to be
trimmed. -/
theorem IsName.not_prefix {name : String} (h : IsName name) (cs : List Char) :
    ¬ ['/'] <+: name.toList.reverse ++ cs ∧ ¬ ['.', '/'] <+: name.toList.reverse ++ cs := by
  cases hreverse : name.toList.reverse with
  | nil => exact absurd (String.toList_eq_nil_iff.1 (List.reverse_eq_nil_iff.1 hreverse)) h.nonempty
  | cons c rest =>
    have hslash : '/' ∉ c :: rest := by
      rw [← hreverse, List.mem_reverse]
      exact h.slash
    rw [List.mem_cons, not_or] at hslash
    refine ⟨fun hprefix => hslash.1 (List.cons_prefix_cons.1 hprefix).1, fun hprefix => ?_⟩
    obtain ⟨rfl, hrest⟩ := List.cons_prefix_cons.1 hprefix
    cases rest with
    | nil =>
      -- the name would be a single dot
      refine h.dot (String.toList_inj.1 ?_)
      rw [← List.reverse_reverse name.toList, hreverse]
      rfl
    | cons c' rest => exact hslash.2 ((List.cons_prefix_cons.1 hrest).1 ▸ List.mem_cons_self)

theorem IsName.trimEnd_append {name : String} (h : IsName name) (cs : List Char) :
    trimEnd (name.toList.reverse ++ cs) = name.toList.reverse ++ cs :=
  trimEnd_eq_self (h.not_prefix cs).1 (h.not_prefix cs).2

theorem IsName.trimEnd_eq {name : String} (h : IsName name) :
    trimEnd name.toList.reverse = name.toList.reverse := by
  have htrim := h.trimEnd_append []
  rw [List.append_nil] at htrim
  exact htrim

/-- No slash is passed on the way to the beginning of a name. -/
theorem IsName.passed {name : String} (h : IsName name) :
    ∀ c ∈ name.toList.reverse, (c != '/') = true := fun _ hc =>
  bne_iff_ne.2 fun heq => h.slash (heq ▸ List.mem_reverse.1 hc)

theorem reverse_below (directory name : String) :
    (directory ++ "/" ++ name).toList.reverse =
      name.toList.reverse ++ '/' :: directory.toList.reverse := by
  have hslash : "/".toList = ['/'] := rfl
  simp only [String.toList_append, List.reverse_append, hslash, List.reverse_singleton,
    List.singleton_append]

/-- A path that ends with a name ends properly. -/
theorem IsName.endsProperly {name path : String} (h : IsName name) {cs : List Char}
    (hpath : path.toList.reverse = name.toList.reverse ++ cs) : EndsProperly path := by
  have hprefix := h.not_prefix cs
  rw [← hpath] at hprefix
  refine ⟨?_, fun hslash => hprefix.1 ?_, fun hdot => hprefix.2 ?_⟩
  · rintro rfl
    have hnil := (List.append_eq_nil_iff.1 hpath.symm).1
    exact h.nonempty (String.toList_eq_nil_iff.1 (List.reverse_eq_nil_iff.1 hnil))
  · rw [← List.reverse_prefix] at hslash
    exact hslash
  · rw [← List.reverse_prefix] at hdot
    exact hdot

/-- The parent of a name below a directory is the directory. -/
theorem parent?_below {directory name : String} (hdirectory : EndsProperly directory)
    (hname : IsName name) : parent? (directory ++ "/" ++ name) = some directory := by
  -- the slash between the directory and the name is trimmed
  have hparent : trimEnd ('/' :: directory.toList.reverse) = directory.toList.reverse := by
    have htrim := hdirectory.trimEnd_eq
    cases hreverse : directory.toList.reverse with
    | nil =>
      exact absurd (String.toList_eq_nil_iff.1 (List.reverse_eq_nil_iff.1 hreverse))
        hdirectory.nonempty
    | cons c cs =>
      rw [hreverse] at htrim
      rw [trimEnd, htrim]
      exact List.cons_ne_nil c cs
  rw [parent?, reverse_below, hname.trimEnd_append, List.dropWhile_append_of_pos hname.passed,
    List.dropWhile_cons_of_neg (by decide), hparent, List.reverse_reverse, String.ofList_toList,
    if_neg]
  rintro (h | h)
  · simp at h
  · -- only the root begins with the slash at its end
    have hlength := congrArg List.length h
    simp only [List.length_append, List.length_cons, List.length_reverse, List.length_nil]
      at hlength
    exact hdirectory.nonempty
      (String.toList_eq_nil_iff.1 (List.length_eq_zero_iff.1 (by omega)))

/-- The parent of a single name is the directory where paths begin. -/
theorem parent?_name {name : String} (hname : IsName name) : parent? name = some "" := by
  rw [parent?, hname.trimEnd_eq, List.dropWhile_eq_nil_iff.2 hname.passed, if_neg]
  · rw [trimEnd_eq_self (by simp) (by simp)]
    rfl
  · rintro (h | h)
    · exact hname.nonempty (String.toList_eq_nil_iff.1 (List.reverse_eq_nil_iff.1 h))
    · refine hname.slash (List.mem_reverse.1 ?_)
      rw [h]
      exact List.mem_cons_self

/-- The last name does not depend on the directory. -/
theorem fileName?_below {name : String} (hname : IsName name) (directory : String) :
    fileName? (directory ++ "/" ++ name) = fileName? name := by
  rw [fileName?, fileName?, reverse_below, hname.trimEnd_append, hname.trimEnd_eq,
    List.takeWhile_append_of_pos hname.passed, List.takeWhile_cons_of_neg (by decide),
    List.append_nil, List.takeWhile_eq_self_iff.2 hname.passed]

/-- A single name is the last one of the path that it makes up, unless it
leads to the directory above. -/
theorem fileName?_name {name : String} (hname : IsName name) (hdots : name ≠ "..") :
    fileName? name = some name := by
  rw [fileName?, hname.trimEnd_eq, List.takeWhile_eq_self_iff.2 hname.passed,
    List.reverse_reverse, String.ofList_toList, if_neg]
  rintro (h | h | h)
  · exact hname.nonempty (String.toList_inj.1 h)
  · exact hname.dot (String.toList_inj.1 h)
  · exact hdots (String.toList_inj.1 h)

theorem join_below {directory path : String} (hdirectory : EndsProperly directory)
    (hpath : path.toList.head? ≠ some '/') :
    join directory path = directory ++ "/" ++ path := by
  have habsolute : isAbsolute path = false := beq_false_of_ne hpath
  have hslash : directory.toList.getLast? ≠ some '/' := fun h =>
    hdirectory.slash (List.getLast?_eq_some_iff.1 h |>.elim fun cs h => ⟨cs, h.symm⟩)
  rw [join, habsolute, if_neg (by simp [hdirectory.nonempty]), if_neg hslash]

/-- Where paths begin, a path is what it is. -/
theorem join_empty (path : String) : join "" path = path := by
  rw [join, if_pos (.inr rfl)]

end AtomProbe.Path
