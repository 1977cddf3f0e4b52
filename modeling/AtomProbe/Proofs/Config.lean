import AtomProbe.Config
import AtomProbe.Proofs.Files.Tree

/-!
# `AtomProbe.Proofs.Config`: where the templates of a batch lie

The template of an entry lies in the directory of the configuration,
under a name with the number of the entry. Numbers have four digits at
least, and more if they need them.

* `place_templatePath`: the location of a template, if its directory can
  be reached.
* `eq_of_place`: templates of different entries lie at different
  locations.
* `nodup_ids_of_validate`: the entries of a valid configuration are
  different.
-/

set_option autoImplicit false

namespace AtomProbe.Config

/-! ### The name of a template -/

/-- The name of the template of an entry. -/
def fileName (id : UInt32) : String := "entry_" ++ entryDigits id ++ ".yaml"

theorem toList_fileName (id : UInt32) :
    (fileName id).toList = "entry_".toList ++ Calendar.padded 4 id.toNat ++ ".yaml".toList := by
  simp only [fileName, entryDigits, String.toList_append, String.toList_ofList]

/-- The zeros in front of a number do not change it. -/
theorem ofDigitChars_padded (width n : Nat) :
    Nat.ofDigitChars 10 (Calendar.padded width n) 0 = n := by
  rw [Calendar.padded, Nat.ofDigitChars_append, Nat.ofDigitChars_replicate_zero, Nat.mul_zero,
    Nat.ofDigitChars_ten_toDigits]

/-- Different entries have templates of different names, also beyond four
digits. -/
theorem fileName_injective {id id' : UInt32} (h : fileName id = fileName id') : id = id' := by
  have hlist := congrArg String.toList h
  rw [toList_fileName, toList_fileName] at hlist
  have hdigits := List.append_cancel_left (List.append_cancel_right hlist)
  have hnumber := congrArg (fun cs => Nat.ofDigitChars 10 cs 0) hdigits
  simp only [ofDigitChars_padded] at hnumber
  exact UInt32.toNat_inj.1 hnumber

theorem isDigit_of_mem_padded {width n : Nat} {c : Char} (h : c ∈ Calendar.padded width n) :
    c.isDigit = true := by
  rcases List.mem_append.1 h with h | h
  · obtain ⟨-, rfl⟩ := List.mem_replicate.1 h
    rfl
  · exact Nat.isDigit_of_mem_toDigits (by decide) (by decide) h

theorem slash_notMem_fileName (id : UInt32) : '/' ∉ (fileName id).toList := by
  intro h
  rw [toList_fileName, List.mem_append, List.mem_append] at h
  rcases h with (h | h) | h
  · exact absurd h (by decide)
  · exact absurd (isDigit_of_mem_padded h) (by decide)
  · exact absurd h (by decide)

theorem head?_fileName (id : UInt32) : (fileName id).toList.head? = some 'e' := by
  rw [toList_fileName, List.append_assoc]
  rfl

/-- The name of a template is a proper name. -/
theorem not_isDots_fileName (id : UInt32) : ¬ FileTree.isDots (fileName id) := by
  have hhead := head?_fileName id
  rintro (h | h | h)
  all_goals
    rw [h] at hhead
    exact absurd hhead (by decide)

/-! ### The path of a template -/

/-- The names that lead to the directory for the templates. -/
def directoryNames (config : Config) : List String :=
  if config.output.toList.getLast? = some '/' then (FileTree.namesOf config.output).dropLast
  else FileTree.namesOf config.output

theorem namesOf_append {path name : String} {before : List Char}
    (hpath : path.toList = before ++ '/' :: name.toList) (hname : '/' ∉ name.toList) :
    FileTree.namesOf path = (before.splitOn '/').map String.ofList ++ [name] := by
  rw [FileTree.namesOf, hpath, List.splitOn_append_cons_self, List.splitOn_eq_singleton hname,
    List.map_append, List.map_singleton, String.ofList_toList]

/-- Different entries have templates under different paths. -/
theorem templatePath_injective {config : Config} {id id' : UInt32}
    (h : config.templatePath id = config.templatePath id') : id = id' := by
  have hrelative (id : UInt32) : Path.isAbsolute (fileName id) = false := by
    rw [Path.isAbsolute, head?_fileName]
    rfl
  change Path.join config.output (fileName id) = Path.join config.output (fileName id') at h
  simp only [Path.join, hrelative, Bool.false_eq_true, false_or] at h
  -- what stands before the name does not depend on the entry
  refine fileName_injective ?_
  split at h
  · exact h
  · split at h
    · exact String.append_right_inj _ |>.1 h
    · exact String.append_right_inj _ |>.1 h

variable {config : Config} (houtput : config.output ≠ "")
include houtput

/-- The path of a template: a slash stands between the directory and the
name. -/
theorem exists_toList_templatePath :
    ∃ before : List Char, config.directoryNames = (before.splitOn '/').map String.ofList ∧
      ∀ id, (config.templatePath id).toList = before ++ '/' :: (fileName id).toList ∧
        (config.templatePath id).toList.head? = config.output.toList.head? := by
  have hrelative (id : UInt32) : Path.isAbsolute (fileName id) = false := by
    rw [Path.isAbsolute, head?_fileName]
    rfl
  have hjoin (id : UInt32) : config.templatePath id =
      if config.output.toList.getLast? = some '/' then config.output ++ fileName id
      else config.output ++ "/" ++ fileName id := by
    change Path.join config.output (fileName id) = _
    rw [Path.join, if_neg]
    simp [hrelative, houtput]
  rw [directoryNames]
  by_cases hlast : config.output.toList.getLast? = some '/'
  · -- a slash at the end of the directory is the one before the name
    obtain ⟨before, hbefore⟩ := List.getLast?_eq_some_iff.1 hlast
    refine ⟨before, ?_, fun id => ?_⟩
    · rw [if_pos hlast, FileTree.namesOf, hbefore, List.splitOn_append_cons_self]
      simp
    · rw [hjoin, if_pos hlast, String.toList_append, hbefore]
      simp
  · have hnil : config.output.toList ≠ [] := fun h => houtput (String.toList_inj.1 h)
    refine ⟨config.output.toList, by rw [if_neg hlast, FileTree.namesOf], fun id => ?_⟩
    rw [hjoin, if_neg hlast, String.toList_append, String.toList_append, List.append_assoc]
    exact ⟨rfl, by rw [List.head?_append, List.head?_eq_some_head hnil, Option.some_or]⟩

theorem namesOf_templatePath (id : UInt32) :
    FileTree.namesOf (config.templatePath id) = config.directoryNames ++ [fileName id] := by
  obtain ⟨before, hnames, hpath⟩ := exists_toList_templatePath houtput
  rw [hnames, namesOf_append (hpath id).1 (slash_notMem_fileName id)]

theorem origin_templatePath (t : FileTree) (id : UInt32) :
    t.origin (config.templatePath id) = t.origin config.output := by
  obtain ⟨before, hnames, hpath⟩ := exists_toList_templatePath houtput
  rw [FileTree.origin, FileTree.origin, (hpath id).2]

omit houtput in
/-- The directory for the templates. -/
def directory (config : Config) (t : FileTree) : Except FileError Location :=
  config.directoryNames.foldlM t.enter (t.origin config.output)

theorem follow_templatePath (t : FileTree) (id : UInt32) :
    t.follow (config.templatePath id) = (do
      FileTree.checkPath (config.templatePath id)
      let above ← config.directory t
      t.enter above (fileName id)) := by
  rw [FileTree.follow, namesOf_templatePath houtput, origin_templatePath houtput, directory,
    List.foldlM_append]
  simp

/-- A template is written where its path leads to. -/
theorem place_templatePath (t : FileTree) (id : UInt32) :
    t.place (config.templatePath id) = t.follow (config.templatePath id) := by
  -- the last name of the path is the proper name of the template
  have hname : (fileName id == "") = false :=
    beq_false_of_ne fun h => not_isDots_fileName id (.inl h)
  have hnames : (FileTree.namesOf (config.templatePath id)).reverse.dropWhile (· == "") =
      fileName id :: config.directoryNames.reverse := by
    rw [namesOf_templatePath houtput, List.reverse_append, List.reverse_singleton,
      List.singleton_append, List.dropWhile_cons, hname]
    rfl
  have hlast : ¬ ((FileTree.namesOf (config.templatePath id)).getLast? = some "" ∨
      fileName id = "." ∨ fileName id = "..") := by
    rw [namesOf_templatePath houtput, List.getLast?_concat, Option.some_inj]
    exact not_isDots_fileName id
  rw [follow_templatePath houtput, FileTree.place]
  simp only [hnames, List.reverse_reverse, if_neg hlast, origin_templatePath houtput]
  simp only [FileTree.requireDirectory_enter, directory]

/-- A template lies below the directory for the templates. -/
theorem of_place {t : FileTree} {id : UInt32} {location : Location}
    (h : t.place (config.templatePath id) = .ok location) :
    ∃ above, config.directory t = .ok above ∧ t.at? above = some .directory ∧
      location = fileName id :: above := by
  rw [place_templatePath houtput, follow_templatePath houtput] at h
  cases hpath : FileTree.checkPath (config.templatePath id) with
  | error e =>
    rw [hpath] at h
    cases h
  | ok _ =>
    rw [hpath] at h
    cases habove : config.directory t with
    | error e =>
      rw [habove] at h
      cases h
    | ok above =>
      rw [habove] at h
      -- the last step enters the name of the file, from a directory
      have henter : t.enter above (fileName id) = .ok location := h
      have hdirectory := FileTree.at?_of_enter henter
      rw [FileTree.enter_of_directory hdirectory (not_isDots_fileName id)] at henter
      split at henter
      · cases henter
      · cases henter
        exact ⟨above, rfl, hdirectory, rfl⟩

/-- No template lies where that of another entry does. -/
theorem eq_of_place {t : FileTree} {id id' : UInt32} {location : Location}
    (h : t.place (config.templatePath id) = .ok location)
    (h' : t.place (config.templatePath id') = .ok location) : id = id' := by
  obtain ⟨above, -, -, rfl⟩ := of_place houtput h
  obtain ⟨above', -, -, heq⟩ := of_place houtput h'
  exact fileName_injective (List.cons.inj heq).1

/-- Once a template has a place, the paths of all templates lead to the
same locations wherever the directories are the same. -/
theorem follow_eq_of_place {t t' : FileTree} (hsame : t.SameDirectories t') {id : UInt32}
    {location : Location} (h : t.place (config.templatePath id) = .ok location) (id' : UInt32) :
    t'.follow (config.templatePath id') = t.follow (config.templatePath id') := by
  obtain ⟨above, habove, hdirectory, -⟩ := of_place houtput h
  have habove' : config.directory t' = .ok above := by
    rw [directory, hsame.origin_eq]
    exact hsame.foldlM_enter habove
  have henter : t'.enter above (fileName id') = t.enter above (fileName id') := by
    rw [FileTree.enter_of_directory hdirectory (not_isDots_fileName id'),
      FileTree.enter_of_directory ((hsame.directories above).2 hdirectory)
        (not_isDots_fileName id')]
  rw [follow_templatePath houtput, follow_templatePath houtput, habove, habove']
  simp only [bind, Except.bind, henter]

omit houtput

/-! ### Validity -/

/-- Identifiers pass the check if they can be used, differ, and are not
those before. -/
theorem checkIds_eq_ok_iff {seen ids : List UInt32} :
    checkIds seen ids = .ok () ↔ ids.Nodup ∧ ∀ id ∈ ids, id ≠ 0 ∧ id ∉ seen := by
  induction ids generalizing seen with
  | nil => simp [checkIds]
  | cons id ids ih =>
    rw [checkIds]
    split
    · next hzero => simp [hzero]
    · next hzero =>
      split
      · next hseen => simp [hseen]
      · next hseen =>
        rw [ih, List.nodup_cons, List.forall_mem_cons]
        constructor
        · -- an identifier that has passed is one of those before for the rest
          rintro ⟨hnodup, hids⟩
          exact ⟨⟨fun hmem => (hids id hmem).2 List.mem_cons_self, hnodup⟩, ⟨hzero, hseen⟩,
            fun id' hid' => ⟨(hids id' hid').1,
              fun hmem => (hids id' hid').2 (List.mem_cons_of_mem id hmem)⟩⟩
        · rintro ⟨⟨hnotMem, hnodup⟩, -, hids⟩
          refine ⟨hnodup, fun id' hid' => ⟨(hids id' hid').1, fun hmem => ?_⟩⟩
          rcases List.mem_cons.1 hmem with rfl | hmem
          · exact hnotMem hid'
          · exact (hids id' hid').2 hmem

/-- A configuration is valid if it has entries, and their identifiers can
be used and differ. -/
theorem validate_eq_ok_iff {config : Config} :
    config.validate = .ok () ↔ config.entries ≠ [] ∧ (config.entries.map (·.id)).Nodup ∧
      ∀ id ∈ config.entries.map (·.id), id ≠ 0 := by
  rw [validate]
  split
  · next hempty => simp [List.isEmpty_iff.1 hempty]
  · next hempty =>
    rw [List.isEmpty_iff] at hempty
    simp [checkIds_eq_ok_iff, hempty]

/-- The entries of a valid configuration are different. -/
theorem nodup_ids_of_validate {config : Config} (h : config.validate = .ok ()) :
    (config.entries.map (·.id)).Nodup :=
  (validate_eq_ok_iff.1 h).2.1

end AtomProbe.Config
