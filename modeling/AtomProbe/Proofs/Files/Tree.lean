import AtomProbe.Files.Tree

/-!
# `AtomProbe.Proofs.Files.Tree`: what writing a file changes

A file is written at one location. What lies elsewhere stays as it is,
and no directory comes or goes.

* `written_of_write`: a file that was written is found at its location,
  and nothing else has changed.
* `SameDirectories.foldlM_enter`: where the directories are the same,
  names that lead to a location still lead there.
-/

set_option autoImplicit false

namespace AtomProbe.FileTree

/-! ### What lies at a location -/

theorem lookup_filter_ne {location l : Location} (h : l ≠ location)
    (entries : List (Location × FileEntry)) :
    (entries.filter (·.1 != location)).lookup l = entries.lookup l := by
  induction entries with
  | nil => rfl
  | cons entry entries ih =>
    obtain ⟨at_, e⟩ := entry
    by_cases hat : at_ = location
    · subst hat
      have hne : (l == at_) = false := beq_false_of_ne h
      rw [List.filter_cons_of_neg (by simp), ih, List.lookup_cons, hne]
    · rw [List.filter_cons_of_pos (by simpa using hat), List.lookup_cons, List.lookup_cons, ih]

/-- An entry that was put at a location is found there, and nothing else
has changed. -/
theorem at?_set (t : FileTree) {location : Location} (hroot : location ≠ []) (entry : FileEntry)
    (l : Location) :
    (t.set location entry).at? l = if l = location then some entry else t.at? l := by
  by_cases hl : l = location
  · subst hl
    rw [at?, if_neg hroot, if_pos rfl, set, List.lookup_cons_self]
  · have hne : (l == location) = false := beq_false_of_ne hl
    rw [at?, at?, if_neg hl, set, List.lookup_cons, hne]
    simp only [lookup_filter_ne hl]

/-! ### Directories -/

/-- Whether two trees have the same directories. -/
structure SameDirectories (t t' : FileTree) : Prop where
  workingDirectory : t'.workingDirectory = t.workingDirectory
  directories : ∀ l, t'.at? l = some .directory ↔ t.at? l = some .directory

theorem requireDirectory_eq_ok {t : FileTree} {location : Location} :
    t.requireDirectory location = .ok () ↔ t.at? location = some .directory := by
  rw [requireDirectory]
  cases t.at? location with
  | none => simp
  | some entry => cases entry <;> simp

/-- Only a directory can be entered. -/
theorem at?_of_enter {t : FileTree} {location l : Location} {name : String}
    (h : t.enter location name = .ok l) : t.at? location = some .directory := by
  rw [← requireDirectory_eq_ok]
  rw [enter] at h
  cases hdirectory : t.requireDirectory location with
  | ok _ => rfl
  | error e =>
    rw [hdirectory] at h
    cases h

theorem requireDirectory_enter (t : FileTree) (location : Location) (name : String) :
    (t.requireDirectory location >>= fun _ => t.enter location name) = t.enter location name := by
  cases h : t.requireDirectory location with
  | ok _ => rfl
  | error e =>
    rw [enter, h]
    rfl

/-- The names that are no step to an entry. -/
def isDots (name : String) : Prop := name = "" ∨ name = "." ∨ name = ".."

/-- To enter a proper name is to go below the directory. -/
theorem enter_of_directory {t : FileTree} {location : Location} {name : String}
    (hdirectory : t.at? location = some .directory) (hname : ¬ isDots name) :
    t.enter location name =
      if maximalName < name.utf8ByteSize then .error .nameTooLong else .ok (name :: location) := by
  rw [isDots, not_or, not_or] at hname
  obtain ⟨hempty, hdot, hdots⟩ := hname
  have hrequire : t.requireDirectory location = .ok () := requireDirectory_eq_ok.2 hdirectory
  rw [enter, hrequire]
  change (if _ then _ else _) = _
  rw [if_neg (by simp [hempty, hdot]), if_neg hdots]
  rfl

namespace SameDirectories

theorem refl (t : FileTree) : SameDirectories t t := ⟨rfl, fun _ => Iff.rfl⟩

theorem symm {t t' : FileTree} (h : SameDirectories t t') : SameDirectories t' t :=
  ⟨h.workingDirectory.symm, fun l => (h.directories l).symm⟩

theorem trans {t t' t'' : FileTree} (h : SameDirectories t t') (h' : SameDirectories t' t'') :
    SameDirectories t t'' :=
  ⟨h'.workingDirectory.trans h.workingDirectory,
    fun l => (h'.directories l).trans (h.directories l)⟩

variable {t t' : FileTree} (h : SameDirectories t t')
include h

theorem origin_eq (path : String) : t'.origin path = t.origin path := by
  rw [origin, origin, h.workingDirectory]

theorem enter_eq_ok {location l : Location} {name : String} (hl : t.enter location name = .ok l) :
    t'.enter location name = .ok l := by
  have hdirectory := requireDirectory_eq_ok.2 (at?_of_enter hl)
  have hdirectory' := requireDirectory_eq_ok.2 ((h.directories location).2 (at?_of_enter hl))
  rw [enter, hdirectory] at hl
  rw [enter, hdirectory']
  exact hl

/-- Names that lead to a location still lead there. -/
theorem foldlM_enter {names : List String} {location l : Location}
    (hl : names.foldlM t.enter location = .ok l) : names.foldlM t'.enter location = .ok l := by
  induction names generalizing location with
  | nil => exact hl
  | cons name names ih =>
    rw [List.foldlM_cons] at hl ⊢
    cases hname : t.enter location name with
    | error e =>
      rw [hname] at hl
      cases hl
    | ok next =>
      rw [hname] at hl
      rw [h.enter_eq_ok hname]
      exact ih hl

end SameDirectories

/-! ### What a path leads to -/

theorem namesOf_ne_nil (path : String) : namesOf path ≠ [] := by
  simp [namesOf, List.splitOn_ne_nil]

/-- A path at which a file may be created leads to the place of the file. -/
theorem follow_of_place {t : FileTree} {path : String} {l : Location}
    (h : t.place path = .ok l) : t.follow path = .ok l := by
  rw [place] at h
  rw [follow]
  cases hcheck : checkPath path with
  | error e =>
    rw [hcheck] at h
    cases h
  | ok _ =>
    rw [hcheck] at h
    simp only [bind, Except.bind] at h ⊢
    obtain ⟨before, last, hnames⟩ : ∃ before last, namesOf path = before ++ [last] :=
      ⟨_, _, (List.dropLast_concat_getLast (namesOf_ne_nil path)).symm⟩
    rw [hnames, List.reverse_append, List.reverse_singleton, List.singleton_append,
      List.getLast?_concat] at h
    rw [hnames, List.foldlM_append]
    by_cases hempty : last = ""
    · -- a path that ends with a slash is that of a directory, and has no place
      subst hempty
      cases hproper : ("" :: before.reverse).dropWhile (· == "") with
      | nil =>
        rw [hproper] at h
        cases h
      | cons name names =>
        simp only [hproper, true_or, if_true] at h
        split at h
        · cases h
        · split at h <;> cases h
    · rw [List.dropWhile_cons_of_neg (by simpa using hempty)] at h
      simp only [List.reverse_reverse] at h
      cases habove : before.foldlM t.enter (t.origin path) with
      | error e =>
        rw [habove] at h
        cases h
      | ok above =>
        simp only [habove] at h
        split at h
        · cases h
        · split at h
          · cases h
          · show (t.enter above last >>= fun l => pure l) = .ok l
            rw [bind_pure]
            exact h

/-- Where the directories are the same, a path that leads to a location
still leads there. -/
theorem SameDirectories.follow_eq_ok {t t' : FileTree} (hsame : SameDirectories t t')
    {path : String} {l : Location} (h : t.follow path = .ok l) : t'.follow path = .ok l := by
  rw [follow] at h ⊢
  rw [hsame.origin_eq]
  cases hcheck : checkPath path with
  | error e =>
    rw [hcheck] at h
    cases h
  | ok _ =>
    rw [hcheck] at h
    exact hsame.foldlM_enter h

theorem find_of_follow {t : FileTree} {path : String} {l : Location} {entry : FileEntry}
    (hfollow : t.follow path = .ok l) (hat : t.at? l = some entry) : t.find path = .ok entry := by
  rw [find, hfollow]
  simp only [bind, Except.bind, hat]
  rfl

/-- A path leads to the same entry if it leads to the same location, and
the same lies there. -/
theorem find_congr {t t' : FileTree} {path : String} (hfollow : t'.follow path = t.follow path)
    (hat : ∀ l, t.follow path = .ok l → t'.at? l = t.at? l) : t'.find path = t.find path := by
  rw [find, find, hfollow]
  cases hl : t.follow path with
  | error e => rfl
  | ok l => simp only [bind, Except.bind, hat l hl]

/-- Whether two trees hold the same under a path, as far as it can be
told by reading what is there. -/
def SameUnder (t t' : FileTree) (path : String) : Prop :=
  t'.isPresent path = t.isPresent path ∧ (t.isPresent path = true → t'.read path = t.read path)

theorem SameUnder.refl (t : FileTree) (path : String) : SameUnder t t path := ⟨rfl, fun _ => rfl⟩

theorem SameUnder.trans {t t' t'' : FileTree} {path : String} (h : SameUnder t t' path)
    (h' : SameUnder t' t'' path) : SameUnder t t'' path :=
  ⟨h'.1.trans h.1, fun hpresent => (h'.2 (h.1.trans hpresent)).trans (h.2 hpresent)⟩

theorem sameUnder_of_find_eq {t t' : FileTree} {path : String} (h : t'.find path = t.find path) :
    SameUnder t t' path :=
  ⟨by rw [isPresent, isPresent, h], fun _ => by rw [read, read, h]⟩

/-- What can be read is there. -/
theorem isPresent_of_read {t : FileTree} {path : String} {content : ByteArray}
    (h : t.read path = .ok content) : t.isPresent path = true := by
  rw [read] at h
  rw [isPresent]
  cases hfind : t.find path with
  | ok entry => rfl
  | error e =>
    rw [hfind] at h
    cases h

/-- The empty path leads nowhere. -/
theorem isPresent_empty (t : FileTree) : t.isPresent "" = false := rfl

/-! ### Writing -/

/-- Whether a tree has come from another one by writing a file at a
location. A device there takes the content and stays what it is. -/
structure Written (before after : FileTree) (location : Location) (content : ByteArray) :
    Prop where
  directories : SameDirectories before after
  content : after.at? location = some (.file content) ∨
    before.at? location = some .sink ∧ after.at? location = some .sink
  others : ∀ l, l ≠ location → after.at? l = before.at? l

theorem written_set {t : FileTree} {location : Location} {content : ByteArray}
    (h : t.at? location ≠ some .directory) :
    Written t (t.set location (.file content)) location content := by
  -- the root is a directory
  have hroot : location ≠ [] := fun hempty => h (by rw [hempty]; rfl)
  refine ⟨⟨rfl, fun l => ?_⟩, .inl ?_, fun l hl => ?_⟩
  · rw [at?_set t hroot]
    split
    · next hl =>
      subst hl
      simp [h]
    · rfl
  · rw [at?_set t hroot, if_pos rfl]
  · rw [at?_set t hroot, if_neg hl]

/-- A file that was written lies at the place of its path, and nothing
else has changed. -/
theorem written_of_write {t t' : FileTree} {path : String} {content : ByteArray}
    (h : t.write path content = .ok t') :
    ∃ location, t.place path = .ok location ∧ Written t t' location content := by
  rw [write] at h
  cases hplace : t.place path with
  | error e =>
    rw [hplace] at h
    cases h
  | ok location =>
    rw [hplace] at h
    refine ⟨location, rfl, ?_⟩
    cases hat : t.at? location with
    | none =>
      simp only [bind, Except.bind, hat] at h
      cases h
      exact written_set (by simp [hat])
    | some entry =>
      cases entry with
      | directory =>
        simp only [bind, Except.bind, hat] at h
        cases h
      | sink =>
        simp only [bind, Except.bind, hat] at h
        cases h
        exact ⟨.refl t, .inr ⟨hat, hat⟩, fun l _ => rfl⟩
      | file old =>
        simp only [bind, Except.bind, hat] at h
        cases h
        exact written_set (by simp [hat])

/-- A file can be written under each path that has a place, unless there
is a directory. -/
theorem exists_write_iff {t : FileTree} {path : String} {content : ByteArray} :
    (∃ t', t.write path content = .ok t') ↔
      ∃ l, t.place path = .ok l ∧ t.at? l ≠ some .directory := by
  rw [write]
  cases t.place path with
  | error e => simp [bind, Except.bind]
  | ok l =>
    simp only [bind, Except.bind, Except.ok.injEq, exists_eq_left']
    cases t.at? l with
    | none => simp [pure, Except.pure]
    | some entry => cases entry <;> simp [pure, Except.pure, throw, throwThe, MonadExceptOf.throw]

/-- What lies where a file was written depends on what it was written to,
since a device stays what it is. -/
theorem at?_of_write {t t' : FileTree} {path : String} {content : ByteArray} {l : Location}
    (h : t.write path content = .ok t') (hplace : t.place path = .ok l) :
    t'.at? l = match t.at? l with
      | some .sink => some .sink
      | _ => some (.file content) := by
  have hset (hdirectory : t.at? l ≠ some .directory) :
      (t.set l (.file content)).at? l = some (.file content) := by
    have hroot : l ≠ [] := fun hempty => hdirectory (by rw [hempty]; rfl)
    rw [at?_set t hroot, if_pos rfl]
  rw [write, hplace] at h
  simp only [bind, Except.bind] at h
  cases hat : t.at? l with
  | none =>
    rw [hat] at h
    cases h
    exact hset (by simp [hat])
  | some entry =>
    rw [hat] at h
    cases entry with
    | directory => cases h
    | sink =>
      cases h
      exact hat
    | file old =>
      cases h
      exact hset (by simp [hat])

/-- A path that does not lead to the place of a file that was written
holds what it held. -/
theorem Written.sameUnder {before after : FileTree} {location : Location} {content : ByteArray}
    (h : Written before after location content) {path : String}
    (hpath : before.follow path ≠ .ok location) : SameUnder before after path := by
  cases hfollow : before.follow path with
  | ok l =>
    have hne : l ≠ location := fun heq => hpath (heq ▸ hfollow)
    have hfollow' : after.follow path = before.follow path := by
      rw [hfollow, h.directories.follow_eq_ok hfollow]
    refine sameUnder_of_find_eq (find_congr hfollow' fun l' hl' => h.others l' ?_)
    rw [hfollow] at hl'
    exact Except.ok.inj hl' ▸ hne
  | error e =>
    -- a path that led nowhere still leads nowhere, maybe for another cause
    have hafter : after.isPresent path = false := by
      cases hfollow' : after.follow path with
      | ok l =>
        have hback := h.directories.symm.follow_eq_ok hfollow'
        rw [hfollow] at hback
        cases hback
      | error e' =>
        rw [isPresent, find, hfollow']
        rfl
    have hbefore : before.isPresent path = false := by
      rw [isPresent, find, hfollow]
      rfl
    exact ⟨hafter.trans hbefore.symm, fun hpresent => by rw [hbefore] at hpresent; cases hpresent⟩

/-- What was there under a path is still there after a file was written. -/
theorem Written.isPresent {before after : FileTree} {location : Location} {content : ByteArray}
    (h : Written before after location content) {path : String}
    (hpath : before.isPresent path = true) : after.isPresent path = true := by
  by_cases hplace : before.follow path = .ok location
  · have hfollow := h.directories.follow_eq_ok hplace
    rcases h.content with hfile | ⟨-, hsink⟩
    · rw [FileTree.isPresent, find_of_follow hfollow hfile]
      rfl
    · rw [FileTree.isPresent, find_of_follow hfollow hsink]
      rfl
  · rw [(h.sameUnder hplace).1, hpath]

/-- A path under which a file was written leads to it, unless it leads to
a device. -/
theorem find_of_write {t t' : FileTree} {path : String} {content : ByteArray}
    (h : t.write path content = .ok t') :
    t'.find path = .ok (.file content) ∨ t.find path = .ok .sink := by
  obtain ⟨location, hplace, hwritten⟩ := written_of_write h
  have hfollow := follow_of_place hplace
  rcases hwritten.content with hfile | ⟨hsink, -⟩
  · exact .inl (find_of_follow (hwritten.directories.follow_eq_ok hfollow) hfile)
  · exact .inr (find_of_follow hfollow hsink)

end AtomProbe.FileTree
