import AtomProbe.Proofs.Files.Path
import AtomProbe.Proofs.Files.Tree

/-!
# `AtomProbe.Proofs.Files.Relocation`: a directory in another place

What lies below the working directory of one tree may lie below any
directory of another one. A path that stays below the working directory
leads to the same thing in both trees, once the directory is put in front
of it (`Placed.find_below`).

Both trees are followed side by side. A location below the working
directory is `l ++ t.workingDirectory`, and `l ++ base` is the one that
corresponds to it.
-/

set_option autoImplicit false

namespace AtomProbe.FileTree

/-- A path that stays below the directory from which it is followed. -/
structure StaysBelow (path : String) : Prop where
  relative : path.toList.head? ≠ some '/'
  parents : ".." ∉ namesOf path

/-- Whether what lies below the working directory of a tree lies in
another tree below a directory, which is at the location `base`. -/
structure Placed (t t' : FileTree) (directory : String) (base : Location) : Prop where
  endsProperly : Path.EndsProperly directory
  follow_eq : t'.follow directory = .ok base
  at?_eq : ∀ l, t'.at? (l ++ base) = t.at? (l ++ t.workingDirectory)

/-! ### A directory in front of a path -/

section

variable {directory path : String}

theorem namesOf_below (directory path : String) :
    namesOf (directory ++ "/" ++ path) = namesOf directory ++ namesOf path := by
  have hlist : (directory ++ "/" ++ path).toList = directory.toList ++ '/' :: path.toList := by
    have hslash : "/".toList = ['/'] := rfl
    rw [String.toList_append, String.toList_append, hslash, List.append_assoc,
      List.singleton_append]
  rw [namesOf, hlist, List.splitOn_append_cons_self, List.map_append]
  rfl

theorem origin_below (t : FileTree) (h : directory ≠ "") (path : String) :
    t.origin (directory ++ "/" ++ path) = t.origin directory := by
  obtain ⟨c, cs, hlist⟩ := List.exists_cons_of_ne_nil (String.toList_eq_nil_iff.not.2 h)
  simp only [origin, String.toList_append, hlist, List.cons_append, List.head?_cons]

theorem checkPath_of_follow {t : FileTree} {l : Location} (h : t.follow path = .ok l) :
    checkPath path = .ok () := by
  rw [follow] at h
  cases hcheck : checkPath path with
  | ok _ => rfl
  | error e =>
    rw [hcheck] at h
    cases h

/-- A directory that may be followed allows for the same paths behind it,
as far as they are not too long. -/
theorem checkPath_below (hdirectory : checkPath directory = .ok ()) (hpath : path ≠ "")
    (hsize : (directory ++ "/" ++ path).utf8ByteSize < pathLimit) :
    checkPath (directory ++ "/" ++ path) = checkPath path := by
  have hzero : directory.toList.contains '\x00' = false := by
    rw [checkPath] at hdirectory
    split at hdirectory
    · cases hdirectory
    · next hzero => exact Bool.eq_false_iff.2 hzero
  have hcontains : (directory ++ "/" ++ path).toList.contains '\x00' =
      path.toList.contains '\x00' := by
    have hslash : "/".toList.contains '\x00' = false := rfl
    rw [String.toList_append, String.toList_append, List.contains_append, List.contains_append,
      hzero, hslash, Bool.false_or, Bool.false_or]
  have hempty : directory ++ "/" ++ path ≠ "" := by simp
  have hbelow : path.utf8ByteSize ≤ (directory ++ "/" ++ path).utf8ByteSize := by
    rw [String.utf8ByteSize_append]
    exact Nat.le_add_left _ _
  rw [checkPath, checkPath, hcontains, if_neg hempty, if_neg hpath, if_neg (Nat.not_le.2 hsize),
    if_neg (Nat.not_le.2 (Nat.lt_of_le_of_lt hbelow hsize))]

end

/-! ### Both trees side by side -/

namespace Placed

variable {t t' : FileTree} {directory : String} {base : Location}
  (h : Placed t t' directory base)
include h

theorem enter (l : Location) {name : String} (hname : name ≠ "..") :
    ∃ r : Except FileError Location,
      t.enter (l ++ t.workingDirectory) name = (r.map (· ++ t.workingDirectory)) ∧
      t'.enter (l ++ base) name = r.map (· ++ base) := by
  have hrequire : t'.requireDirectory (l ++ base) =
      t.requireDirectory (l ++ t.workingDirectory) := by
    rw [requireDirectory, requireDirectory, h.at?_eq]
  rw [FileTree.enter, FileTree.enter, hrequire]
  cases t.requireDirectory (l ++ t.workingDirectory) with
  | error e => exact ⟨.error e, rfl, rfl⟩
  | ok _ =>
    simp only [bind, Except.bind, if_neg hname]
    split
    · exact ⟨.ok l, rfl, rfl⟩
    · split
      · exact ⟨.error .nameTooLong, rfl, rfl⟩
      · exact ⟨.ok (name :: l), rfl, rfl⟩

/-- Names lead to locations that correspond to each other. -/
theorem foldlM_enter {names : List String} (hnames : ".." ∉ names) (l : Location) :
    ∃ r : Except FileError Location,
      names.foldlM t.enter (l ++ t.workingDirectory) = r.map (· ++ t.workingDirectory) ∧
      names.foldlM t'.enter (l ++ base) = r.map (· ++ base) := by
  induction names generalizing l with
  | nil => exact ⟨.ok l, rfl, rfl⟩
  | cons name names ih =>
    rw [List.mem_cons, not_or] at hnames
    obtain ⟨r, hr, hr'⟩ := h.enter l (Ne.symm hnames.1)
    rw [List.foldlM_cons, List.foldlM_cons, hr, hr']
    -- both walks end here, or both go on
    cases r with
    | error e => exact ⟨.error e, rfl, rfl⟩
    | ok l' => exact ih hnames.2 l'

section

variable {path : String} (hpath : StaysBelow path) (hempty : path ≠ "")
  (hsize : (directory ++ "/" ++ path).utf8ByteSize < pathLimit)
include hpath hempty hsize

/-- A path leads to locations that correspond to each other. -/
theorem follow_below :
    ∃ r : Except FileError Location,
      t.follow path = r.map (· ++ t.workingDirectory) ∧
      t'.follow (directory ++ "/" ++ path) = r.map (· ++ base) := by
  have hcheck := checkPath_of_follow h.follow_eq
  have hdirectory := h.follow_eq
  rw [follow, hcheck] at hdirectory
  change (namesOf directory).foldlM t'.enter (t'.origin directory) = .ok base at hdirectory
  have horigin : t.origin path = t.workingDirectory := if_neg hpath.relative
  -- the names of the directory lead to `base`, from where both walks begin
  obtain ⟨r, hr, hr'⟩ := h.foldlM_enter hpath.parents []
  rw [follow, follow, checkPath_below hcheck hempty hsize, namesOf_below,
    origin_below _ h.endsProperly.nonempty, List.foldlM_append, hdirectory, horigin]
  cases checkPath path with
  | error e => exact ⟨.error e, rfl, rfl⟩
  | ok _ => exact ⟨r, hr, hr'⟩

/-- A path leads to the same in both trees. -/
theorem find_below : t'.find (directory ++ "/" ++ path) = t.find path := by
  obtain ⟨r, hr, hr'⟩ := h.follow_below hpath hempty hsize
  rw [find, find, hr, hr']
  cases r with
  | error e => rfl
  | ok l => simp only [bind, Except.bind, Except.map, h.at?_eq]

theorem isPresent_below : t'.isPresent (directory ++ "/" ++ path) = t.isPresent path := by
  rw [isPresent, isPresent, h.find_below hpath hempty hsize]

theorem read_below : t'.read (directory ++ "/" ++ path) = t.read path := by
  rw [read, read, h.find_below hpath hempty hsize]

end

end Placed

/-- Nothing is found under a path that is too long. -/
theorem isPresent_of_pathLimit_le (t : FileTree) {path : String}
    (h : pathLimit ≤ path.utf8ByteSize) : t.isPresent path = false := by
  have hcheck : ∃ e, checkPath path = .error e := by
    rw [checkPath, if_pos h]
    split
    · exact ⟨_, rfl⟩
    · split <;> exact ⟨_, rfl⟩
  obtain ⟨e, he⟩ := hcheck
  rw [isPresent, find, follow, he]
  rfl

/-! ### A tree as a directory of another one -/

/-- The tree in which a directory holds what the root holds in the given
one. -/
def relocate (t : FileTree) (name : String) : FileTree :=
  ⟨[], ([name], .directory) :: t.entries.map fun (l, entry) => (l ++ [name], entry)⟩

theorem at?_relocate (t : FileTree) (name : String) (l : Location) :
    (t.relocate name).at? (l ++ [name]) = t.at? l := by
  have hlookup (entries : List (Location × FileEntry)) :
      (entries.map fun (l, entry) => (l ++ [name], entry)).lookup (l ++ [name]) =
        entries.lookup l := by
    induction entries with
    | nil => rfl
    | cons entry entries ih =>
      obtain ⟨l', e⟩ := entry
      have hbeq : (l ++ [name] == l' ++ [name]) = (l == l') :=
        Bool.eq_iff_iff.2 (by simp)
      rw [List.map_cons, List.lookup_cons, List.lookup_cons, hbeq, ih]
  rw [at?, if_neg (by simp), at?, relocate, List.lookup_cons, hlookup]
  cases l with
  | nil => simp
  | cons inner outer =>
    -- the entry of the directory itself is passed over
    have hbeq : (inner :: outer ++ [name] == [name]) = false := beq_false_of_ne (by simp)
    rw [hbeq, if_neg (by simp)]

/-- What the root holds is held by the directory. -/
theorem placed_relocate {t : FileTree} {name directory : String} (hroot : t.workingDirectory = [])
    (hdirectory : Path.EndsProperly directory)
    (hfollow : (t.relocate name).follow directory = .ok [name]) :
    Placed t (t.relocate name) directory [name] :=
  ⟨hdirectory, hfollow, fun l => by rw [at?_relocate, hroot, List.append_nil]⟩

/-! ### A longer path to the same place -/

/-- A path with directories in front of it that do not lead elsewhere. -/
def dotted : Nat → String → String
  | 0, path => path
  | n + 1, path => "." ++ "/" ++ dotted n path

theorem utf8ByteSize_dotted (n : Nat) (path : String) :
    (dotted n path).utf8ByteSize = 2 * n + path.utf8ByteSize := by
  induction n with
  | zero => rw [dotted, Nat.mul_zero, Nat.zero_add]
  | succ n ih =>
    have hdot : ".".utf8ByteSize = 1 := rfl
    have hslash : "/".utf8ByteSize = 1 := rfl
    rw [dotted, String.utf8ByteSize_append, String.utf8ByteSize_append, ih, hdot, hslash]
    omega

theorem staysBelow_dotted {path : String} (h : StaysBelow path) (n : Nat) :
    StaysBelow (dotted n path) := by
  induction n with
  | zero => exact h
  | succ n ih =>
    refine ⟨by simp [dotted], ?_⟩
    have hdot : namesOf "." = ["."] := by decide
    rw [dotted, namesOf_below, hdot]
    simp [ih.parents]

theorem dotted_ne_empty {path : String} (h : path ≠ "") (n : Nat) : dotted n path ≠ "" := by
  cases n with
  | zero => exact h
  | succ n => simp [dotted]

/-- A tree is placed where it is. -/
theorem placed_self {t : FileTree} (h : t.at? t.workingDirectory = some .directory) :
    Placed t t "." t.workingDirectory := by
  refine ⟨⟨by decide, by decide, by decide⟩, ?_, fun l => rfl⟩
  have hdot : namesOf "." = ["."] := by decide
  have horigin : t.origin "." = t.workingDirectory := rfl
  rw [follow, hdot, horigin, List.foldlM_cons, FileTree.enter, requireDirectory_eq_ok.2 h]
  rfl

theorem follow_dotted {t : FileTree} (h : t.at? t.workingDirectory = some .directory)
    {path : String} (hpath : StaysBelow path) (hempty : path ≠ "") {n : Nat}
    (hsize : (dotted n path).utf8ByteSize < pathLimit) :
    t.follow (dotted n path) = t.follow path := by
  induction n with
  | zero => rfl
  | succ n ih =>
    have hshorter : (dotted n path).utf8ByteSize < pathLimit := by
      rw [utf8ByteSize_dotted] at hsize ⊢
      omega
    obtain ⟨r, hr, hr'⟩ := (placed_self h).follow_below (staysBelow_dotted hpath n)
      (dotted_ne_empty hempty n) hsize
    rw [dotted, hr', ← hr, ih hshorter]

theorem endsProperly_dotted {name : String} (h : Path.IsName name) (n : Nat) :
    Path.EndsProperly (dotted n name) := by
  have hreverse : ∃ cs, (dotted n name).toList.reverse = name.toList.reverse ++ cs := by
    induction n with
    | zero => exact ⟨[], by rw [dotted, List.append_nil]⟩
    | succ n ih =>
      obtain ⟨cs, hcs⟩ := ih
      exact ⟨cs ++ '/' :: ".".toList.reverse, by
        rw [dotted, Path.reverse_below, hcs, List.append_assoc]⟩
  obtain ⟨cs, hcs⟩ := hreverse
  exact h.endsProperly hcs

end AtomProbe.FileTree
