import AtomProbe.Proofs.Files.Relocation
import AtomProbe.Proofs.Source.Workflow

/-!
# `AtomProbe.Proofs.Source.Relocation`: notebooks in another place

A notebook may be moved along with the files that it names. Seen from
above its directory, it is converted as it was from within.

* `convert_relocated`: the template is the same, and the conversion ends
  in the same way. An error about a file of the workflow shows the path
  of the file, which is another one now.

This is so as long as the paths are not too long for the system, and no
file is named by an empty text (`not_endsAlike_convert`).
-/

set_option autoImplicit false

namespace AtomProbe

/-- An error without the path of the file that it is about. -/
def SourceError.withoutPath : SourceError → SourceError
  | .checksum _ cause => .checksum "" cause
  | .metadata cause => .metadata cause
  | .mapping cause => .mapping cause

namespace Source

open Vocabulary

/-! ### Accounts that are alike -/

/-- Whether two runs give the same template, and end in the same way. -/
structure EndsAlike (run run' : Except SourceError Unit × Template) : Prop where
  template : run'.2 = run.2
  answer : run'.1.mapError SourceError.withoutPath = run.1.mapError SourceError.withoutPath

namespace Account

/-- Whether two accounts write the same, and fail in the same way. -/
structure Alike (a a' : Account) : Prop where
  writes : a'.writes = a.writes
  failure : a'.failure.map SourceError.withoutPath = a.failure.map SourceError.withoutPath

theorem Alike.refl (a : Account) : Alike a a := ⟨rfl, rfl⟩

theorem Alike.andThen {a a' b b' : Account} (h : Alike a a') (hnext : Alike b b') :
    Alike (a.andThen b) (a'.andThen b') := by
  obtain ⟨reports, writes, failure⟩ := a
  obtain ⟨reports', writes', failure'⟩ := a'
  obtain ⟨rfl, hfailure⟩ := h
  -- one of them fails exactly if the other one does
  cases failure with
  | some e =>
    obtain ⟨e', rfl, -⟩ := Option.map_eq_some_iff.1 hfailure
    exact ⟨rfl, hfailure⟩
  | none =>
    obtain rfl := Option.map_eq_none_iff.1 hfailure
    exact ⟨congrArg (writes' ++ ·) hnext.writes, hnext.failure⟩

theorem Alike.sequence_map {α : Type} {f g : α → Account} {xs : List α}
    (h : ∀ x ∈ xs, Alike (f x) (g x)) : Alike (sequence (xs.map f)) (sequence (xs.map g)) := by
  induction xs with
  | nil => exact .refl _
  | cons x xs ih =>
    obtain ⟨hx, hxs⟩ := List.forall_mem_cons.1 h
    exact hx.andThen (ih hxs)

/-- Runs of accounts that are alike end alike. -/
theorem Alike.perform {a a' : Account} (h : Alike a a') (t : Template) (w w' : World) :
    EndsAlike (a.perform t w).1 (a'.perform t w').1 := by
  obtain ⟨reports, writes, failure⟩ := a
  obtain ⟨reports', writes', failure'⟩ := a'
  obtain ⟨rfl, hfailure⟩ := h
  refine ⟨rfl, ?_⟩
  cases failure with
  | some e =>
    obtain ⟨e', rfl, herror⟩ := Option.map_eq_some_iff.1 hfailure
    exact congrArg Except.error herror
  | none =>
    obtain rfl := Option.map_eq_none_iff.1 hfailure
    rfl

end Account

/-! ### A notebook that is moved -/

/-- Whether a notebook in the working directory of one tree lies in
another tree below a directory, together with all that it may name. -/
structure Relocation (t t' : FileTree) (directory : String) (base : Location) (name : String) :
    Prop where
  placed : t.Placed t' directory base
  slash : '/' ∉ name.toList
  isAccepted : Store.isAccepted Input.notebook.endings name = true
  staysBelow : ∀ store, Store.loaded t Input.notebook.endings name = .ok (some store) →
    ∀ p ∈ workflowChecksums, ∀ file, store.text? (workflowKey p.2) = some file →
      FileTree.StaysBelow file

/-- The name of a notebook is a single name. -/
theorem isName_of_isAccepted {name : String}
    (h : Store.isAccepted Input.notebook.endings name = true) (hslash : '/' ∉ name.toList) :
    Path.IsName name ∧ name ≠ ".." := by
  have hname : Path.fileName? name ≠ none := by
    intro hnone
    have hempty : Store.isAccepted Input.notebook.endings name = false := by
      rw [Store.isAccepted, hnone]
      decide
    rw [hempty] at h
    cases h
  refine ⟨⟨?_, hslash, ?_⟩, ?_⟩
  all_goals
    rintro rfl
    exact hname (by simp [Path.fileName?, Path.trimEnd])

theorem staysBelow_name {name : String} (hslash : '/' ∉ name.toList) (hdots : name ≠ "..") :
    FileTree.StaysBelow name := by
  refine ⟨fun h => hslash (List.mem_of_head? h), ?_⟩
  rw [FileTree.namesOf, List.splitOn_eq_singleton hslash, List.map_singleton,
    String.ofList_toList, List.mem_singleton]
  exact hdots.symm

namespace Relocation

variable {t t' : FileTree} {directory : String} {base : Location} {name : String}
  (h : Relocation t t' directory base name)
  (hshort : (directory ++ "/" ++ name).utf8ByteSize < FileTree.pathLimit)
include h

theorem isName : Path.IsName name ∧ name ≠ ".." := isName_of_isAccepted h.isAccepted h.slash

include hshort

/-- The notebook holds the same. -/
theorem loaded_eq :
    Store.loaded t' Input.notebook.endings (directory ++ "/" ++ name) =
      Store.loaded t Input.notebook.endings name := by
  have hbelow := staysBelow_name h.slash h.isName.2
  have hname := h.isName.1
  rw [Store.loaded, Store.loaded, Store.isAccepted, Store.isAccepted, Path.fileName?_below hname,
    h.placed.isPresent_below hbelow hname.nonempty hshort, Store.fileStore, Store.fileStore,
    h.placed.read_below hbelow hname.nonempty hshort]

omit hshort

/-- A checksum is that of the same file. -/
theorem alike_checksumOf {store : Store} {number : UInt32} {p : String × String}
    (hfile : ∀ file, store.text? (workflowKey p.2) = some file →
      FileTree.StaysBelow file ∧ file ≠ "" ∧
        (directory ++ "/" ++ file).utf8ByteSize < FileTree.pathLimit) :
    Account.Alike (checksumOf t "" store number p) (checksumOf t' directory store number p) := by
  rw [checksumOf, checksumOf]
  cases hname : store.text? (workflowKey p.2) with
  | none => exact .refl _
  | some file =>
    obtain ⟨hbelow, hempty, hsize⟩ := hfile file hname
    dsimp only
    -- the name is joined to either directory, and leads to the same file
    rw [Path.join_empty, Path.join_below h.placed.endsProperly hbelow.relative, checksumAccount,
      checksumAccount, h.placed.isPresent_below hbelow hempty hsize,
      h.placed.read_below hbelow hempty hsize]
    cases t.isPresent file with
    | false => exact ⟨rfl, rfl⟩
    | true =>
      cases t.read file with
      | error e => exact ⟨rfl, rfl⟩
      | ok content =>
        dsimp only
        cases VariadicPath.resolve? (workflowTarget ++ "/" ++ p.1) [number] <;> exact ⟨rfl, rfl⟩

/-- So is what a notebook is converted into. -/
theorem alike_steps {store : Store} (id : UInt32)
    (hfiles : ∀ p ∈ workflowChecksums, ∀ file, store.text? (workflowKey p.2) = some file →
      FileTree.StaysBelow file ∧ file ≠ "" ∧
        (directory ++ "/" ++ file).utf8ByteSize < FileTree.pathLimit) :
    Account.Alike (stepsAccount t (Input.notebook.steps "" store id))
      (stepsAccount t' (Input.notebook.steps directory store id)) := by
  -- what comes before the workflow looks at no files
  have hbefore : stepsAccount t' (Notebook.beforeWorkflow store id) =
      stepsAccount t (Notebook.beforeWorkflow store id) :=
    stepsAccount_beforeWorkflow_congr t t' id rfl rfl rfl fun _ _ _ _ => rfl
  rw [Notebook.steps_eq, Notebook.steps_eq, stepsAccount_append, stepsAccount_append,
    stepsAccount_workflowSteps, stepsAccount_workflowSteps, hbefore]
  exact (Account.Alike.refl _).andThen (.sequence_map fun p hp => h.alike_checksumOf (hfiles p hp))

end Relocation

/-- A notebook that is moved along with its files is converted into the
same template, and the conversion ends in the same way, whether it is seen
from its directory or from elsewhere. The files are named by texts that
are not empty, and the paths to the notebook and to the files are not too
long. -/
theorem convert_relocated {w w' : World} {directory : String} {base : Location} {name : String}
    (h : Relocation w.files w'.files directory base name)
    (hshort : (directory ++ "/" ++ name).utf8ByteSize < FileTree.pathLimit)
    (hfiles : ∀ store, Store.loaded w.files Input.notebook.endings name = .ok (some store) →
      ∀ p ∈ workflowChecksums, ∀ file, store.text? (workflowKey p.2) = some file →
        file ≠ "" ∧ (directory ++ "/" ++ file).utf8ByteSize < FileTree.pathLimit)
    (id : UInt32) (t₀ : Template) :
    EndsAlike (exec (Input.notebook.convert name id) t₀ w).1
      (exec (Input.notebook.convert (directory ++ "/" ++ name) id) t₀ w').1 := by
  rw [exec_convert, exec_convert]
  refine Account.Alike.perform ?_ t₀ w w'
  -- the same store is converted, from a directory of its own
  rw [Input.account, Input.account, h.loaded_eq hshort, Path.parent?_name h.isName.1,
    Path.parent?_below h.placed.endsProperly h.isName.1]
  cases hloaded : Store.loaded w.files Input.notebook.endings name with
  | error e => exact ⟨rfl, rfl⟩
  | ok found =>
    cases found with
    | none => exact ⟨rfl, rfl⟩
    | some store =>
      have hsteps := h.alike_steps id fun p hp file hfile =>
        ⟨h.staysBelow store hloaded p hp file hfile, hfiles store hloaded p hp file hfile⟩
      exact ⟨hsteps.writes, hsteps.failure⟩

/-! ### A notebook on a bench -/

/-- A notebook, and a file next to it. -/
def bench (notebook : String) : FileTree :=
  ⟨[], [(["eln_data.yaml"], .file notebook.toUTF8), (["first_run.rhit"], .file "ions".toUTF8)]⟩

/-- A notebook that names the file. -/
def namingNotebook : String := "workflow:\n  raw_dat_file: first_run.rhit\n"

/-- A notebook that names a file by an empty text. -/
def emptyNotebook : String := "workflow:\n  raw_dat_file: ''\n"

theorem isName_notebook : Path.IsName "eln_data.yaml" := by decide

theorem isName_lab : Path.IsName "lab" := by decide

theorem isAccepted_notebook :
    Store.isAccepted Input.notebook.endings "eln_data.yaml" = true := by
  rw [Store.isAccepted_name isName_notebook (by decide)]
  decide

/-- The texts that name the files of the workflow. -/
def filesNamed (store : Store) : List (Option String) :=
  workflowChecksums.map fun p => store.text? (workflowKey p.2)

theorem eq_of_filesNamed {store : Store} {file : String}
    (h : filesNamed store = [some file, none, none]) {p : String × String}
    (hp : p ∈ workflowChecksums) {file' : String}
    (hfile : store.text? (workflowKey p.2) = some file') : file' = file := by
  have hmem : some file' ∈ filesNamed store := List.mem_map.2 ⟨p, hp, hfile⟩
  rw [h] at hmem
  simpa using hmem

/-- Whether a store is that of a notebook on the bench, which names a
single file and is converted within its directory. -/
structure OnBench (notebook file : String) (store : Store) : Prop where
  loaded : Store.loaded (bench notebook) Input.notebook.endings "eln_data.yaml" = .ok (some store)
  filesNamed_eq : filesNamed store = [some file, none, none]
  succeeds : (Input.notebook.steps "" store 1).all (Step.succeeds (bench notebook)) = true

theorem exists_onBench {notebook file : String}
    (hread : ((bench notebook).read "eln_data.yaml" >>= Storage.decode).toOption = some notebook)
    (hstore : (Store.ofText notebook).toOption.any (fun store =>
      decide (filesNamed store = [some file, none, none]) &&
        (Input.notebook.steps "" store 1).all (Step.succeeds (bench notebook))) = true) :
    ∃ store, OnBench notebook file store := by
  obtain ⟨store, hloaded, hP⟩ := Store.exists_loaded isAccepted_notebook hread hstore
  rw [Bool.and_eq_true, decide_eq_true_iff] at hP
  exact ⟨store, hloaded, hP.1, hP.2⟩

theorem exists_onBench_naming : ∃ store, OnBench namingNotebook "first_run.rhit" store :=
  exists_onBench (by decide) (by decide +kernel)

theorem exists_onBench_empty : ∃ store, OnBench emptyNotebook "" store :=
  exists_onBench (by decide) (by decide +kernel)

namespace OnBench

variable {notebook file : String} {store : Store} (h : OnBench notebook file store)
include h

theorem name_eq : store.text? (workflowKey "raw_dat_file") = some file :=
  (List.cons.inj h.filesNamed_eq).1

/-- The bench is moved into a directory. -/
theorem relocation {directory : String} (hbelow : FileTree.StaysBelow file)
    (hdirectory : Path.EndsProperly directory)
    (hfollow : ((bench notebook).relocate "lab").follow directory = .ok ["lab"]) :
    Relocation (bench notebook) ((bench notebook).relocate "lab") directory ["lab"]
      "eln_data.yaml" := by
  refine ⟨FileTree.placed_relocate rfl hdirectory hfollow, by decide, isAccepted_notebook, ?_⟩
  intro store' hstore p hp file' hfile'
  obtain rfl : store = store' := Option.some.inj (Except.ok.inj (h.loaded.symm.trans hstore))
  rw [eq_of_filesNamed h.filesNamed_eq hp hfile']
  exact hbelow

/-- Within its directory, the notebook is converted. -/
theorem exists_within : ∃ t w',
    (exec (Input.notebook.convert "eln_data.yaml" 1) .empty (.ofFiles (bench notebook))).1 =
      (.ok (), t) ∧
    exec (runAll (Input.notebook.steps "" store 1)) .empty (.ofFiles (bench notebook)) =
      ((.ok (), t), w') := by
  have hconvert := fst_exec_convert (w := .ofFiles (bench notebook)) h.loaded 1 .empty
  rw [Path.parent?_name isName_notebook] at hconvert
  obtain ⟨t, w', hrun⟩ := exec_of_succeeds (w := .ofFiles (bench notebook)) _ h.succeeds .empty
  exact ⟨t, w', hconvert.trans (congrArg Prod.fst hrun), hrun⟩

/-- If it is converted elsewhere, it is by the same steps. -/
theorem exists_above {directory : String} {t : Template}
    (hrelocation : Relocation (bench notebook) ((bench notebook).relocate "lab") directory ["lab"]
      "eln_data.yaml")
    (hshort : (directory ++ "/" ++ "eln_data.yaml").utf8ByteSize < FileTree.pathLimit)
    (hconverted : (exec (Input.notebook.convert (directory ++ "/" ++ "eln_data.yaml") 1) .empty
      (.ofFiles ((bench notebook).relocate "lab"))).1 = (.ok (), t)) :
    ∃ w', exec (runAll (Input.notebook.steps directory store 1)) .empty
      (.ofFiles ((bench notebook).relocate "lab")) = ((.ok (), t), w') := by
  have hconvert := fst_exec_convert (w := .ofFiles ((bench notebook).relocate "lab"))
    ((hrelocation.loaded_eq hshort).trans h.loaded) 1 .empty
  rw [Path.parent?_below hrelocation.placed.endsProperly isName_notebook, hconverted] at hconvert
  exact ⟨_, Prod.ext hconvert.symm rfl⟩

end OnBench

theorem staysBelow_firstRun : FileTree.StaysBelow "first_run.rhit" := ⟨by decide, by decide⟩

theorem endsProperly_lab : Path.EndsProperly "lab" :=
  isName_lab.endsProperly (List.append_nil _).symm

/-- Seen from above the laboratory, a notebook is converted as it is
within. -/
theorem convert_relocated_lab :
    EndsAlike
      (exec (Input.notebook.convert "eln_data.yaml" 1) .empty
        (.ofFiles (bench namingNotebook))).1
      (exec (Input.notebook.convert "lab/eln_data.yaml" 1) .empty
        (.ofFiles ((bench namingNotebook).relocate "lab"))).1 := by
  obtain ⟨store, h⟩ := exists_onBench_naming
  have hrelocation : Relocation (World.ofFiles (bench namingNotebook)).files
      (World.ofFiles ((bench namingNotebook).relocate "lab")).files "lab" ["lab"] "eln_data.yaml" :=
    h.relocation staysBelow_firstRun endsProperly_lab (by decide)
  refine convert_relocated hrelocation (by decide) ?_ 1 .empty
  intro store' hstore p hp file hfile
  obtain rfl : store = store' := Option.some.inj (Except.ok.inj (h.loaded.symm.trans hstore))
  obtain rfl := eq_of_filesNamed h.filesNamed_eq hp hfile
  exact ⟨by decide, by decide⟩

/-! ### Where the place makes a difference -/

/-- The path of the checksum of the file on the bench. -/
def rawChecksum : String := checksumPath 1 "raw_data/SERIALIZED[serialized]/checksum"

/-- Within the laboratory, the checksum of the file is written. -/
theorem exists_converted : ∃ t,
    (exec (Input.notebook.convert "eln_data.yaml" 1) .empty (.ofFiles (bench namingNotebook))).1 =
      (.ok (), t) ∧ t.get? rawChecksum ≠ none := by
  obtain ⟨store, h⟩ := exists_onBench_naming
  obtain ⟨t, w', hconverted, hrun⟩ := h.exists_within
  obtain ⟨content, -, htaken⟩ :=
    ((checksums_of_ok hrun).1 _ (.head _)).exists_read h.name_eq (by decide)
  refine ⟨t, hconverted, ?_⟩
  rw [rawChecksum, show t.get? (checksumPath 1 _) = _ from htaken]
  exact Option.some_ne_none _

/-- The laboratory under a path that is longer than needed. -/
def longLab (n : Nat) : String := FileTree.dotted n "lab"

theorem utf8ByteSize_longLab (n : Nat) (name : String) :
    (longLab n ++ "/" ++ name).utf8ByteSize = 2 * n + 4 + name.utf8ByteSize := by
  have hlab : "lab".utf8ByteSize = 3 := rfl
  have hslash : "/".utf8ByteSize = 1 := rfl
  rw [String.utf8ByteSize_append, String.utf8ByteSize_append, longLab,
    FileTree.utf8ByteSize_dotted, hlab, hslash]

/-- It may be followed as long as it is not too long itself. -/
theorem relocation_longLab {n : Nat} (hsize : 2 * n + 3 < FileTree.pathLimit) :
    Relocation (bench namingNotebook) ((bench namingNotebook).relocate "lab") (longLab n) ["lab"]
      "eln_data.yaml" := by
  obtain ⟨store, h⟩ := exists_onBench_naming
  have hlab : ((bench namingNotebook).relocate "lab").follow "lab" = .ok ["lab"] := by
    decide
  have hbelow : FileTree.StaysBelow "lab" := staysBelow_name isName_lab.slash (by decide)
  refine h.relocation staysBelow_firstRun (FileTree.endsProperly_dotted isName_lab n) ?_
  rw [longLab, FileTree.follow_dotted rfl hbelow (by decide), hlab]
  rw [FileTree.utf8ByteSize_dotted]
  exact hsize

/-- Under a path of the right length, the notebook is found, but the file
that it names is not. -/
theorem get?_longLab {t : Template}
    (hconverted : (exec (Input.notebook.convert (longLab 2039 ++ "/" ++ "eln_data.yaml") 1) .empty
      (.ofFiles ((bench namingNotebook).relocate "lab"))).1 = (.ok (), t)) :
    t.get? rawChecksum = none := by
  obtain ⟨store, h⟩ := exists_onBench_naming
  have hrelocation : Relocation (bench namingNotebook) _ (longLab 2039) _ _ :=
    relocation_longLab (by decide)
  obtain ⟨w', hrun⟩ := h.exists_above hrelocation (by rw [utf8ByteSize_longLab]; decide) hconverted
  -- the name of the file is longer than that of the notebook
  have hmissing : ((bench namingNotebook).relocate "lab").isPresent
      (Path.join (longLab 2039) "first_run.rhit") = false := by
    rw [Path.join_below hrelocation.placed.endsProperly staysBelow_firstRun.relative]
    refine FileTree.isPresent_of_pathLimit_le _ ?_
    rw [utf8ByteSize_longLab]
    decide
  exact ((checksums_of_ok hrun).1 _ (.head _)).eq_before h.name_eq hmissing

/-- If the path is longer still, not even the notebook is found. -/
theorem convert_longLab :
    (exec (Input.notebook.convert (longLab 2040 ++ "/" ++ "eln_data.yaml") 1) .empty
      (.ofFiles ((bench namingNotebook).relocate "lab"))).1 = (.ok (), .empty) := by
  have hlong : FileTree.pathLimit ≤ (longLab 2040 ++ "/" ++ "eln_data.yaml").utf8ByteSize := by
    rw [utf8ByteSize_longLab]
    decide
  have hmissing := FileTree.isPresent_of_pathLimit_le ((bench namingNotebook).relocate "lab") hlong
  have hloaded : Store.loaded ((bench namingNotebook).relocate "lab") Input.notebook.endings
      (longLab 2040 ++ "/" ++ "eln_data.yaml") = .ok none := by
    rw [Store.loaded, hmissing, Bool.and_false]
    rfl
  have hconvert := exec_convert_of_loaded (w := .ofFiles ((bench namingNotebook).relocate "lab"))
    hloaded 1 .empty
  rw [hconvert]
  rfl

theorem relocation_empty :
    Relocation (bench emptyNotebook) ((bench emptyNotebook).relocate "lab") "lab" ["lab"]
      "eln_data.yaml" := by
  obtain ⟨store, h⟩ := exists_onBench_empty
  exact h.relocation ⟨by decide, by decide⟩ endsProperly_lab (by decide)

/-- The path that an empty text leads to is that of a directory, if the
notebook is seen from elsewhere. It cannot be read. -/
theorem not_converted_empty (t : Template) :
    (exec (Input.notebook.convert ("lab" ++ "/" ++ "eln_data.yaml") 1) .empty
      (.ofFiles ((bench emptyNotebook).relocate "lab"))).1 ≠ (.ok (), t) := by
  intro hconverted
  obtain ⟨store, h⟩ := exists_onBench_empty
  obtain ⟨w', hrun⟩ := h.exists_above relocation_empty (by decide) hconverted
  obtain ⟨content, hread, -⟩ :=
    ((checksums_of_ok hrun).1 _ (.head _)).exists_read h.name_eq (by decide)
  have herror : ((bench emptyNotebook).relocate "lab").read (Path.join "lab" "") =
      .error .isADirectory := by
    decide
  cases herror.symm.trans hread

/-- A run that ends like one that succeeds succeeds. -/
theorem EndsAlike.of_ok {run : Except SourceError Unit × Template} {t : Template}
    (h : EndsAlike (.ok (), t) run) : run = (.ok (), t) := by
  obtain ⟨answer, t'⟩ := run
  obtain ⟨rfl, hanswer⟩ := h
  cases answer with
  | ok _ => rfl
  | error e => cases hanswer

/-- A notebook that is moved along with its files is not always converted
as before. The path of a file may become too long, and so may that of
the notebook. An empty text leads nowhere from within the directory, but
to the directory from elsewhere. -/
theorem not_endsAlike_convert :
    (Relocation (bench namingNotebook) ((bench namingNotebook).relocate "lab") (longLab 2039)
        ["lab"] "eln_data.yaml" ∧
      ¬ EndsAlike
        (exec (Input.notebook.convert "eln_data.yaml" 1) .empty
          (.ofFiles (bench namingNotebook))).1
        (exec (Input.notebook.convert (longLab 2039 ++ "/" ++ "eln_data.yaml") 1) .empty
          (.ofFiles ((bench namingNotebook).relocate "lab"))).1) ∧
    (Relocation (bench namingNotebook) ((bench namingNotebook).relocate "lab") (longLab 2040)
        ["lab"] "eln_data.yaml" ∧
      ¬ EndsAlike
        (exec (Input.notebook.convert "eln_data.yaml" 1) .empty
          (.ofFiles (bench namingNotebook))).1
        (exec (Input.notebook.convert (longLab 2040 ++ "/" ++ "eln_data.yaml") 1) .empty
          (.ofFiles ((bench namingNotebook).relocate "lab"))).1) ∧
    Relocation (bench emptyNotebook) ((bench emptyNotebook).relocate "lab") "lab" ["lab"]
        "eln_data.yaml" ∧
      ¬ EndsAlike
        (exec (Input.notebook.convert "eln_data.yaml" 1) .empty (.ofFiles (bench emptyNotebook))).1
        (exec (Input.notebook.convert ("lab" ++ "/" ++ "eln_data.yaml") 1) .empty
          (.ofFiles ((bench emptyNotebook).relocate "lab"))).1 := by
  obtain ⟨t, hconverted, hwritten⟩ := exists_converted
  obtain ⟨store, hempty⟩ := exists_onBench_empty
  obtain ⟨t', w', hwithin, -⟩ := hempty.exists_within
  rw [hconverted, hwithin]
  refine ⟨⟨relocation_longLab (by decide), fun h => hwritten (get?_longLab h.of_ok)⟩,
    ⟨relocation_longLab (by decide), fun h => ?_⟩, relocation_empty,
    fun h => not_converted_empty t' h.of_ok⟩
  -- nothing is written for a notebook that is not found
  obtain rfl : SortedMap.empty = t := congrArg Prod.snd (convert_longLab.symm.trans h.of_ok)
  exact hwritten rfl

end Source

end AtomProbe
