import AtomProbe.Proofs.Digest
import AtomProbe.Proofs.Entry.Paths
import AtomProbe.Proofs.Source.Sections
import AtomProbe.Proofs.World.Trace

/-!
# `AtomProbe.Proofs.Source.Workflow`: the checksums of the workflow

A notebook names files of the workflow. Each of them may be left out, be
no text, not exist, be no file, or be one whose checksum is taken.

* `checksums_of_run`: what becomes of the three checksums, which warnings
  there are, and that nothing else is written for the workflow. The first
  file that is there but cannot be read ends the conversion; the
  checksums before it are in the template.

The account of one checksum (`checksumOf`) is worked out first. Those of
several are put together in order, as no two have the same path.
-/

set_option autoImplicit false

namespace AtomProbe.Source

open Vocabulary
open VariadicPath (resolve? marker)

/-! ### Accounts in order -/

namespace Account

variable {α : Type} {f : α → Account}

/-- Accounts that do not fail report and write one after the other. -/
theorem sequence_map {xs : List α} (h : ∀ x ∈ xs, (f x).failure = none) :
    sequence (xs.map f) =
      ⟨xs.flatMap fun x => (f x).reports, xs.flatMap fun x => (f x).writes, none⟩ := by
  induction xs with
  | nil => rfl
  | cons x xs ih =>
    obtain ⟨hx, hxs⟩ := List.forall_mem_cons.1 h
    rw [List.map_cons, sequence_cons, ih hxs, andThen, hx]
    rfl

/-- The first account that fails is the last one. -/
theorem sequence_map_of_failure {before after : List α} {x : α} {e : SourceError}
    (hbefore : ∀ y ∈ before, (f y).failure = none) (hx : (f x).failure = some e) :
    sequence ((before ++ x :: after).map f) =
      ⟨(before.flatMap fun y => (f y).reports) ++ (f x).reports,
        (before.flatMap fun y => (f y).writes) ++ (f x).writes, some e⟩ := by
  have hlast : (f x).andThen (sequence (after.map f)) = f x := by rw [andThen, hx]
  rw [List.map_append, sequence_append, sequence_map hbefore, List.map_cons, sequence_cons, hlast]
  simp only [andThen, hx]

end Account

/-! ### What is said about a checksum -/

/-- The key under which a notebook names a file of the workflow. -/
def workflowKey (source : String) : String := workflowSource ++ "/" ++ source

/-- The path of a checksum of an entry. -/
def checksumPath (number : Nat) (target : String) : String :=
  Entry.rootText number ++ ("atom_probe/" ++ target)

/-- What stands under the path of a checksum in the end, where `before`
stood there before. -/
inductive Checksum (files : FileTree) (directory : String) (store : Store) (source : String)
    (before : Option TemplateValue) : Option TemplateValue → Prop
  /-- The notebook holds no text under the key. -/
  | unnamed (hname : store.text? (workflowKey source) = none) :
      Checksum files directory store source before before
  /-- The file does not exist. -/
  | missing {name : String} (hname : store.text? (workflowKey source) = some name)
      (hpresent : files.isPresent (Path.join directory name) = false) :
      Checksum files directory store source before before
  /-- The file is read. -/
  | taken {name : String} {content : ByteArray}
      (hname : store.text? (workflowKey source) = some name)
      (hpresent : files.isPresent (Path.join directory name) = true)
      (hread : files.read (Path.join directory name) = .ok content) :
      Checksum files directory store source before
        (some (.text (Digest.hex (Digest.Sha256.digest content.toList))))

section

variable {files : FileTree} {directory : String} {store : Store} {source name : String}
  {before after : Option TemplateValue} (h : Checksum files directory store source before after)
  (hname : store.text? (workflowKey source) = some name)
include h hname

/-- A file that is there was read. -/
theorem Checksum.exists_read (hpresent : files.isPresent (Path.join directory name) = true) :
    ∃ content, files.read (Path.join directory name) = .ok content ∧
      after = some (.text (Digest.hex (Digest.Sha256.digest content.toList))) := by
  cases h with
  | unnamed hunnamed => cases hunnamed.symm.trans hname
  | missing hname' hmissing =>
    obtain rfl := Option.some.inj (hname'.symm.trans hname)
    cases hmissing.symm.trans hpresent
  | taken hname' hpresent' hread =>
    obtain rfl := Option.some.inj (hname'.symm.trans hname)
    exact ⟨_, hread, rfl⟩

/-- Nothing changes for a file that does not exist. -/
theorem Checksum.eq_before (hmissing : files.isPresent (Path.join directory name) = false) :
    after = before := by
  cases h with
  | unnamed => rfl
  | missing => rfl
  | taken hname' hpresent =>
    obtain rfl := Option.some.inj (hname'.symm.trans hname)
    cases hmissing.symm.trans hpresent

end

/-- Whether a notebook names something that is there but cannot be read
as a file. -/
structure Unreadable (files : FileTree) (directory : String) (store : Store) (source : String)
    (name : String) (e : FileError) : Prop where
  name_eq : store.text? (workflowKey source) = some name
  isPresent : files.isPresent (Path.join directory name) = true
  read_eq : files.read (Path.join directory name) = .error e

/-- The warning about a file that does not exist, if a text names it. -/
def missingFile? (files : FileTree) (directory : String) (store : Store) (source : String) :
    Option Record :=
  match store.text? (workflowKey source) with
  | none => none
  | some name =>
    let path := Path.join directory name
    if files.isPresent path then none
    else some ⟨.warning,
      s!"Workflow file {path} does not exist, no checksum written for {workflowKey source}"⟩

/-- The warning about laser sources that are not named. -/
def missingLasers (store : Store) : List Record :=
  if store.isEmpty ∨ store.text? Notebook.pulseModeKey = some Notebook.voltageMode ∨
      (store.records? Notebook.laserSourceKey).isSome then []
  else [⟨.warning, "pulse_mode != voltage but no laser details specified!"⟩]

/-- Whether a record is a warning. -/
def isWarning (r : Record) : Bool := r.level = .warning

theorem ne_detail_of_isWarning (r : Record) (h : isWarning r = true) : r.level ≠ .detail := by
  rw [of_decide_eq_true h]
  decide

/-! ### The account of a checksum -/

theorem mem_workflowPatterns {p : String × String} (hp : p ∈ workflowChecksums) :
    workflowTarget ++ "/" ++ p.1 ∈ workflowPatterns := List.mem_map_of_mem hp

theorem resolve?_checksum {p : String × String} (hp : p ∈ workflowChecksums) (number : UInt32) :
    resolve? (workflowTarget ++ "/" ++ p.1) [number] =
      some (checksumPath number.toNat p.1) := by
  have hplain : ∀ p ∈ workflowChecksums, marker ∉ ("atom_probe/" ++ p.1).toList := by
    decide
  have hpattern : workflowTarget ++ "/" ++ p.1 =
      "/ENTRY[entry*]" ++ "/" ++ ("atom_probe/" ++ p.1) := by
    rw [← String.append_assoc]
    congr 1
  have hregular := isRegular_of_areWellFormed (areWellFormed_targets .notebook)
    (.tail _ (.tail _ (.tail _ (.tail _ (.head _))))) (mem_workflowPatterns hp)
  rw [hpattern] at hregular ⊢
  exact Entry.resolve?_single (hplain p hp) hregular number

theorem checksumPath_injective (number : Nat) : Function.Injective (checksumPath number) := by
  intro target target' h
  have hlist := congrArg String.toList h
  simp only [checksumPath, String.toList_append] at hlist
  exact String.toList_inj.1 (List.append_cancel_left (List.append_cancel_left hlist))

/-- What is done about a checksum, if the notebook names a file. -/
def checksumOf (files : FileTree) (directory : String) (store : Store) (number : UInt32)
    (p : String × String) : Account :=
  match store.text? (workflowKey p.2) with
  | none => .nothing
  | some name =>
    checksumAccount files (workflowTarget ++ "/" ++ p.1) [number] (workflowKey p.2)
      (Path.join directory name)

theorem stepsAccount_workflowSteps (files : FileTree) (directory : String) (store : Store)
    (number : UInt32) :
    stepsAccount files (Notebook.workflowSteps directory store number) =
      .sequence (workflowChecksums.map (checksumOf files directory store number)) := by
  rw [stepsAccount, Notebook.workflowSteps]
  induction workflowChecksums with
  | nil => rfl
  | cons p ps ih =>
    rw [List.filterMap_cons, List.map_cons, Account.sequence_cons, ← ih, checksumOf, workflowKey]
    dsimp only
    cases store.text? (workflowSource ++ "/" ++ p.2) with
    | none => rfl
    | some name => rfl

section

variable {files : FileTree} {directory : String} {store : Store} {number : UInt32}
  {p : String × String}

/-- A checksum fails where the file is there and cannot be read. -/
theorem checksumOf_of_unreadable {name : String} {e : FileError}
    (h : Unreadable files directory store p.2 name e) :
    checksumOf files directory store number p =
      .failed [] (.checksum (Path.join directory name) e) := by
  rw [checksumOf, h.name_eq]
  simp only [checksumAccount, h.isPresent, h.read_eq, if_true]

/-- Otherwise it is written, or nothing is. -/
theorem checksumOf_of_readable (hp : p ∈ workflowChecksums)
    (h : ∀ name e, ¬ Unreadable files directory store p.2 name e) :
    (checksumOf files directory store number p).failure = none ∧
      (∀ q ∈ (checksumOf files directory store number p).writes,
        q.1 = checksumPath number.toNat p.1) ∧
      ∀ before, Checksum files directory store p.2 before
        (((SortedMap.ofList (checksumOf files directory store number p).writes).get?
          (checksumPath number.toNat p.1)).or before) := by
  rw [checksumOf]
  -- the file is not named, is missing, or is read
  cases hname : store.text? (workflowKey p.2) with
  | none => exact ⟨rfl, nofun, fun before => .unnamed hname⟩
  | some name =>
    dsimp only [checksumAccount]
    cases hpresent : files.isPresent (Path.join directory name) with
    | false => exact ⟨rfl, nofun, fun before => .missing hname hpresent⟩
    | true =>
      cases hread : files.read (Path.join directory name) with
      | error e => exact absurd ⟨hname, hpresent, hread⟩ (h name e)
      | ok content =>
        rw [if_pos rfl]
        dsimp only
        rw [resolve?_checksum hp]
        refine ⟨rfl, fun q hq => ?_, fun before => ?_⟩
        · rw [List.mem_singleton.1 hq]
        · have htaken : Checksum files directory store p.2 before _ :=
            .taken hname hpresent hread
          rw [← Digest.ofContent_eq] at htaken
          have hget : (SortedMap.ofList [(checksumPath number.toNat p.1,
              TemplateValue.text (Digest.ofContent content))]).get?
                (checksumPath number.toNat p.1) = some (.text (Digest.ofContent content)) := by
            rw [SortedMap.ofList_cons, SortedMap.insertAll_nil, SortedMap.get?_insert, if_pos rfl]
          rw [hget]
          exact htaken

/-- A checksum that does not fail warns of a file that does not exist. -/
theorem filter_reports_checksumOf (h : (checksumOf files directory store number p).failure = none) :
    (checksumOf files directory store number p).reports.filter isWarning =
      (missingFile? files directory store p.2).toList := by
  rw [checksumOf] at h ⊢
  rw [missingFile?]
  cases hname : store.text? (workflowKey p.2) with
  | none => rfl
  | some name =>
    rw [hname] at h
    dsimp only [checksumAccount] at h ⊢
    cases hpresent : files.isPresent (Path.join directory name) with
    | false => rfl
    | true =>
      rw [hpresent, if_pos rfl] at h
      rw [if_pos rfl, if_pos rfl]
      cases hread : files.read (Path.join directory name) with
      | error e =>
        rw [hread] at h
        cases h
      | ok content =>
        dsimp only
        cases resolve? (workflowTarget ++ "/" ++ p.1) [number] <;> rfl

end

/-! ### Several checksums -/

section

variable {files : FileTree} {directory : String} {store : Store} {number : UInt32}
  {ps : List (String × String)}

/-- What is written for checksums that do not fail stands under their
paths, each for itself. -/
theorem get?_checksums (number : UInt32) (hnodup : (ps.map Prod.fst).Nodup)
    (hps : ∀ p ∈ ps, p ∈ workflowChecksums ∧
      ∀ name e, ¬ Unreadable files directory store p.2 name e) (t : Template) :
    let written := t.insertAll
      (ps.flatMap fun p => (checksumOf files directory store number p).writes)
    (∀ p ∈ ps, Checksum files directory store p.2 (t.get? (checksumPath number.toNat p.1))
      (written.get? (checksumPath number.toNat p.1))) ∧
    ∀ path, (∀ p ∈ ps, path ≠ checksumPath number.toNat p.1) →
      written.get? path = t.get? path := by
  intro written
  have hkeys : ∀ p ∈ ps, ∀ q ∈ (checksumOf files directory store number p).writes,
      q.1 = checksumPath number.toNat p.1 := fun p hp =>
    (checksumOf_of_readable (hps p hp).1 (hps p hp).2).2.1
  refine ⟨fun p hp => ?_, fun path hpath => ?_⟩
  · -- no other checksum has the same path
    have hothers : ∀ p' ∈ ps, p' ≠ p → ∀ q ∈ (checksumOf files directory store number p').writes,
        q.1 ≠ checksumPath number.toNat p.1 := by
      intro p' hp' hne q hq heq
      rw [hkeys p' hp' q hq] at heq
      exact hne (List.inj_on_of_nodup_map hnodup hp' hp (checksumPath_injective _ heq))
    rw [SortedMap.get?_insertAll, SortedMap.get?_ofList_flatMap hnodup.of_map hp hothers]
    exact (checksumOf_of_readable (hps p hp).1 (hps p hp).2).2.2 _
  · rw [SortedMap.get?_insertAll, SortedMap.get?_ofList_eq_none, Option.none_or]
    intro q hq
    obtain ⟨p, hp, hq⟩ := List.mem_flatMap.1 hq
    rw [hkeys p hp q hq]
    exact (hpath p hp).symm

theorem filter_reports_checksums
    (hps : ∀ p ∈ ps, (checksumOf files directory store number p).failure = none) :
    (ps.flatMap fun p => (checksumOf files directory store number p).reports).filter isWarning =
      ps.filterMap fun p => missingFile? files directory store p.2 := by
  induction ps with
  | nil => rfl
  | cons p ps ih =>
    obtain ⟨hp, hps⟩ := List.forall_mem_cons.1 hps
    rw [List.flatMap_cons, List.filter_append, filter_reports_checksumOf hp, ih hps,
      List.filterMap_cons]
    cases missingFile? files directory store p.2 <;> rfl

end

/-! ### Before the workflow -/

/-- What is written before the workflow is no checksum. -/
theorem ne_checksumPath {files : FileTree} {store : Store} {id : UInt32}
    {q : String × TemplateValue}
    (hq : q ∈ (Notebook.beforeWorkflow store id).flatMap (Step.inserts files))
    {p : String × String} (hp : p ∈ workflowChecksums) (number : UInt32) :
    q.1 ≠ checksumPath number.toNat p.1 := by
  obtain ⟨step, hstep, hinsert⟩ := List.mem_flatMap.1 hq
  cases step with
  | report r => cases hinsert
  | checksum target ids key path =>
    exact absurd hstep checksum_notMem_beforeWorkflow
  | apply table record ids =>
    obtain ⟨above, habove, rule, hrule, heffect⟩ := Table.exists_rule_of_mem_writes hinsert
    have hsteps : .apply table record ids ∈ Input.notebook.steps "" store id := by
      rw [Notebook.steps_eq]
      exact List.mem_append_left _ hstep
    have hpattern : above ++ "/" ++ rule.target ∈ table.patterns := by
      rw [Table.patterns, habove]
      exact List.mem_map_of_mem hrule
    -- the targets of the tables and those of the checksums never meet
    have hapart := pairwise_apart_targetsOf .notebook
    rw [targetsOf_eq, List.pairwise_append] at hapart
    have htargets := hapart.2.2 _
      (List.mem_flatMap.2 ⟨table, mem_notebookTables hsteps, hpattern⟩) _
      (mem_workflowPatterns hp)
    intro heq
    exact htargets ids [number] q.1 (Rule.effect_eq_write_iff.1 heffect).2
      (heq ▸ resolve?_checksum hp number)

/-- Steps that apply tables warn of nothing. -/
theorem filter_reports_eq_nil {files : FileTree} {steps : List Step}
    (h : ∀ step ∈ steps, ∃ table record ids, step = .apply table record ids) :
    (steps.flatMap fun step => (step.account files).reports).filter isWarning = [] := by
  rw [List.filter_eq_nil_iff]
  intro r hr
  obtain ⟨step, hstep, hr⟩ := List.mem_flatMap.1 hr
  obtain ⟨table, record, ids, rfl⟩ := h step hstep
  simp only [Step.account, tableAccount] at hr
  -- a table that fails reports nothing, another one its summary
  cases hfailure : (table.effects record ids).failure with
  | some e =>
    rw [hfailure] at hr
    cases hr
  | none =>
    rw [hfailure] at hr
    obtain rfl := List.mem_singleton.1 hr
    simp [isWarning]

theorem reports_report (files : FileTree) (records : List Record) :
    (records.map Step.report).flatMap (fun step => (step.account files).reports) = records := by
  rw [List.flatMap_map]
  exact List.flatMap_singleton' records

/-- Before the workflow, only laser sources that are missing are warned
of. -/
theorem filter_reports_beforeWorkflow (files : FileTree) (store : Store) (id : UInt32) :
    ((Notebook.beforeWorkflow store id).flatMap fun step =>
      (step.account files).reports).filter isWarning = missingLasers store := by
  have husers : (Notebook.usersReports store (entryNumber id)).filter isWarning = [] := by
    rw [Notebook.usersReports]
    cases store.records? Notebook.userKey <;> rfl
  have hlasers : (Notebook.lasersReports store).filter isWarning =
      Notebook.lasersReports store := by
    rw [Notebook.lasersReports]
    split <;> rfl
  rw [missingLasers]
  cases hempty : store.isEmpty with
  | true =>
    rw [Notebook.beforeWorkflow_of_isEmpty hempty, if_pos (.inl rfl)]
    rfl
  | false =>
    rw [Notebook.beforeWorkflow_of_nonempty hempty]
    simp only [List.flatMap_append, List.filter_append, reports_report, husers, hlasers,
      filter_reports_eq_nil fun _ => exists_apply_of_mem_recordSteps,
      filter_reports_eq_nil fun _ => exists_apply_of_mem_tableSteps, List.nil_append,
      List.append_nil, Bool.false_eq_true, false_or]
    rfl

/-- What comes before the workflow does not depend on the names of its
files. -/
theorem exec_beforeWorkflow_congr {store store' : Store} (hempty : store'.isEmpty = store.isEmpty)
    (h : ∀ key, (∀ p ∈ workflowChecksums, key ≠ workflowKey p.2) →
      store'.get? key = store.get? key) (id : UInt32) (t : Template) (w : World) :
    exec (runAll (Notebook.beforeWorkflow store' id)) t w =
      exec (runAll (Notebook.beforeWorkflow store id)) t w := by
  have hkeys : ∀ table ∈ entryTables, ∀ key ∈ table.sourceKeys, ∀ p ∈ workflowChecksums,
      key ≠ workflowKey p.2 := by
    decide
  have husers : store'.records? Notebook.userKey = store.records? Notebook.userKey :=
    congrArg (Option.bind · Metadata.records?) (h _ (by decide))
  have hmode : store'.text? Notebook.pulseModeKey = store.text? Notebook.pulseModeKey :=
    congrArg (Option.bind · Metadata.text?) (h _ (by decide))
  have hlasers : store'.records? Notebook.laserSourceKey =
      store.records? Notebook.laserSourceKey :=
    congrArg (Option.bind · Metadata.records?) (h _ (by decide))
  have haccount := stepsAccount_beforeWorkflow_congr w.files w.files id hempty husers
    (by rw [Notebook.lasersSteps, Notebook.lasersSteps, hmode, hlasers])
    fun table htable key hkey => h key (hkeys table htable key hkey)
  rw [exec_runAll, exec_runAll, haccount]

/-! ### What becomes of the workflow -/

/-- A run of a notebook is that of the sections before the workflow, and
of the checksums after them. -/
theorem exec_notebook (directory : String) (store : Store) (id : UInt32) (t : Template)
    (w : World) :
    exec (runAll (Input.notebook.steps directory store id)) t w =
      ((stepsAccount w.files (Notebook.beforeWorkflow store id)).andThen (.sequence
        (workflowChecksums.map (checksumOf w.files directory store (entryNumber id))))).perform
          t w := by
  rw [exec_runAll, Notebook.steps_eq, stepsAccount_append, stepsAccount_workflowSteps]

/-- Converting a notebook that was loaded is running its steps. -/
theorem fst_exec_convert {path : String} {store : Store} {w : World}
    (h : Store.loaded w.files Input.notebook.endings path = .ok (some store)) (id : UInt32)
    (t : Template) :
    (exec (Input.notebook.convert path id) t w).1 =
      (exec (runAll (Input.notebook.steps ((Path.parent? path).getD "") store id)) t w).1 := by
  have hconvert := exec_convert_of_loaded h id t
  rw [Parser.steps, exec_runAll, World.files_reportAll] at hconvert
  rw [hconvert, exec_runAll]
  rfl

section

variable {directory : String} {store : Store} {id : UInt32} {t₀ t : Template} {w w' : World}

/-- What comes before the workflow writes no checksum. -/
theorem get?_beforeWorkflow
    (hfailure : (stepsAccount w.files (Notebook.beforeWorkflow store id)).failure = none)
    {p : String × String} (hp : p ∈ workflowChecksums) :
    (t₀.insertAll (stepsAccount w.files (Notebook.beforeWorkflow store id)).writes).get?
      (checksumPath (entryNumber id).toNat p.1) =
        t₀.get? (checksumPath (entryNumber id).toNat p.1) := by
  rw [writes_stepsAccount hfailure, SortedMap.get?_insertAll,
    SortedMap.get?_ofList_eq_none fun q hq => ne_checksumPath hq hp (entryNumber id),
    Option.none_or]

/-- What a conversion that succeeds writes for the workflow. -/
theorem checksums_of_ok
    (h : exec (runAll (Input.notebook.steps directory store id)) t₀ w = ((.ok (), t), w')) :
    (∀ p ∈ workflowChecksums, Checksum w.files directory store p.2
      (t₀.get? (checksumPath (entryNumber id).toNat p.1))
      (t.get? (checksumPath (entryNumber id).toNat p.1))) ∧
    w'.journal.filter isWarning = w.journal.filter isWarning ++ (missingLasers store ++
      workflowChecksums.filterMap fun p => missingFile? w.files directory store p.2) ∧
    ∃ t₁ w₁, exec (runAll (Notebook.beforeWorkflow store id)) t₀ w = ((.ok (), t₁), w₁) ∧
      ∀ path, (∀ p ∈ workflowChecksums, path ≠ checksumPath (entryNumber id).toNat p.1) →
        t.get? path = t₁.get? path := by
  rw [exec_notebook] at h
  obtain ⟨hfailure, hwrites⟩ := failure_of_perform h
  rw [Account.failure_andThen, Option.or_eq_none_iff] at hfailure
  obtain ⟨hbefore, hsequence⟩ := hfailure
  -- no checksum has failed, and so no file is there that cannot be read
  have hall : ∀ p ∈ workflowChecksums,
      (checksumOf w.files directory store (entryNumber id) p).failure = none := fun p hp =>
    (Account.of_sequence hsequence).1 _ (List.mem_map_of_mem hp)
  have hreadable : ∀ p ∈ workflowChecksums, p ∈ workflowChecksums ∧
      ∀ name e, ¬ Unreadable w.files directory store p.2 name e := by
    refine fun p hp => ⟨hp, fun name e hunreadable => ?_⟩
    have hnone := hall p hp
    rw [checksumOf_of_unreadable hunreadable] at hnone
    cases hnone
  rw [Account.writes_andThen hbefore, Account.sequence_map hall, SortedMap.insertAll_append]
    at hwrites
  obtain ⟨hchecksums, hothers⟩ := get?_checksums (entryNumber id) (by decide) hreadable
    (t₀.insertAll (stepsAccount w.files (Notebook.beforeWorkflow store id)).writes)
  subst hwrites
  refine ⟨fun p hp => ?_, ?_, ?_⟩
  · rw [← get?_beforeWorkflow hbefore hp]
    exact hchecksums p hp
  · -- the warnings before the workflow are told from the steps, and those of the
    -- workflow from the files
    have hworld : w.reportAll _ = w' := congrArg Prod.snd h
    have hreports : (stepsAccount w.files (Notebook.beforeWorkflow store id)).reports =
        (Notebook.beforeWorkflow store id).flatMap fun step => (step.account w.files).reports := by
      have hsteps := (Account.of_sequence hbefore).1
      rw [stepsAccount, Account.sequence_map fun step hstep => hsteps _ (List.mem_map_of_mem hstep)]
    rw [Account.sequence_map hall, Account.andThen, hbefore] at hworld
    rw [← hworld, World.journal_reportAll_filter ne_detail_of_isWarning, List.filter_append,
      hreports, filter_reports_beforeWorkflow, filter_reports_checksums hall]
  · have hrun := exec_runAll (Notebook.beforeWorkflow store id) t₀ w
    rw [Account.perform, Account.result_of_failure_eq_none hbefore] at hrun
    exact ⟨_, _, hrun, hothers⟩

/-- The first file that is there but cannot be read ends the conversion.
What was written before it stays. -/
theorem checksums_of_unreadable {t₁ : Template} {w₁ : World}
    (h : exec (runAll (Notebook.beforeWorkflow store id)) t₀ w = ((.ok (), t₁), w₁))
    {done rest : List (String × String)} {p : String × String} {name : String} {e : FileError}
    (hlist : workflowChecksums = done ++ p :: rest)
    (hdone : ∀ q ∈ done, ∀ name e, ¬ Unreadable w.files directory store q.2 name e)
    (hp : Unreadable w.files directory store p.2 name e) :
    ∃ t w', exec (runAll (Input.notebook.steps directory store id)) t₀ w =
        ((.error (.checksum (Path.join directory name) e), t), w') ∧
      (∀ q ∈ done, Checksum w.files directory store q.2
        (t₀.get? (checksumPath (entryNumber id).toNat q.1))
        (t.get? (checksumPath (entryNumber id).toNat q.1))) ∧
      ∀ path, (∀ q ∈ done, path ≠ checksumPath (entryNumber id).toNat q.1) →
        t.get? path = t₁.get? path := by
  obtain ⟨hbefore, rfl⟩ := failure_of_perform ((exec_runAll _ t₀ w).symm.trans h)
  have hmem : ∀ q ∈ done, q ∈ workflowChecksums := fun q hq => by
    rw [hlist]
    exact List.mem_append_left _ hq
  have hreadable : ∀ q ∈ done, q ∈ workflowChecksums ∧
      ∀ name e, ¬ Unreadable w.files directory store q.2 name e := fun q hq =>
    ⟨hmem q hq, hdone q hq⟩
  have hnodup : (done.map Prod.fst).Nodup := by
    have hall : (workflowChecksums.map Prod.fst).Nodup := by decide
    rw [hlist, List.map_append] at hall
    exact (List.nodup_append.1 hall).1
  -- the checksums before the file succeed, and those behind it are not reached
  have hrun := exec_notebook directory store id t₀ w
  rw [hlist, Account.sequence_map_of_failure
    (fun q hq => (checksumOf_of_readable (hmem q hq) (hdone q hq)).1)
    (by rw [checksumOf_of_unreadable hp]; rfl), checksumOf_of_unreadable hp] at hrun
  simp only [Account.andThen, hbefore, Account.failed, List.append_nil, Account.perform,
    Account.result, SortedMap.insertAll_append] at hrun
  obtain ⟨hchecksums, hothers⟩ := get?_checksums (entryNumber id) hnodup hreadable
    (t₀.insertAll (stepsAccount w.files (Notebook.beforeWorkflow store id)).writes)
  refine ⟨_, _, hrun, fun q hq => ?_, hothers⟩
  rw [← get?_beforeWorkflow hbefore (hmem q hq)]
  exact hchecksums q hq

end

/-- In a conversion that succeeds, each of the three checksums is the
SHA-256 of the file that the notebook names for it, if it names one that
exists, and is as it was otherwise. There is one warning for each file
that does not exist. Nothing else is written for the workflow, and what
comes before it does not depend on the names of the files. The first
file that is there but cannot be read ends the conversion, unless that
has ended before the workflow; the checksums before it are written. -/
theorem checksums_of_run (directory : String) (store : Store) (id : UInt32) (t₀ : Template)
    (w : World) :
    let number := max id.toNat 1
    let run := exec (runAll (Input.notebook.steps directory store id)) t₀ w
    let before := exec (runAll (Notebook.beforeWorkflow store id)) t₀ w
    (∀ t w', run = ((.ok (), t), w') →
      (∀ p ∈ workflowChecksums, Checksum w.files directory store p.2
        (t₀.get? (checksumPath number p.1)) (t.get? (checksumPath number p.1))) ∧
      w'.journal.filter isWarning = w.journal.filter isWarning ++ (missingLasers store ++
        workflowChecksums.filterMap fun p => missingFile? w.files directory store p.2) ∧
      ∃ t₁ w₁, before = ((.ok (), t₁), w₁) ∧
        ∀ path, (∀ p ∈ workflowChecksums, path ≠ checksumPath number p.1) →
          t.get? path = t₁.get? path) ∧
    (∀ t₁ w₁, before = ((.ok (), t₁), w₁) → ∀ done p rest name e,
      workflowChecksums = done ++ p :: rest →
      (∀ q ∈ done, ∀ name e, ¬ Unreadable w.files directory store q.2 name e) →
      Unreadable w.files directory store p.2 name e →
      ∃ t w', run = ((.error (.checksum (Path.join directory name) e), t), w') ∧
        (∀ q ∈ done, Checksum w.files directory store q.2
          (t₀.get? (checksumPath number q.1)) (t.get? (checksumPath number q.1))) ∧
        ∀ path, (∀ q ∈ done, path ≠ checksumPath number q.1) →
          t.get? path = t₁.get? path) ∧
    (∀ store', store'.isEmpty = store.isEmpty →
      (∀ key, (∀ p ∈ workflowChecksums, key ≠ workflowKey p.2) →
        store'.get? key = store.get? key) →
      exec (runAll (Notebook.beforeWorkflow store' id)) t₀ w = before) ∧
    ∀ path, Store.loaded w.files Input.notebook.endings path = .ok (some store) →
      directory = (Path.parent? path).getD "" →
      (exec (Input.notebook.convert path id) t₀ w).1 = run.1 := by
  intro number run before
  have hnumber : number = (entryNumber id).toNat := (Entry.toNat_entryNumber id).symm
  rw [hnumber]
  refine ⟨fun t w' h => checksums_of_ok h,
    fun t₁ w₁ h done p rest name e hlist hdone hp => checksums_of_unreadable h hlist hdone hp,
    fun store' hempty hkeys => exec_beforeWorkflow_congr hempty hkeys id t₀ w, ?_⟩
  rintro path hloaded rfl
  exact fst_exec_convert hloaded id t₀

/-- A directory with a notebook and the file that it names. There is also
a directory where another file would be. -/
def laboratory : World :=
  .ofFiles ⟨[], [
    (["lab"], .directory),
    (["eln_data.yaml", "lab"], .file "workflow:\n  raw_dat_file: run.rhit\n".toUTF8),
    (["run.rhit", "lab"], .file "ions".toUTF8),
    (["hits", "lab"], .directory)]⟩

/-- A notebook that names the file, and then the directory. -/
def halted : Store := measured.insert "workflow/hit_dat_file" (.text "hits")

theorem unreadable_halted :
    Unreadable laboratory.files "lab" halted "hit_dat_file" "hits" .isADirectory :=
  ⟨by decide, by decide, by decide⟩

theorem read_laboratory :
    laboratory.files.isPresent (Path.join "lab" "run.rhit") = true ∧
      laboratory.files.read (Path.join "lab" "run.rhit") = .ok "ions".toUTF8 :=
  ⟨by decide, by decide⟩

/-- The checksum of the file in the laboratory. The directory ends the
conversion after it. The name of the file makes no difference before the
workflow, and the notebook can be converted from its file. -/
theorem checksums_of_run_laboratory :
    (∃ t w', exec (runAll (Input.notebook.steps "lab" measured 1)) .empty laboratory =
        ((.ok (), t), w') ∧
      Checksum laboratory.files "lab" measured "raw_dat_file" none
        (t.get? "/ENTRY[entry1]/atom_probe/raw_data/SERIALIZED[serialized]/checksum")) ∧
    (∃ t w', exec (runAll (Input.notebook.steps "lab" halted 1)) .empty laboratory =
        ((.error (.checksum "lab/hits" .isADirectory), t), w') ∧
      Checksum laboratory.files "lab" halted "raw_dat_file" none
        (t.get? "/ENTRY[entry1]/atom_probe/raw_data/SERIALIZED[serialized]/checksum")) ∧
    exec (runAll (Notebook.beforeWorkflow
        (measured.insert "workflow/raw_dat_file" (.text "lost")) 1)) .empty laboratory =
      exec (runAll (Notebook.beforeWorkflow measured 1)) .empty laboratory ∧
    ∃ store, Store.loaded laboratory.files Input.notebook.endings "lab/eln_data.yaml" =
        .ok (some store) ∧
      (exec (Input.notebook.convert "lab/eln_data.yaml" 1) .empty laboratory).1 =
        (exec (runAll (Input.notebook.steps "lab" store 1)) .empty laboratory).1 := by
  have hpath : checksumPath 1 "raw_data/SERIALIZED[serialized]/checksum" =
      "/ENTRY[entry1]/atom_probe/raw_data/SERIALIZED[serialized]/checksum" := by
    decide
  refine ⟨?_, ?_, ?_, ?_⟩
  · obtain ⟨t, w', hrun⟩ := exec_of_succeeds (w := laboratory)
      (Input.notebook.steps "lab" measured 1) (by decide) .empty
    have hchecksum := ((checksums_of_run "lab" measured 1 .empty laboratory).1 _ _ hrun).1 _
      (.head _)
    rw [show max (1 : UInt32).toNat 1 = 1 from rfl, hpath] at hchecksum
    exact ⟨t, w', hrun, hchecksum⟩
  · obtain ⟨t₁, w₁, hbefore⟩ := exec_of_succeeds (w := laboratory)
      (Notebook.beforeWorkflow halted 1) (by decide) .empty
    have hdone : ∀ q ∈ workflowChecksums.take 1, ∀ name e,
        ¬ Unreadable laboratory.files "lab" halted q.2 name e := by
      intro q hq name e h
      obtain rfl := List.mem_singleton.1 hq
      have hname : halted.text? (workflowKey "raw_dat_file") = some "run.rhit" := by
        decide
      obtain rfl := Option.some.inj (hname.symm.trans h.name_eq)
      cases read_laboratory.2.symm.trans h.read_eq
    obtain ⟨t, w', hrun, hchecksum, -⟩ :=
      (checksums_of_run "lab" halted 1 .empty laboratory).2.1 _ _ hbefore
        (workflowChecksums.take 1) _ _ "hits" .isADirectory rfl hdone unreadable_halted
    have htaken := hchecksum _ (.head _)
    rw [show max (1 : UInt32).toNat 1 = 1 from rfl, hpath] at htaken
    exact ⟨t, w', hrun, htaken⟩
  · refine (checksums_of_run "lab" measured 1 .empty laboratory).2.2.1 _ (by decide) ?_
    intro key hkey
    have hne : key ≠ "workflow/raw_dat_file" := hkey _ (.head _)
    rw [SortedMap.get?_insert, if_neg hne]
  · have hname : Path.IsName "eln_data.yaml" := by decide
    have haccepted : Store.isAccepted Input.notebook.endings ("lab" ++ "/" ++ "eln_data.yaml") =
        true := by
      rw [Store.isAccepted_below hname, Store.isAccepted_name hname (by decide)]
      decide
    have hread : (laboratory.files.read "lab/eln_data.yaml" >>= Storage.decode).toOption =
        some "workflow:\n  raw_dat_file: run.rhit\n" := by
      decide
    obtain ⟨store, hloaded, -⟩ := Store.exists_loaded haccepted hread (P := fun _ => true)
      (by decide +kernel)
    have hparent : Path.parent? ("lab" ++ "/" ++ "eln_data.yaml") = some "lab" :=
      Path.parent?_below ⟨by decide, by decide, by decide⟩ hname
    exact ⟨store, hloaded, (checksums_of_run "lab" store 1 .empty laboratory).2.2.2 _ hloaded
      (congrArg (Option.getD · "") hparent.symm)⟩

/-- A notebook that names a directory, and says something about the
specimen that cannot be read. -/
def spoiled : Store :=
  .ofList [("specimen/is_polycrystalline", .text "perhaps"), ("workflow/raw_dat_file", .text "raw.d")]

/-- The directory that it names. -/
def rawDirectory : World := .ofFiles ⟨[], [(["raw.d"], .directory)]⟩

/-- What comes before the workflow need not succeed. Then a file that
cannot be read is not reached. -/
theorem exists_unreadable_unreached :
    Unreadable rawDirectory.files "" spoiled "raw_dat_file" "raw.d" .isADirectory ∧
      ∃ e t w', exec (runAll (Input.notebook.steps "" spoiled 1)) .empty rawDirectory =
        ((.error (.mapping e), t), w') := by
  refine ⟨⟨by decide, by decide, by decide⟩, ?_⟩
  have hfailure : (stepsAccount rawDirectory.files (Input.notebook.steps "" spoiled 1)).failure =
      some (.mapping (.conversion "specimen/is_polycrystalline" (.notABoolean "perhaps"))) := by
    decide
  have hrun := exec_runAll (Input.notebook.steps "" spoiled 1) .empty rawDirectory
  rw [Account.perform, Account.result, hfailure] at hrun
  exact ⟨_, _, _, hrun⟩

end AtomProbe.Source
