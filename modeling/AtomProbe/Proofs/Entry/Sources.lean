import AtomProbe.Proofs.Entry.Merge
import AtomProbe.Proofs.Source.Overlay
import AtomProbe.Proofs.World.Trace

/-!
# `AtomProbe.Proofs.Entry.Sources`: the files that an entry is made of

The sources of an entry are its inputs, and the files of the workflow
that its notebook names.

* `reads_template`: making the template of an entry looks at no other
  files, and only remarks on them.
* `result_congr_of_sources`: the template is the same wherever the
  sources hold the same.
-/

set_option autoImplicit false

namespace AtomProbe

/-! ### Remarks -/

namespace Record

theorem isRemark_detail (text : String) : IsRemark ⟨.detail, text⟩ :=
  ⟨nofun, fun h => Level.noConfusion (congrArg level h)⟩

theorem isRemark_warning (text : String) : IsRemark ⟨.warning, text⟩ :=
  ⟨nofun, fun h => Level.noConfusion (congrArg level h)⟩

/-- An info is a remark if it begins unlike the report of success. -/
theorem isRemark_info {text : String} (h : text.toList.head? ≠ some 'S') :
    IsRemark ⟨.info, text⟩ :=
  ⟨nofun, fun heq => h (congrArg (fun r => r.text.toList.head?) heq)⟩

end Record

/-! ### Inputs -/

namespace Store

variable {paths : List String}

theorem reads_readSized (w : World) {path : String} (h : path ∈ paths) :
    Reads w paths (readSized path).run (readSized path).run := by
  refine (Reads.isPresent h).lift.bind_run ?_
  intro isPresent _
  cases isPresent with
  | false => exact .pure w paths _
  | true =>
    refine (Reads.readText h).lift.bind_run ?_
    intro content _
    refine (Reads.ofExcept w paths _).bind_run ?_
    intro text _
    refine (Reads.ofExcept w paths _).bind_run ?_
    intro value _
    refine (Reads.forReports _ fun above _ =>
      Record.isRemark_detail (skippedText above)).bind_run fun _ _ => ?_
    exact (Reads.ofExcept w paths _).bind_run fun store _ => .pure w paths _

theorem reads_load (w : World) (endings : List String) {path : String} (h : path ∈ paths) :
    Reads w paths (load endings path).run (load endings path).run := by
  simp only [load]
  split
  · refine (reads_readSized w h).lift.bind_run ?_
    intro result _
    cases result with
    | error e =>
      -- a missing file is warned of, and any other error is passed on
      cases e with
      | missingFile missing =>
        exact (Reads.report (Record.isRemark_warning _)).lift.bind_run fun _ _ => .pure w paths _
      | file cause => exact .pure w paths _
      | document cause => exact .pure w paths _
      | rootNotMapping => exact .pure w paths _
    | ok result =>
      obtain ⟨store, size⟩ := result
      have hinfo : Record.IsRemark
          ⟨.info, s!"Extracted {store.size} keys from {path} ({Text.byteSize size})"⟩ :=
        Record.isRemark_info (by simp [toString])
      have hpairs : ∀ pair ∈ store.toList,
          Record.IsRemark ⟨.detail, s!"key: {pair.1}, value: {pair.2.display}"⟩ :=
        fun pair _ => Record.isRemark_detail _
      refine (Reads.report hinfo).lift.bind_run fun _ _ => ?_
      exact (Reads.forReports store.toList hpairs).bind_run fun _ _ => .pure w paths _
  · exact (Reads.report (Record.isRemark_warning _)).lift.bind_run fun _ _ => .pure w paths _

end Store

namespace Source

variable {α β : Type} {w : World} {paths : List String} {t : Template}

theorem reads_inputLoad (w : World) (input : Input) {path : String} (h : path ∈ paths) :
    Reads w paths (input.load path).run (input.load path).run := by
  have hinfo : Record.IsRemark ⟨.info, input.announcement ++ path⟩ := by
    refine Record.isRemark_info ?_
    cases input <;> simp [Input.announcement]
  refine (Reads.report hinfo).lift.bind_run fun _ _ => ?_
  refine (Store.reads_load w input.endings h).lift.bind_run ?_
  intro result _
  cases result <;> exact .pure w paths _

/-! ### Conversions -/

/-- Conversions in order only read if each of them does. -/
theorem reads_bind {c : Conversion (StateM Observed) α} {d : Conversion (StateM World) α}
    {f : α → Conversion (StateM Observed) β} {g : α → Conversion (StateM World) β}
    (h : Reads w paths (c.run.run t) (d.run.run t))
    (hnext : ∀ x t', (exec d t w).1 = (.ok x, t') →
      Reads w paths ((f x).run.run t') ((g x).run.run t')) :
    Reads w paths ((c >>= f).run.run t) ((d >>= g).run.run t) := by
  rw [ExceptT.run_bind, ExceptT.run_bind, StateT.run_bind, StateT.run_bind]
  refine h.bind ?_
  intro result hresult
  obtain ⟨result, t'⟩ := result
  cases result with
  | ok x => exact hnext x t' hresult
  | error e => exact .pure w paths _

/-- An operation on the world, as a part of a conversion. -/
theorem reads_lift {c : StateM Observed α} {d : StateM World α} (h : Reads w paths c d) :
    Reads w paths
      ((ExceptT.lift (liftM c : StateT Template (StateM Observed) α) :
        Conversion (StateM Observed) α).run.run t)
      ((ExceptT.lift (liftM d : StateT Template (StateM World) α) :
        Conversion (StateM World) α).run.run t) := by
  show Reads w paths (c >>= fun x => pure (Except.ok x, t)) (d >>= fun x => pure (Except.ok x, t))
  exact h.bind fun _ _ => .pure w paths _

theorem reads_writeChecksum (target : String) (ids : List UInt32) (key : String) {path : String}
    (h : path ∈ paths) :
    Reads w paths ((writeChecksum target ids key path).run.run t)
      ((writeChecksum target ids key path).run.run t) := by
  refine reads_bind (reads_lift (Reads.isPresent h)) ?_
  intro isPresent t' _
  cases isPresent with
  | false => exact reads_lift (Reads.report (Record.isRemark_warning _))
  | true =>
    refine reads_bind (reads_lift (Reads.read h)) ?_
    intro content t' _
    cases content with
    | error e => exact .pure w paths _
    | ok content =>
      dsimp only
      cases VariadicPath.resolve? target ids with
      | none => exact .pure w paths _
      | some resolved =>
        exact reads_bind (reads_lift (Reads.report (Record.isRemark_detail _))) fun _ _ _ =>
          .pure w paths _

theorem reads_applyTable (table : Table) (store : Store) (ids : List UInt32) :
    Reads w paths ((applyTable table store ids).run.run t)
      ((applyTable table store ids).run.run t) := by
  -- the template is asked for, and put back, without the world
  refine reads_bind (.pure w paths (Except.ok t, t)) ?_
  intro before t' _
  cases table.apply store ids before with
  | mk template result =>
    refine reads_bind (.pure w paths (Except.ok (), template)) ?_
    intro _ t' _
    cases result with
    | error e => exact .pure w paths _
    | ok outcomes => exact reads_lift (Reads.report (Record.isRemark_detail _))

/-- Whether what a step reports is a remark. -/
def Step.IsQuiet : Step → Prop
  | .report r => r.IsRemark
  | _ => True

/-- A step looks at the files whose checksums it takes. -/
theorem reads_run {step : Step} (h : step.files ⊆ paths) (hquiet : step.IsQuiet) :
    Reads w paths (step.run.run.run t) (step.run.run.run t) := by
  cases step with
  | report r => exact reads_lift (Reads.report hquiet)
  | apply table store ids => exact reads_applyTable table store ids
  | checksum target ids key path =>
    exact reads_writeChecksum target ids key (h List.mem_cons_self)

theorem reads_runAll {steps : List Step} (h : steps.flatMap Step.files ⊆ paths)
    (hquiet : ∀ step ∈ steps, step.IsQuiet) :
    Reads w paths ((runAll steps).run.run t) ((runAll steps).run.run t) := by
  induction steps generalizing t with
  | nil => exact .pure w paths _
  | cons step steps ih =>
    rw [List.flatMap_cons, List.append_subset] at h
    rw [List.forall_mem_cons] at hquiet
    exact reads_bind (reads_run h.1 hquiet.1) fun _ _ _ => ih h.2 hquiet.2

/-! ### What the steps of an input report -/

theorem isRemark_usersReports {store : Store} {id : UInt32} {r : Record}
    (h : r ∈ Notebook.usersReports store id) : r.IsRemark := by
  rw [Notebook.usersReports, Option.mem_toList, Option.map_eq_some_iff] at h
  obtain ⟨records, -, rfl⟩ := h
  exact Record.isRemark_detail _

theorem isRemark_lasersReports {store : Store} {r : Record} (h : r ∈ Notebook.lasersReports store) :
    r.IsRemark := by
  rw [Notebook.lasersReports] at h
  split at h
  · cases h
  · obtain rfl := List.mem_singleton.1 h
    exact Record.isRemark_warning _

/-- No step of an input reports more than a remark. -/
theorem isQuiet_steps (input : Input) (directory : String) (store : Store) (id : UInt32) :
    ∀ step ∈ input.steps directory store id, step.IsQuiet := by
  intro step hstep
  rcases cases_of_mem_steps hstep with ⟨table, record, ids, rfl⟩ | ⟨r, rfl, hr⟩ | ⟨-, hstep⟩
  · trivial
  · exact hr.elim isRemark_usersReports isRemark_lasersReports
  · obtain ⟨p, -, name, -, rfl⟩ := Notebook.mem_workflowSteps.1 hstep
    trivial

/-! ### Sources -/

/-- The files that an input is made of: its own one, and those that the
workflow in it names. -/
def Input.sources (files : FileTree) (input : Input) (path : String) : List String :=
  path :: (Parser.input input ((Path.parent? path).getD "")
    (Store.loaded files input.endings path).toOption.join).workflowFiles

/-- Converting an input looks at no other files than its sources. -/
theorem reads_convert (w : World) (input : Input) (path : String) (id : UInt32) (t : Template) :
    Reads w (input.sources w.files path) ((input.convert path id).run.run t)
      ((input.convert path id).run.run t) := by
  have hpath : path ∈ input.sources w.files path := List.mem_cons_self
  refine reads_bind (reads_lift (reads_inputLoad w input hpath)) ?_
  intro result t' hresult
  -- the steps are those of the store that was loaded
  have hloaded : (attempt (input.load path) w).1 = result :=
    Except.ok.inj (congrArg Prod.fst hresult)
  rw [attempt_inputLoad] at hloaded
  cases hstore : Store.loaded w.files input.endings path with
  | error e =>
    rw [hstore] at hloaded
    subst hloaded
    exact .pure w _ _
  | ok store =>
    rw [hstore] at hloaded
    subst hloaded
    cases store with
    | none => exact .pure w _ _
    | some store =>
      refine reads_runAll ?_ (isQuiet_steps input _ store id)
      rw [Input.sources, hstore]
      exact List.Subset.trans (files_steps_subset (.input input _ (some store)) id)
        (List.subset_cons_self ..)

end Source

namespace Entry

open Source

/-- The files that an entry is made of. -/
def sources (files : FileTree) (entry : Entry) : List String :=
  entry.inputs.flatMap fun (input, path) => input.sources files path

theorem reads_convertAll {w : World} {paths : List String} (id : UInt32)
    {inputs : List (Input × String)}
    (h : ∀ input ∈ inputs, input.1.sources w.files input.2 ⊆ paths) (t : Template) :
    Reads w paths ((convertAll id inputs).run.run t) ((convertAll id inputs).run.run t) := by
  induction inputs generalizing t with
  | nil => exact .pure w paths _
  | cons first more ih =>
    obtain ⟨input, path⟩ := first
    rw [List.forall_mem_cons] at h
    exact reads_bind ((reads_convert w input path id t).mono h.1) fun _ t' _ => ih h.2 t'

/-- Making the template of an entry looks at no other files than its
sources. -/
theorem reads_template (w : World) (entry : Entry) :
    Reads w (entry.sources w.files) entry.template.run entry.template.run := by
  have hfill : Reads w (entry.sources w.files) (entry.fill.run.run .empty)
      (entry.fill.run.run .empty) := by
    have hinputs : ∀ input ∈ entry.inputs,
        input.1.sources w.files input.2 ⊆ entry.sources w.files := by
      intro input hinput path hpath
      exact List.mem_flatMap.2 ⟨input, hinput, hpath⟩
    -- the table that comes first needs no file
    refine reads_bind (reads_runAll (List.nil_subset _) ?_) ?_
    · intro step hstep
      obtain rfl := List.mem_singleton.1 hstep
      trivial
    · intro _ t _
      exact reads_convertAll entry.id hinputs t
  -- what is left is to give the template, or the error
  refine hfill.lift.bind_run ?_
  intro result _
  obtain ⟨result, template⟩ := result
  cases result <;> exact .pure w _ _

end Entry

/-! ### What sources decide -/

section
variable {files files' : FileTree}

theorem Store.loaded_congr {path : String} (h : files.SameUnder files' path)
    (endings : List String) : loaded files' endings path = loaded files endings path := by
  obtain ⟨hpresent, hread⟩ := h
  rw [loaded, loaded, hpresent, fileStore, fileStore]
  cases hfile : files.isPresent path with
  | false => rw [Bool.and_false, if_neg Bool.false_ne_true, if_neg Bool.false_ne_true]
  | true => rw [hread hfile]

theorem Store.loadReports_congr {path : String} (h : files.SameUnder files' path)
    (endings : List String) : loadReports files' endings path = loadReports files endings path := by
  obtain ⟨hpresent, hread⟩ := h
  rw [loadReports, loadReports, hpresent]
  cases hfile : files.isPresent path with
  | false => rfl
  | true => rw [hread hfile]

/-- An input does the same wherever its sources hold the same. -/
theorem Source.Input.account_congr {input : Input} {path : String}
    (h : ∀ source ∈ input.sources files path, files.SameUnder files' source) (id : UInt32) :
    input.account files' path id = input.account files path id := by
  have hpath : files.SameUnder files' path := h path List.mem_cons_self
  rw [Input.account, Input.account, Store.loaded_congr hpath, Store.loadReports_congr hpath]
  cases hstore : Store.loaded files input.endings path with
  | error e => rfl
  | ok store =>
    cases store with
    | none => rfl
    | some store =>
      have hsteps : stepsAccount files' (input.steps ((Path.parent? path).getD "") store id) =
          stepsAccount files (input.steps ((Path.parent? path).getD "") store id) := by
        refine stepsAccount_congr_of_sameUnder ?_
        intro source hsource
        refine h source (List.mem_cons_of_mem path ?_)
        rw [hstore]
        exact files_steps_subset (.input input _ (some store)) id hsource
      simp only [hsteps]

/-- The template of an entry is the same wherever its sources hold the
same. -/
theorem Entry.result_congr_of_sources {w w' : World} {entry : Entry}
    (h : ∀ source ∈ entry.sources w.files, w.files.SameUnder w'.files source) :
    entry.result w' = entry.result w := by
  have hinputs : inputAccounts w'.files entry.id entry.inputs =
      inputAccounts w.files entry.id entry.inputs := by
    refine List.map_congr_left ?_
    intro input hinput
    exact Source.Input.account_congr (fun source hsource =>
      h source (List.mem_flatMap.2 ⟨input, hinput, hsource⟩)) entry.id
  -- the application definition takes no checksums
  have hdefinition : Source.stepsAccount w'.files (Source.definitionSteps entry.id) =
      Source.stepsAccount w.files (Source.definitionSteps entry.id) := rfl
  rw [result_eq, result_eq, partAccounts, partAccounts, hinputs, hdefinition]

end

end AtomProbe
