import AtomProbe.Proofs.Source.Overlay
import AtomProbe.Proofs.Source.Units
import AtomProbe.Proofs.Vocabulary.Places

/-!
# `AtomProbe.Proofs.Source.Sections`: the sections of a notebook

A notebook is converted section by section: the users, the laser
sources, the entry itself, and at last the files of the workflow. Only
the last section looks at files, and only the keys below its own tell
what it does.

* `mem_inputTables`, `mem_checksumTargets`: the tables that an input is
  converted by, and the checksums that it takes.
* `stepsAccount_beforeWorkflow_congr`: what the sections before the
  workflow do, they do for every store that agrees on the keys that they
  read.
-/

set_option autoImplicit false

namespace AtomProbe.Source

open Vocabulary

/-! ### What an input does -/

/-- The steps of an input apply its tables. -/
theorem mem_inputTables {input : Input} {directory : String} {store : Store} {id : UInt32}
    {table : Table} {record : Store} {ids : List UInt32}
    (h : .apply table record ids ∈ input.steps directory store id) : table ∈ inputTables input := by
  cases input with
  | notebook => exact mem_notebookTables h
  | deployment =>
    simp only [inputTables, List.mem_cons]
    rcases apply_mem_deployment.1 h with ⟨n, -, hmem, -⟩ | ⟨-, hmem, -⟩
    · exact .inr (.inr (List.mem_cons.1 hmem))
    · simp only [List.mem_cons, List.not_mem_nil, or_false] at hmem
      exact hmem.elim .inl (.inr ∘ .inl)
  | vendor => exact List.mem_singleton.2 (apply_mem_vendor.1 h).2.1

/-- The steps of an input take its checksums. -/
theorem mem_checksumTargets {input : Input} {directory : String} {store : Store} {id : UInt32}
    {target : String} {ids : List UInt32} {key path : String}
    (h : .checksum target ids key path ∈ input.steps directory store id) :
    target ∈ checksumTargets input := by
  rcases cases_of_mem_steps h with ⟨table, record, ids, heq⟩ | ⟨r, heq, -⟩ | ⟨rfl, hworkflow⟩
  · cases heq
  · cases heq
  · obtain ⟨p, hp, name, -, heq⟩ := Notebook.mem_workflowSteps.1 hworkflow
    cases heq
    exact List.mem_map_of_mem hp

theorem checksum_notMem_beforeWorkflow {store : Store} {id : UInt32} {target : String}
    {ids : List UInt32} {key path : String} :
    .checksum target ids key path ∉ Notebook.beforeWorkflow store id := by
  intro h
  rcases cases_of_mem_beforeWorkflow h with ⟨table, record, ids, heq⟩ | ⟨r, heq, -⟩
  · cases heq
  · cases heq

/-! ### What comes before the workflow -/

/-- The sections before the workflow read the users, the laser sources
and the keys of the tables, and no files. -/
theorem stepsAccount_beforeWorkflow_congr (files files' : FileTree) {store store' : Store}
    (id : UInt32) (hempty : store'.isEmpty = store.isEmpty)
    (husers : store'.records? Notebook.userKey = store.records? Notebook.userKey)
    (hlasers : Notebook.lasersSteps store' (entryNumber id) =
      Notebook.lasersSteps store (entryNumber id))
    (hkeys : ∀ table ∈ entryTables, ∀ key ∈ table.sourceKeys, store'.get? key = store.get? key) :
    stepsAccount files' (Notebook.beforeWorkflow store' id) =
      stepsAccount files (Notebook.beforeWorkflow store id) := by
  -- first the files are changed, and then the store
  have hfiles : stepsAccount files' (Notebook.beforeWorkflow store id) =
      stepsAccount files (Notebook.beforeWorkflow store id) :=
    stepsAccount_congr fun path hpath => by
      rw [files_beforeWorkflow] at hpath
      cases hpath
  have htables : (entryTables.map fun table => Step.apply table store' [entryNumber id]).map
        (Step.account files') =
      (entryTables.map fun table => Step.apply table store [entryNumber id]).map
        (Step.account files') := by
    rw [List.map_map, List.map_map]
    refine List.map_congr_left fun table htable => ?_
    have heffects : table.effects store' [entryNumber id] =
        table.effects store [entryNumber id] :=
      Table.effects_congr (hkeys table htable) rfl
    simp only [Function.comp_apply, Step.account, tableAccount, Table.writes, heffects]
  rw [← hfiles, stepsAccount, stepsAccount, Notebook.beforeWorkflow, Notebook.beforeWorkflow,
    hempty, hlasers, Notebook.usersSteps, Notebook.usersSteps, husers]
  cases store.isEmpty with
  | true => rfl
  | false =>
    simp only [Bool.false_eq_true, if_false, List.map_append, htables]

end AtomProbe.Source
