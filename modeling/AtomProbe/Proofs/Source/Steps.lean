import AtomProbe.Proofs.SortedMap
import AtomProbe.Source.Input

/-!
# `AtomProbe.Proofs.Source.Steps`: what the steps of an input are

The steps of an input come in sections. One section applies tables to
records, with a number for each of them (`recordSteps`), one to the store
itself; the last one of a notebook takes checksums. Which records a
section is about is told by the store, and so is what is reported when
there are none.

* `Notebook.usersSteps_eq`, `Notebook.lasersSteps_eq`,
  `Deployment.steps_eq`: each section in this form, whatever the store
  holds.
* `apply_mem_notebook`, `apply_mem_deployment`: which tables are applied,
  to what, and with which identifiers.
* `cases_of_mem_steps`: what else is done. What all steps of an input have
  in common follows from this.
-/

set_option autoImplicit false

namespace AtomProbe.Source

open Vocabulary

/-! ### Records -/

/-- The records under a key. -/
def recordsUnder (store : Store) (key : String) : List Store := (store.records? key).getD []

/-- The tables for a user. -/
def userTables (user : Store) : List Table :=
  Vocabulary.user :: if user.contains Notebook.userIdentifierKey then [userIdentifier] else []

/-- The tables for a laser source. -/
def laserTables : List Table := [laserSourceStatic, laserSourceDynamic]

/-- The laser sources that are used. -/
def firedLasers (store : Store) : List Store :=
  if store.text? Notebook.pulseModeKey = some Notebook.voltageMode then []
  else recordsUnder store Notebook.laserSourceKey

theorem recordsUnder_of_isEmpty {store : Store} (h : store.isEmpty = true) (key : String) :
    recordsUnder store key = [] := by
  rw [SortedMap.eq_empty_of_isEmpty h]
  rfl

/-- The steps that apply tables to a store. -/
def tableSteps (tables : List Table) (store : Store) (ids : List UInt32) : List Step :=
  tables.map fun table => .apply table store ids

/-- The steps that apply the tables for a record to it, for records that
are numbered from one. -/
def recordSteps (id : UInt32) (tables : Store → List Table) (records : List Store) : List Step :=
  numbered id (fun record ids => tableSteps (tables record) record ids) records

section

variable {id : UInt32} {table : Table} {record store : Store} {ids ids' : List UInt32}

theorem apply_mem_tableSteps {tables : List Table} :
    .apply table record ids ∈ tableSteps tables store ids' ↔
      table ∈ tables ∧ record = store ∧ ids = ids' := by
  simp only [tableSteps, List.mem_map, Step.apply.injEq]
  constructor
  · rintro ⟨table', htable, rfl, rfl, rfl⟩
    exact ⟨htable, rfl, rfl⟩
  · rintro ⟨htable, rfl, rfl⟩
    exact ⟨table, htable, rfl, rfl, rfl⟩

theorem apply_mem_recordSteps {tables : Store → List Table} {records : List Store} :
    .apply table record ids ∈ recordSteps id tables records ↔
      ∃ n, (record, n) ∈ records.zipIdx 1 ∧ table ∈ tables record ∧
        ids = [id, UInt32.ofNat n] := by
  simp only [recordSteps, numbered, List.mem_flatMap, Prod.exists, apply_mem_tableSteps]
  constructor
  · rintro ⟨record', n, hn, htable, rfl, rfl⟩
    exact ⟨n, hn, htable, rfl⟩
  · rintro ⟨n, hn, htable, rfl⟩
    exact ⟨record, n, hn, htable, rfl, rfl⟩

theorem exists_apply_of_mem_tableSteps {tables : List Table} {step : Step}
    (h : step ∈ tableSteps tables store ids) :
    ∃ table record ids, step = .apply table record ids := by
  obtain ⟨table, -, rfl⟩ := List.mem_map.1 h
  exact ⟨table, store, ids, rfl⟩

theorem exists_apply_of_mem_recordSteps {tables : Store → List Table} {records : List Store}
    {step : Step} (h : step ∈ recordSteps id tables records) :
    ∃ table record ids, step = .apply table record ids := by
  obtain ⟨⟨record, n⟩, -, hstep⟩ := List.mem_flatMap.1 h
  exact exists_apply_of_mem_tableSteps hstep

end

/-! ### The sections of a notebook -/

namespace Notebook

/-- What is reported about the users. -/
def usersReports (store : Store) (id : UInt32) : List Record :=
  ((store.records? userKey).map fun records =>
    ⟨.detail, s!"Parsed {(nonempty records).length} user(s) for entry {id.toNat}"⟩).toList

/-- What is reported about the laser sources. Without voltage pulses there
should be some. -/
def lasersReports (store : Store) : List Record :=
  if store.text? pulseModeKey = some voltageMode ∨ (store.records? laserSourceKey).isSome then []
  else [⟨.warning, "pulse_mode != voltage but no laser details specified!"⟩]

theorem userSteps_eq (user : Store) (ids : List UInt32) :
    userSteps user ids = tableSteps (userTables user) user ids := by
  rw [userSteps, userTables]
  split <;> rfl

theorem usersSteps_eq (store : Store) (id : UInt32) :
    usersSteps store id =
      recordSteps id userTables (nonempty (recordsUnder store userKey)) ++
        (usersReports store id).map .report := by
  rw [usersSteps, recordsUnder, usersReports, recordSteps]
  simp only [← userSteps_eq]
  cases store.records? userKey <;> rfl

theorem lasersSteps_eq (store : Store) (id : UInt32) :
    lasersSteps store id =
      recordSteps id (fun _ => laserTables) (firedLasers store) ++
        (lasersReports store).map .report := by
  rw [lasersSteps, firedLasers, recordsUnder, lasersReports]
  by_cases hmode : store.text? pulseModeKey = some voltageMode
  · rw [if_pos hmode, if_pos hmode, if_pos (.inl hmode)]
    rfl
  · rw [if_neg hmode, if_neg hmode]
    cases store.records? laserSourceKey with
    | none =>
      rw [if_neg (by simp [hmode])]
      rfl
    | some lasers =>
      rw [if_pos (.inr rfl), List.map_nil, List.append_nil]
      rfl

/-- The steps of a notebook before those for the files of the workflow. -/
def beforeWorkflow (store : Store) (id : UInt32) : List Step :=
  let number := entryNumber id
  if store.isEmpty then []
  else
    usersSteps store number ++ lasersSteps store number ++
      entryTables.map fun table => .apply table store [number]

theorem workflowSteps_of_isEmpty {store : Store} (h : store.isEmpty = true) (directory : String)
    (id : UInt32) : workflowSteps directory store id = [] := by
  rw [SortedMap.eq_empty_of_isEmpty h]
  rfl

theorem steps_eq (directory : String) (store : Store) (id : UInt32) :
    Input.notebook.steps directory store id =
      beforeWorkflow store id ++ workflowSteps directory store (entryNumber id) := by
  rw [Input.steps.eq_def, beforeWorkflow]
  cases hempty : store.isEmpty with
  | true => rw [workflowSteps_of_isEmpty hempty, if_pos rfl, if_pos rfl, List.append_nil]
  | false => rfl

theorem beforeWorkflow_of_isEmpty {store : Store} (h : store.isEmpty = true) (id : UInt32) :
    beforeWorkflow store id = [] := if_pos h

/-- The sections before the workflow: users, laser sources, and what is
said about the entry itself. -/
theorem beforeWorkflow_of_nonempty {store : Store} (h : store.isEmpty = false) (id : UInt32) :
    beforeWorkflow store id =
      (recordSteps (entryNumber id) userTables (nonempty (recordsUnder store userKey)) ++
          (usersReports store (entryNumber id)).map .report) ++
        (recordSteps (entryNumber id) (fun _ => laserTables) (firedLasers store) ++
          (lasersReports store).map .report) ++
        tableSteps entryTables store [entryNumber id] := by
  rw [beforeWorkflow, h, usersSteps_eq, lasersSteps_eq]
  rfl

/-- Each checksum is that of a file that the notebook names. -/
theorem mem_workflowSteps {directory : String} {store : Store} {id : UInt32} {step : Step} :
    step ∈ workflowSteps directory store id ↔
      ∃ p ∈ workflowChecksums, ∃ name, store.text? (workflowSource ++ "/" ++ p.2) = some name ∧
        .checksum (workflowTarget ++ "/" ++ p.1) [id] (workflowSource ++ "/" ++ p.2)
          (Path.join directory name) = step := by
  simp only [workflowSteps, List.mem_filterMap, Option.map_eq_some_iff]

end Notebook

/-! ### The sections of the configuration of a facility -/

/-- The tables for what is said about a facility itself. -/
def facilityTables : List Table := [facilityInstrument, coordinateSystem]

theorem Deployment.steps_eq (store : Store) (id : UInt32) :
    Deployment.steps store id =
      tableSteps facilityTables store [id] ++
        recordSteps id (fun _ => [citation]) (nonempty (recordsUnder store citationKey)) := by
  rw [Deployment.steps, recordsUnder]
  cases store.records? citationKey <;> rfl

/-! ### The steps of an input -/

section

variable {input : Input} {directory : String} {store : Store} {id : UInt32}

theorem Input.steps_of_isEmpty (h : store.isEmpty = true) :
    input.steps directory store id = [] := if_pos h

theorem Input.steps_of_nonempty (h : store.isEmpty = false) :
    input.steps directory store id =
      match input with
      | .notebook => Notebook.steps directory store (entryNumber id)
      | .deployment => Deployment.steps store (entryNumber id)
      | .vendor => tableSteps [Vocabulary.vendor] store [entryNumber id] :=
  if_neg (by rw [h]; decide)

variable {table : Table} {record : Store} {ids : List UInt32}

theorem apply_notMem_reports {records : List Record} :
    .apply table record ids ∉ records.map Step.report := by
  intro h
  obtain ⟨r, -, heq⟩ := List.mem_map.1 h
  cases heq

theorem apply_notMem_workflowSteps :
    .apply table record ids ∉ Notebook.workflowSteps directory store id := by
  intro h
  obtain ⟨p, -, name, -, heq⟩ := Notebook.mem_workflowSteps.1 h
  cases heq

/-- Which tables are applied to a notebook, and to what. -/
theorem apply_mem_notebook :
    .apply table record ids ∈ Input.notebook.steps directory store id ↔
      (∃ n, (record, n) ∈ (nonempty (recordsUnder store Notebook.userKey)).zipIdx 1 ∧
        table ∈ userTables record ∧ ids = [entryNumber id, UInt32.ofNat n]) ∨
      (∃ n, (record, n) ∈ (firedLasers store).zipIdx 1 ∧
        table ∈ [laserSourceStatic, laserSourceDynamic] ∧
          ids = [entryNumber id, UInt32.ofNat n]) ∨
      store.isEmpty = false ∧ table ∈ entryTables ∧ record = store ∧ ids = [entryNumber id] := by
  rw [Notebook.steps_eq, List.mem_append, or_iff_left apply_notMem_workflowSteps]
  cases hempty : store.isEmpty with
  | true =>
    rw [Notebook.beforeWorkflow_of_isEmpty hempty, firedLasers, recordsUnder_of_isEmpty hempty,
      recordsUnder_of_isEmpty hempty, ite_self]
    simp [nonempty]
  | false =>
    simp only [Notebook.beforeWorkflow_of_nonempty hempty, List.mem_append, apply_mem_recordSteps,
      apply_mem_tableSteps, apply_notMem_reports, laserTables, or_false, or_assoc, true_and]

/-- Which tables are applied to the configuration of a facility, and to
what. -/
theorem apply_mem_deployment :
    .apply table record ids ∈ Input.deployment.steps directory store id ↔
      (∃ n, (record, n) ∈ (nonempty (recordsUnder store Deployment.citationKey)).zipIdx 1 ∧
        table ∈ [citation] ∧ ids = [entryNumber id, UInt32.ofNat n]) ∨
      store.isEmpty = false ∧ table ∈ [facilityInstrument, coordinateSystem] ∧ record = store ∧
        ids = [entryNumber id] := by
  cases hempty : store.isEmpty with
  | true =>
    rw [Input.steps_of_isEmpty hempty, recordsUnder_of_isEmpty hempty]
    simp [nonempty]
  | false =>
    rw [Input.steps_of_nonempty hempty]
    simp only [Deployment.steps_eq, List.mem_append, apply_mem_recordSteps, apply_mem_tableSteps,
      facilityTables, true_and]
    exact or_comm

/-- The table for the vendor is applied to all that the vendor says. -/
theorem apply_mem_vendor :
    .apply table record ids ∈ Input.vendor.steps directory store id ↔
      store.isEmpty = false ∧ table = Vocabulary.vendor ∧ record = store ∧
        ids = [entryNumber id] := by
  cases hempty : store.isEmpty with
  | true =>
    rw [Input.steps_of_isEmpty hempty]
    simp
  | false =>
    rw [Input.steps_of_nonempty hempty]
    simp only [apply_mem_tableSteps, List.mem_singleton, true_and]

/-- What comes before the workflow applies tables, or reports what is said
about users or laser sources. -/
theorem cases_of_mem_beforeWorkflow {step : Step} (h : step ∈ Notebook.beforeWorkflow store id) :
    (∃ table record ids, step = .apply table record ids) ∨
    ∃ r, step = .report r ∧
      (r ∈ Notebook.usersReports store (entryNumber id) ∨ r ∈ Notebook.lasersReports store) := by
  cases hempty : store.isEmpty with
  | true =>
    rw [Notebook.beforeWorkflow_of_isEmpty hempty] at h
    cases h
  | false =>
    simp only [Notebook.beforeWorkflow_of_nonempty hempty, List.mem_append] at h
    rcases h with ((h | h) | h | h) | h
    · exact .inl (exists_apply_of_mem_recordSteps h)
    · obtain ⟨r, hr, rfl⟩ := List.mem_map.1 h
      exact .inr ⟨r, rfl, .inl hr⟩
    · exact .inl (exists_apply_of_mem_recordSteps h)
    · obtain ⟨r, hr, rfl⟩ := List.mem_map.1 h
      exact .inr ⟨r, rfl, .inr hr⟩
    · exact .inl (exists_apply_of_mem_tableSteps h)

/-- A step of an input is one of these, or it takes a checksum. -/
theorem cases_of_mem_steps {step : Step} (h : step ∈ input.steps directory store id) :
    (∃ table record ids, step = .apply table record ids) ∨
    (∃ r, step = .report r ∧
      (r ∈ Notebook.usersReports store (entryNumber id) ∨ r ∈ Notebook.lasersReports store)) ∨
    (input = .notebook ∧ step ∈ Notebook.workflowSteps directory store (entryNumber id)) := by
  cases input with
  | notebook =>
    rw [Notebook.steps_eq, List.mem_append] at h
    rcases h with h | h
    · exact or_assoc.1 (.inl (cases_of_mem_beforeWorkflow h))
    · exact .inr (.inr ⟨rfl, h⟩)
  | deployment =>
    -- the other inputs do nothing but apply tables
    refine .inl ?_
    cases hempty : store.isEmpty with
    | true =>
      rw [Input.steps_of_isEmpty hempty] at h
      cases h
    | false =>
      rw [Input.steps_of_nonempty hempty] at h
      simp only [Deployment.steps_eq, List.mem_append] at h
      exact h.elim exists_apply_of_mem_tableSteps exists_apply_of_mem_recordSteps
  | vendor =>
    refine .inl ?_
    cases hempty : store.isEmpty with
    | true =>
      rw [Input.steps_of_isEmpty hempty] at h
      cases h
    | false =>
      rw [Input.steps_of_nonempty hempty] at h
      exact exists_apply_of_mem_tableSteps h

end

end AtomProbe.Source
