import AtomProbe.Proofs.SortedMap
import AtomProbe.Proofs.Vocabulary

/-!
# `AtomProbe.Proofs.Source.Insertion`: nothing is overwritten within one input

The conversion of an input applies several tables, some of them to many
records, and writes all of it into one template. No two of these writes
go to the same path.

* `nodup_inserts`: the paths that the steps of an input write are
  distinct. The addresses of its families are, since the targets of the
  tables are told apart by their characters and the records by their
  numbers.
* `nodup_of_run`: in a conversion that succeeds each value that was
  written is found in the template afterwards, and the outcomes and
  checksums count the paths.
-/

set_option autoImplicit false

namespace AtomProbe.Source

open VariadicPath (resolve?)

/-- The outcomes that a step reports. -/
def Step.outcomes : Step → List Outcome
  | .apply table store ids =>
    match (table.apply store ids .empty).2 with
    | .ok outcomes => outcomes
    | .error _ => []
  | _ => []

/-- Whether a step takes a checksum: the file has to be there. -/
def Step.takesChecksum (files : FileTree) : Step → Bool
  | .checksum _ _ _ path => files.isPresent path
  | _ => false

/-! ### The addresses of an input -/

/-- An address of a family of an input names an identifier for each
marker. -/
theorem isRegular_of_mem_addresses {input : Input} {number : UInt32} {counts : RecordCounts}
    {address : String × List UInt32}
    (h : address ∈ (input.families number counts).flatMap Family.addresses) :
    Vocabulary.isRegular Vocabulary.entryRoot.toList address.2.length address.1.toList = true := by
  obtain ⟨family, hfamily, haddress⟩ := List.mem_flatMap.1 h
  obtain ⟨hpattern, hids⟩ := Family.mem_addresses.1 haddress
  exact Vocabulary.isRegular_of_mem hfamily hpattern hids

theorem nodup_ids {input : Input} {number : UInt32} {counts : RecordCounts}
    (hshort : counts.IsShort) {family : Family} (h : family ∈ input.families number counts) :
    family.ids.Nodup := by
  cases input with
  | notebook =>
    simp only [Input.families, List.mem_cons, List.not_mem_nil, or_false] at h
    rcases h with rfl | rfl | rfl | rfl
    · exact nodup_recordIds number hshort.users
    · exact nodup_recordIds number hshort.lasers
    · exact List.nodup_singleton _
    · exact List.nodup_singleton _
  | deployment =>
    simp only [Input.families, List.mem_cons, List.not_mem_nil, or_false] at h
    rcases h with rfl | rfl
    · exact List.nodup_singleton _
    · exact nodup_recordIds number hshort.citations
  | vendor =>
    obtain rfl := List.mem_singleton.1 h
    exact List.nodup_singleton _

/-- All addresses of an input resolve to different paths. -/
theorem nodup_resolved (input : Input) (number : UInt32) {counts : RecordCounts}
    (hshort : counts.IsShort) :
    (((input.families number counts).flatMap Family.addresses).filterMap
      fun a => resolve? a.1 a.2).Nodup := by
  refine VariadicPath.nodup_filterMap_resolve
    (List.pairwise_append.1 (Vocabulary.pairwise_apart_families input number counts)).2.1
    (fun address haddress => ?_) (fun address haddress => ?_)
    (nodup_addresses (Vocabulary.nodup_families input number counts)
      fun family hfamily => nodup_ids hshort hfamily)
  · obtain ⟨family, hfamily, hmem⟩ := List.mem_flatMap.1 haddress
    exact List.mem_flatMap.2 ⟨family, hfamily, (Family.mem_addresses.1 hmem).1⟩
  · obtain ⟨-, -, hdelimited, hcount⟩ :=
      Vocabulary.isRegular_iff.1 (isRegular_of_mem_addresses haddress)
    exact ⟨hdelimited, hcount.symm⟩

/-- The steps of an input write no path twice. -/
theorem nodup_inserts (files : FileTree) (input : Input) (directory : String) (store : Store)
    (id : UInt32) (hshort : (RecordCounts.ofStore store).IsShort) :
    (((input.steps directory store id).flatMap (Step.inserts files)).map Prod.fst).Nodup :=
  (nodup_resolved input (entryNumber id) hshort).sublist
    (paths_sublist files input directory store id)

/-! ### The number of writes -/

/-- A step that does not fail writes as often as its outcomes say, or a
checksum if it takes one. -/
theorem length_inserts {files : FileTree} {step : Step}
    (hfailure : (step.account files).failure = none)
    (hresolve : ∀ a ∈ step.addresses, (resolve? a.1 a.2).isSome = true) :
    (step.inserts files).length =
      step.outcomes.countP Outcome.isWritten + if step.takesChecksum files then 1 else 0 := by
  cases step with
  | report r => rfl
  | apply table store ids =>
    simp only [Step.account, tableAccount] at hfailure
    simp only [Step.inserts, Step.outcomes, Step.takesChecksum, Table.apply]
    cases heffects : (table.effects store ids).failure with
    | some e =>
      rw [heffects] at hfailure
      cases hfailure
    | none => exact (Table.countP_outcomes _).symm
  | checksum target ids key path =>
    have htarget := hresolve (target, ids) List.mem_cons_self
    obtain ⟨resolved, hresolved⟩ := Option.isSome_iff_exists.1 htarget
    simp only [Step.account, checksumAccount] at hfailure
    by_cases hpresent : files.isPresent path = true
    · rw [if_pos hpresent] at hfailure
      cases hread : files.read path with
      | error e =>
        rw [hread] at hfailure
        cases hfailure
      | ok content =>
        -- the file is there and can be read, and the target resolves
        have hchecksum : checksum? files path = some (Digest.ofContent content) := by
          rw [checksum?, if_pos hpresent, hread]
          rfl
        simp only [Step.inserts, Step.outcomes, Step.takesChecksum, hchecksum, hresolved, hpresent]
        rfl
    · have hchecksum : checksum? files path = none := if_neg hpresent
      simp only [Step.inserts, Step.outcomes, Step.takesChecksum, hchecksum, hpresent]
      rfl

theorem length_flatMap_inserts {files : FileTree} {steps : List Step}
    (h : ∀ step ∈ steps, (step.account files).failure = none ∧
      ∀ a ∈ step.addresses, (resolve? a.1 a.2).isSome = true) :
    (steps.flatMap (Step.inserts files)).length =
      (steps.flatMap Step.outcomes).countP Outcome.isWritten +
        steps.countP (Step.takesChecksum files) := by
  induction steps with
  | nil => rfl
  | cons step steps ih =>
    have hstep := h step List.mem_cons_self
    have hrest := ih fun s hs => h s (List.mem_cons_of_mem _ hs)
    rw [List.flatMap_cons, List.flatMap_cons, List.length_append, List.countP_append,
      List.countP_cons, hrest, length_inserts hstep.1 hstep.2]
    omega

/-! ### Conversions that succeed -/

/-- Accounts in order that do not fail are those of all parts. -/
theorem Account.of_sequence {as : List Account} (h : (sequence as).failure = none) :
    (∀ a ∈ as, a.failure = none) ∧ (sequence as).writes = as.flatMap Account.writes := by
  induction as with
  | nil => exact ⟨fun a ha => (List.not_mem_nil ha).elim, rfl⟩
  | cons a as ih =>
    obtain ⟨reports, writes, failure⟩ := a
    cases failure with
    | some e => cases h
    | none =>
      obtain ⟨hall, hwrites⟩ := ih h
      refine ⟨fun b hb => ?_, ?_⟩
      · rcases List.mem_cons.1 hb with rfl | hb
        · rfl
        · exact hall b hb
      · exact congrArg (writes ++ ·) hwrites

theorem failure_of_perform {a : Account} {t t' : Template} {w w' : World}
    (h : a.perform t w = ((.ok (), t'), w')) : a.failure = none ∧ t' = t.insertAll a.writes := by
  obtain ⟨reports, writes, failure⟩ := a
  cases failure with
  | some e => cases h
  | none =>
    cases h
    exact ⟨rfl, rfl⟩

/-- Whether a step does not fail: no source of a table is refused, and a
file that is there can be read. The targets do not matter. -/
def Step.succeeds (files : FileTree) : Step → Bool
  | .report _ => true
  | .apply table store _ =>
    table.targetPath.toOption.isSome &&
      table.rules.all fun rule => (rule.product table store).toOption.isSome
  | .checksum _ _ _ path => !files.isPresent path || (files.read path).toOption.isSome

theorem Step.failure_of_succeeds {files : FileTree} {step : Step}
    (h : step.succeeds files = true) : (step.account files).failure = none := by
  cases step with
  | report r => rfl
  | apply table store ids =>
    rw [Step.succeeds, Bool.and_eq_true, List.all_eq_true] at h
    obtain ⟨path, htarget⟩ : ∃ path, table.targetPath = .ok path := by
      cases htarget : table.targetPath with
      | ok path => exact ⟨path, rfl⟩
      | error e =>
        rw [htarget] at h
        cases h.1
    simp only [Step.account, tableAccount, Table.failure_effects htarget h.2 ids]
  | checksum target ids key path =>
    rw [Step.succeeds] at h
    simp only [Step.account, checksumAccount]
    cases hpresent : files.isPresent path with
    | false => rfl
    | true =>
      cases hread : files.read path with
      | error e =>
        rw [hpresent, hread] at h
        cases h
      | ok content =>
        rw [if_pos rfl]
        dsimp only
        cases resolve? target ids <;> rfl

theorem failure_of_succeeds {files : FileTree} {steps : List Step}
    (h : steps.all (Step.succeeds files) = true) : (stepsAccount files steps).failure = none := by
  rw [List.all_eq_true] at h
  rw [stepsAccount]
  induction steps with
  | nil => rfl
  | cons step steps ih =>
    rw [List.map_cons, Account.sequence_cons, Account.failure_andThen,
      Step.failure_of_succeeds (h step List.mem_cons_self),
      ih fun s hs => h s (List.mem_cons_of_mem _ hs)]
    rfl

/-- Steps that do not fail succeed from any template. -/
theorem exec_of_succeeds (steps : List Step) {w : World}
    (h : steps.all (Step.succeeds w.files) = true) (t : Template) :
    ∃ t' w', exec (runAll steps) t w = ((.ok (), t'), w') := by
  have hrun := exec_runAll steps t w
  rw [Account.perform, Account.result_of_failure_eq_none (failure_of_succeeds h)] at hrun
  exact ⟨_, _, hrun⟩

theorem writes_stepsAccount {files : FileTree} {steps : List Step}
    (h : (stepsAccount files steps).failure = none) :
    (stepsAccount files steps).writes = steps.flatMap (Step.inserts files) := by
  rw [stepsAccount, (Account.of_sequence h).2, List.flatMap_map]
  exact List.flatMap_congr fun step _ => writes_account files step

/-- No table of steps that do not fail fails. -/
theorem failure_effects_of_mem {files : FileTree} {steps : List Step}
    (hfailure : (stepsAccount files steps).failure = none) {table : Table} {record : Store}
    {ids : List UInt32} (hstep : .apply table record ids ∈ steps) :
    (table.effects record ids).failure = none := by
  have htable := (Account.of_sequence hfailure).1 _ (List.mem_map_of_mem hstep)
  simp only [Step.account, tableAccount] at htable
  cases hresult : (table.effects record ids).failure with
  | none => rfl
  | some e =>
    rw [hresult] at htable
    cases htable

/-- A table of a conversion that succeeds writes what each of its rules
does, and that is found in the template. -/
theorem get?_of_rule {files : FileTree} {input : Input} {directory : String} {store : Store}
    {id : UInt32} (hshort : (RecordCounts.ofStore store).IsShort)
    (hfailure : (stepsAccount files (input.steps directory store id)).failure = none)
    {table : Table} {record : Store} {ids : List UInt32}
    (hstep : .apply table record ids ∈ input.steps directory store id)
    {above : String} (habove : table.targetPath = .ok above) {rule : Rule}
    (hrule : rule ∈ table.rules) {path : String} {value : TemplateValue}
    (heffect : rule.effect table above record ids = .ok (.write path value)) (t : Template) :
    (t.insertAll (stepsAccount files (input.steps directory store id)).writes).get?
      path = some value := by
  have heffects := failure_effects_of_mem hfailure hstep
  have hmem : (path, value) ∈ (input.steps directory store id).flatMap
      (Step.inserts files) :=
    List.mem_flatMap.2 ⟨_, hstep, Table.mem_writes heffects habove hrule heffect rfl⟩
  rw [writes_stepsAccount hfailure]
  exact SortedMap.get?_insertAll_of_mem
    (nodup_inserts files input directory store id hshort) t hmem

/-- A conversion of an input that succeeds inserts at each path at most
once, from any template. So each value that it inserts is found in the
template afterwards. Into the empty template it has then written as many
paths as outcomes say that a value was written, and as checksums were
taken. -/
theorem nodup_of_run (input : Input) (directory : String) (store : Store) (id : UInt32)
    (hshort : (RecordCounts.ofStore store).IsShort) {t t' : Template} {w w' : World}
    (hrun : exec (runAll (input.steps directory store id)) t w = ((.ok (), t'), w')) :
    let steps := input.steps directory store id
    let inserted := steps.flatMap (Step.inserts w.files)
    t' = t.insertAll inserted ∧ (inserted.map Prod.fst).Nodup ∧
      (∀ p ∈ inserted, t'.get? p.1 = some p.2) ∧
      (t = .empty → t'.size = (steps.flatMap Step.outcomes).countP Outcome.isWritten +
        steps.countP (Step.takesChecksum w.files)) := by
  intro steps inserted
  obtain ⟨hfailure, hinsert⟩ := failure_of_perform ((exec_runAll steps t w).symm.trans hrun)
  have hnodup : (inserted.map Prod.fst).Nodup :=
    nodup_inserts w.files input directory store id hshort
  rw [writes_stepsAccount hfailure] at hinsert
  refine ⟨hinsert, hnodup, fun p hp => ?_, fun hempty => ?_⟩
  · rw [hinsert]
    exact SortedMap.get?_insertAll_of_mem hnodup t hp
  · -- no step has failed, and none of its targets was left unresolved
    have hsteps : ∀ step ∈ steps, (step.account w.files).failure = none ∧
        ∀ a ∈ step.addresses, (resolve? a.1 a.2).isSome = true := by
      intro step hstep
      refine ⟨(Account.of_sequence hfailure).1 _ (List.mem_map_of_mem hstep), fun a ha => ?_⟩
      have hmem := (addresses_steps input directory store id).subset
        (List.mem_flatMap.2 ⟨step, hstep, ha⟩)
      obtain ⟨resolved, hresolved⟩ :=
        Vocabulary.exists_resolve? (isRegular_of_mem_addresses hmem) a.2 rfl
      rw [hresolved]
      rfl
    rw [← length_flatMap_inserts hsteps, ← SortedMap.size_ofList hnodup, hinsert, hempty]
    rfl

/-- A notebook that names two users. -/
def twoUsers : Store :=
  .ofList [("user", .records [[("name", .text "a")], [("name", .text "b")]])]

/-- A world without files. -/
def noFiles : World := .ofFiles ⟨[], []⟩

/-- A conversion of two users succeeds, and overwrites nothing. -/
theorem nodup_of_run_twoUsers :
    (RecordCounts.ofStore twoUsers).IsShort ∧
      ∃ t' w', exec (runAll (Input.notebook.steps "" twoUsers 1)) .empty noFiles =
          ((.ok (), t'), w') ∧
        (((Input.notebook.steps "" twoUsers 1).flatMap (Step.inserts noFiles.files)).map
          Prod.fst).Nodup := by
  have hshort : (RecordCounts.ofStore twoUsers).IsShort :=
    ⟨by decide, by decide, by decide⟩
  obtain ⟨t', w', hrun⟩ := exec_of_succeeds (w := noFiles) (Input.notebook.steps "" twoUsers 1)
    (by decide) .empty
  exact ⟨hshort, t', w', hrun, (nodup_of_run .notebook "" twoUsers 1 hshort hrun).2.1⟩

end AtomProbe.Source
