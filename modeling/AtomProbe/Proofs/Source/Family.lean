import Mathlib.Data.List.Flatten
import Mathlib.Data.List.Nodup
import AtomProbe.Proofs.Mapping
import AtomProbe.Proofs.Source.Account
import AtomProbe.Proofs.Source.Steps
import AtomProbe.Proofs.VariadicPath

/-!
# `AtomProbe.Proofs.Source.Family`: where an input may write

The steps of an input write under addresses: the target of a rule or of
a checksum, and the identifiers that resolve it. A `Family` is a list of
targets with the identifiers under which all of them are written in
turn. The families of an input follow from the number of the entry and
from how many records of each kind there are; nothing else of a store
takes part.

* `paths_sublist`: what the steps of an input write lies under the
  addresses of its families, in order and each at most as often.
* `nodup_addresses`: no address of some families occurs twice if no
  target does.
-/

set_option autoImplicit false

namespace AtomProbe.Source

open VariadicPath (resolve?)

/-! ### Steps -/

/-- The checksum that is taken of a file. -/
def checksum? (files : FileTree) (path : String) : Option String :=
  if files.isPresent path then (files.read path).toOption.map Digest.ofContent else none

/-- What a step inserts into a template, in order. -/
def Step.inserts (files : FileTree) : Step → List (String × TemplateValue)
  | .report _ => []
  | .apply table store ids => table.writes store ids
  | .checksum target ids _ path =>
    match checksum? files path, resolve? target ids with
    | some digest, some resolved => [(resolved, .text digest)]
    | _, _ => []

/-- The addresses under which a step may write. -/
def Step.addresses : Step → List (String × List UInt32)
  | .report _ => []
  | .apply table _ ids => table.patterns.map (·, ids)
  | .checksum target ids _ _ => [(target, ids)]

theorem writes_account (files : FileTree) (step : Step) :
    (step.account files).writes = step.inserts files := by
  cases step with
  | report r => rfl
  | apply table store ids =>
    simp only [Step.account, tableAccount, Step.inserts]
    cases (table.effects store ids).failure <;> rfl
  | checksum target ids key path =>
    simp only [Step.account, checksumAccount, Step.inserts, checksum?]
    cases files.isPresent path with
    | false => rfl
    | true =>
      simp only [if_true]
      cases files.read path with
      | error e => rfl
      | ok content => cases resolve? target ids <;> rfl

/-- The paths under which a step inserts are those of its addresses, in
order and each at most as often. -/
theorem Step.paths_sublist (files : FileTree) (step : Step) :
    ((step.inserts files).map Prod.fst).Sublist
      (step.addresses.filterMap fun a => resolve? a.1 a.2) := by
  cases step with
  | report r => exact .slnil
  | apply table store ids =>
    rw [addresses, List.filterMap_map]
    exact table.writes_sublist store ids
  | checksum target ids key path =>
    rw [inserts]
    cases checksum? files path with
    | none => exact List.nil_sublist _
    | some digest =>
      cases hresolve : resolve? target ids with
      | none => exact List.nil_sublist _
      | some resolved => simp [addresses, hresolve]

theorem paths_flatMap_sublist (files : FileTree) (steps : List Step) :
    ((steps.flatMap (Step.inserts files)).map Prod.fst).Sublist
      ((steps.flatMap Step.addresses).filterMap fun a => resolve? a.1 a.2) := by
  rw [List.map_flatMap, List.filterMap_flatMap]
  exact List.Sublist.flatMap_right steps fun step _ => step.paths_sublist files

/-! ### Families -/

/-- Targets, and the identifiers under which all of them may be written. -/
structure Family where
  patterns : List String
  ids : List (List UInt32)

namespace Family

/-- The addresses of a family. -/
def addresses (family : Family) : List (String × List UInt32) :=
  family.ids.flatMap fun ids => family.patterns.map (·, ids)

/-- Whether each target of a family has a place for each identifier, and
the identifiers are not listed twice. -/
structure IsExact (family : Family) : Prop where
  isExact : ∀ p ∈ family.patterns, ∀ ids ∈ family.ids, VariadicPath.IsExact (p, ids)
  nodup : family.ids.Nodup

theorem mem_addresses {family : Family} {address : String × List UInt32} :
    address ∈ family.addresses ↔ address.1 ∈ family.patterns ∧ address.2 ∈ family.ids := by
  obtain ⟨pattern, ids⟩ := address
  simp only [addresses, List.mem_flatMap, List.mem_map, Prod.mk.injEq]
  constructor
  · rintro ⟨ids', hids, pattern', hpattern, rfl, rfl⟩
    exact ⟨hpattern, hids⟩
  · rintro ⟨hpattern, hids⟩
    exact ⟨ids, hids, pattern, hpattern, rfl, rfl⟩

theorem nodup_addresses_of_nodup {family : Family} (hpatterns : family.patterns.Nodup)
    (hids : family.ids.Nodup) : family.addresses.Nodup := by
  rw [addresses, List.nodup_flatMap]
  refine ⟨fun ids _ => hpatterns.map fun p q h => (Prod.mk.inj h).1, ?_⟩
  refine hids.imp fun {ids ids'} hne => ?_
  rintro address h h'
  obtain ⟨p, -, rfl⟩ := List.mem_map.1 h
  obtain ⟨p', -, heq⟩ := List.mem_map.1 h'
  exact hne (Prod.mk.inj heq).2.symm

end Family

/-- No address of some families occurs twice if no target does. -/
theorem nodup_addresses {families : List Family}
    (hpatterns : (families.flatMap Family.patterns).Nodup)
    (hids : ∀ family ∈ families, family.ids.Nodup) :
    (families.flatMap Family.addresses).Nodup := by
  rw [List.nodup_flatMap] at hpatterns ⊢
  refine ⟨fun family h => Family.nodup_addresses_of_nodup (hpatterns.1 family h) (hids family h),
    hpatterns.2.imp fun {f g} hdisjoint => ?_⟩
  intro address hf hg
  exact hdisjoint (Family.mem_addresses.1 hf).1 (Family.mem_addresses.1 hg).1

/-- The identifiers of as many records of an entry. -/
def recordIds (number : UInt32) (count : Nat) : List (List UInt32) :=
  (List.range' 1 count).map fun n => [number, UInt32.ofNat n]

theorem recordIds_sublist (number : UInt32) {m n : Nat} (h : m ≤ n) :
    (recordIds number m).Sublist (recordIds number n) :=
  (List.range'_sublist_right.2 h).map _

/-- The records of an entry have different identifiers, unless there are
too many of them to be numbered. -/
theorem nodup_recordIds (number : UInt32) {count : Nat} (h : count < UInt32.size - 1) :
    (recordIds number count).Nodup := by
  refine List.Nodup.map_on (fun m hm n hn heq => ?_) List.nodup_range'
  have hof : UInt32.ofNat m = UInt32.ofNat n := by simpa using heq
  have hm : m < UInt32.size := by have := List.mem_range'_1.1 hm; omega
  have hn : n < UInt32.size := by have := List.mem_range'_1.1 hn; omega
  have hnat := congrArg UInt32.toNat hof
  rwa [UInt32.toNat_ofNat_of_lt' hm, UInt32.toNat_ofNat_of_lt' hn] at hnat

/-- How many records of each kind there are. -/
structure RecordCounts where
  users : Nat
  lasers : Nat
  citations : Nat
  deriving DecidableEq, Repr

namespace RecordCounts

/-- Whether all records can be numbered. -/
structure IsShort (counts : RecordCounts) : Prop where
  users : counts.users < UInt32.size - 1
  lasers : counts.lasers < UInt32.size - 1
  citations : counts.citations < UInt32.size - 1

/-- How many records there are under a key. -/
def underKey (store : Store) (key : String) : Nat :=
  ((store.records? key).getD []).length

/-- How many records of each kind there are in a store. -/
def ofStore (store : Store) : RecordCounts where
  users := underKey store Notebook.userKey
  lasers := underKey store Notebook.laserSourceKey
  citations := underKey store Deployment.citationKey

end RecordCounts

open Vocabulary

/-- The targets of the checksums of a notebook. -/
def workflowPatterns : List String :=
  workflowChecksums.map fun (target, _) => workflowTarget ++ "/" ++ target

/-- The families of an input of an entry with the given number. -/
def Input.families (input : Input) (number : UInt32) (counts : RecordCounts) : List Family :=
  match input with
  | .notebook =>
    [⟨user.patterns ++ userIdentifier.patterns, recordIds number counts.users⟩,
      ⟨laserSourceStatic.patterns ++ laserSourceDynamic.patterns,
        recordIds number counts.lasers⟩,
      ⟨entryTables.flatMap Table.patterns, [[number]]⟩,
      ⟨workflowPatterns, [[number]]⟩]
  | .deployment =>
    [⟨facilityInstrument.patterns ++ coordinateSystem.patterns, [[number]]⟩,
      ⟨citation.patterns, recordIds number counts.citations⟩]
  | .vendor => [⟨Vocabulary.vendor.patterns, [[number]]⟩]

/-- Steps that apply tables write under the identifiers that they are
given. -/
theorem addresses_tableSteps (tables : List Table) (store : Store) (ids : List UInt32) :
    (tableSteps tables store ids).flatMap Step.addresses =
      (tables.flatMap Table.patterns).map (·, ids) := by
  rw [tableSteps, List.flatMap_map, List.map_flatMap]
  rfl

theorem addresses_reports (records : List Record) :
    (records.map Step.report).flatMap Step.addresses = [] := by
  rw [List.flatMap_map, List.flatMap_eq_nil_iff]
  exact fun r _ => rfl

/-- The steps for records write under the addresses of one family.
Induction on the records, from any first number on. -/
theorem addresses_recordSteps {number : UInt32} {tables : Store → List Table}
    {patterns : List String} (h : ∀ record, ((tables record).flatMap Table.patterns).Sublist patterns)
    {records : List Store} {count : Nat} (hcount : records.length ≤ count) :
    ((recordSteps number tables records).flatMap Step.addresses).Sublist
      (Family.addresses ⟨patterns, recordIds number count⟩) := by
  suffices hfirst : ∀ first, (((records.zipIdx first).flatMap fun p =>
      tableSteps (tables p.1) p.1 [number, UInt32.ofNat p.2]).flatMap Step.addresses).Sublist
        (Family.addresses ⟨patterns,
          (List.range' first records.length).map fun n => [number, UInt32.ofNat n]⟩) from
    (hfirst 1).trans ((recordIds_sublist number hcount).flatMap _)
  clear hcount
  induction records with
  | nil => exact fun first => .slnil
  | cons record records ih =>
    intro first
    rw [List.zipIdx_cons, List.flatMap_cons, List.flatMap_append, List.length_cons,
      List.range'_succ, List.map_cons, addresses_tableSteps]
    exact ((h record).map _).append (ih (first + 1))

/-- A family under the identifier of the entry alone. -/
theorem addresses_single (patterns : List String) (number : UInt32) :
    Family.addresses ⟨patterns, [[number]]⟩ = patterns.map (·, [number]) := by
  simp [Family.addresses]

theorem length_nonempty_le (store : Store) (key : String) :
    (nonempty (recordsUnder store key)).length ≤ RecordCounts.underKey store key :=
  List.length_filter_le ..

theorem length_firedLasers_le (store : Store) :
    (firedLasers store).length ≤ RecordCounts.underKey store Notebook.laserSourceKey := by
  rw [firedLasers]
  split
  · exact Nat.zero_le _
  · exact Nat.le_refl _

theorem addresses_workflowSteps (directory : String) (store : Store) (number : UInt32) :
    ((Notebook.workflowSteps directory store number).flatMap Step.addresses).Sublist
      (Family.addresses ⟨workflowPatterns, [[number]]⟩) := by
  rw [addresses_single, Notebook.workflowSteps, workflowPatterns]
  induction workflowChecksums with
  | nil => exact .slnil
  | cons checksum checksums ih =>
    obtain ⟨target, source⟩ := checksum
    rw [List.filterMap_cons, List.map_cons, List.map_cons]
    dsimp only
    cases store.text? (workflowSource ++ "/" ++ source) with
    | none => exact ih.cons _
    | some name => exact ih.cons_cons _

/-- The sections of a notebook before the workflow write under the
addresses of its families, in order and each at most as often. -/
theorem addresses_beforeWorkflow {store : Store} (hempty : store.isEmpty = false) (id : UInt32) :
    ((Notebook.beforeWorkflow store id).flatMap Step.addresses).Sublist
      (Family.addresses ⟨user.patterns ++ userIdentifier.patterns,
          recordIds (entryNumber id) (RecordCounts.ofStore store).users⟩ ++
        Family.addresses ⟨laserSourceStatic.patterns ++ laserSourceDynamic.patterns,
          recordIds (entryNumber id) (RecordCounts.ofStore store).lasers⟩ ++
        Family.addresses ⟨entryTables.flatMap Table.patterns, [[entryNumber id]]⟩) := by
  have husers (record : Store) : ((userTables record).flatMap Table.patterns).Sublist
      (user.patterns ++ userIdentifier.patterns) := by
    rw [userTables, List.flatMap_cons]
    refine (List.Sublist.refl _).append ?_
    -- the table of the identifier may not be applied
    split
    · rw [List.flatMap_singleton]
    · exact List.nil_sublist _
  have hlasers : (laserTables.flatMap Table.patterns).Sublist
      (laserSourceStatic.patterns ++ laserSourceDynamic.patterns) := by
    simp [laserTables]
  rw [Notebook.beforeWorkflow_of_nonempty hempty]
  simp only [List.flatMap_append, List.append_nil, addresses_reports, addresses_tableSteps,
    addresses_single]
  exact ((addresses_recordSteps husers (length_nonempty_le ..)).append
    (addresses_recordSteps (fun _ => hlasers) (length_firedLasers_le store))).append (.refl _)

/-- The steps of an input write under the addresses of its families, in
order and each at most as often. -/
theorem addresses_steps (input : Input) (directory : String) (store : Store) (id : UInt32) :
    ((input.steps directory store id).flatMap Step.addresses).Sublist
      ((input.families (entryNumber id) (.ofStore store)).flatMap Family.addresses) := by
  cases hempty : store.isEmpty with
  | true =>
    rw [Input.steps_of_isEmpty hempty]
    exact List.nil_sublist _
  | false =>
    -- only records and checksums can be left out, so the lists agree but for these
    cases input with
    | notebook =>
      rw [Notebook.steps_eq, Input.families, List.flatMap_append]
      simp only [List.flatMap_cons, List.flatMap_nil, List.append_nil, ← List.append_assoc]
      exact (addresses_beforeWorkflow hempty id).append (addresses_workflowSteps ..)
    | deployment =>
      have hcitations : ([citation].flatMap Table.patterns).Sublist citation.patterns := by simp
      rw [Input.steps_of_nonempty hempty, Input.families]
      simp only [Deployment.steps_eq, List.flatMap_append, List.flatMap_cons, List.flatMap_nil,
        List.append_nil, addresses_tableSteps, addresses_single, facilityTables]
      exact (List.Sublist.refl _).append
        (addresses_recordSteps (fun _ => hcitations) (length_nonempty_le ..))
    | vendor =>
      rw [Input.steps_of_nonempty hempty]
      simp [Input.families, addresses_tableSteps, addresses_single]

/-- What the steps of an input write lies under the addresses of its
families, in order and each at most as often. -/
theorem paths_sublist (files : FileTree) (input : Input) (directory : String) (store : Store)
    (id : UInt32) :
    (((input.steps directory store id).flatMap (Step.inserts files)).map Prod.fst).Sublist
      (((input.families (entryNumber id) (.ofStore store)).flatMap Family.addresses).filterMap
        fun a => resolve? a.1 a.2) :=
  (paths_flatMap_sublist files _).trans ((addresses_steps input directory store id).filterMap _)

end AtomProbe.Source
