import AtomProbe.Proofs.Mapping.Outcome
import AtomProbe.Proofs.Source.Records

/-!
# `AtomProbe.Proofs.Source.Numbering`: which record has which number

Users and citations are numbered without those that hold nothing, laser
sources by their places in the list.

* `numbered_of_run`: what stands below the places for the records of a
  notebook and of the configuration of a facility. With voltage pulses no
  laser source is written, and nothing else changes if the notebook names
  none.

The number of a record is one more than how many records before it
count (`HasNumber`).
-/

set_option autoImplicit false

namespace AtomProbe

/-! ### What a record supplies -/

/-- What a record supplies under the target of a rule: what the action of
the rule makes of its sources, if the record holds all of them. -/
inductive Supplies (table : Table) (record : Store) (rule : Rule) : Option TemplateValue → Prop
  | absent {key : String} (hkey : rule.Misses table record key) : Supplies table record rule none
  | present {found : List (String × Metadata)} {v : TemplateValue}
      (hfound : rule.Finds table record found) (hv : rule.action.Makes (found.map Prod.snd) v) :
      Supplies table record rule (some v)

theorem Supplies.of_value {table : Table} {record : Store} {rule : Rule} {v : TemplateValue}
    (h : rule.product table record = .ok (.value v)) : Supplies table record rule (some v) := by
  cases hlookUp : lookUp record (rule.keys table) with
  | error key =>
    rw [Rule.product_eq_missing_iff.2 (lookUp_eq_error_iff.1 hlookUp)] at h
    cases h
  | ok found =>
    have hfound := Rule.finds_iff.1 hlookUp
    exact .present hfound (((Rule.product_of_finds hfound).1 v).1 h)

namespace Source

open Vocabulary

/-! ### The numbers -/

/-- Whether a record has a number among records of which some count. -/
def HasNumber (counts : Store → Bool) (records : List Store) (record : Store) (n : Nat) : Prop :=
  counts record = true ∧ ∃ before after, records = before ++ record :: after ∧
    n = before.countP counts + 1

/-- What a template says about records that are numbered. -/
structure Numbered (t : Template) (number : Nat) (place : Place) (counts : Store → Bool)
    (tables : Store → List Table) (records : List Store) : Prop where
  /-- A record supplies all that stands under its number. -/
  supplied : ∀ record n, HasNumber counts records record n → ∀ table ∈ tables record,
    ∀ rule ∈ table.rules, Supplies table record rule (t.get? (recordPath number place n rule.target))
  /-- Nothing else stands there. -/
  origin : ∀ path, t.contains path = true → recordRoot number place <+: path.toList →
    ∃ record n, HasNumber counts records record n ∧ ∃ table ∈ tables record,
      ∃ rule ∈ table.rules, path = recordPath number place n rule.target
  /-- There is no number for which there is no record. -/
  bounded : ∀ n name, t.contains (recordPath number place n name) = true →
    1 ≤ n ∧ n ≤ records.countP counts

/-- The numbers count the records from the first one on. Induction on the
records; the first number is as many as counted before, and one. -/
theorem mem_zipIdx_filter {counts : Store → Bool} {records : List Store} {record : Store}
    {n k : Nat} : (record, n) ∈ (records.filter counts).zipIdx (k + 1) ↔
      counts record = true ∧ ∃ before after, records = before ++ record :: after ∧
        n = k + before.countP counts + 1 := by
  induction records generalizing k with
  | nil => simp
  | cons r rs ih =>
    -- the record is the first one, or stands among the others
    have hsplit : (∃ before after, r :: rs = before ++ record :: after ∧
          n = k + before.countP counts + 1) ↔
        (r = record ∧ n = k + 1) ∨ ∃ before after, rs = before ++ record :: after ∧
          n = k + (r :: before).countP counts + 1 := by
      constructor
      · rintro ⟨before, after, hrecords, rfl⟩
        cases before with
        | nil =>
          obtain ⟨rfl, rfl⟩ := List.cons.inj hrecords
          exact .inl ⟨rfl, rfl⟩
        | cons b before =>
          obtain ⟨rfl, rfl⟩ := List.cons.inj hrecords
          exact .inr ⟨before, after, rfl, rfl⟩
      · rintro (⟨rfl, rfl⟩ | ⟨before, after, rfl, rfl⟩)
        · exact ⟨[], rs, rfl, rfl⟩
        · exact ⟨r :: before, after, rfl, rfl⟩
    rw [hsplit]
    by_cases hr : counts r = true
    · rw [List.filter_cons_of_pos hr, List.zipIdx_cons, List.mem_cons, ih, Prod.mk.injEq]
      simp only [List.countP_cons_of_pos hr]
      constructor
      · rintro (⟨rfl, rfl⟩ | ⟨hrecord, before, after, rfl, rfl⟩)
        · exact ⟨hr, .inl ⟨rfl, rfl⟩⟩
        · exact ⟨hrecord, .inr ⟨before, after, rfl, by omega⟩⟩
      · rintro ⟨hrecord, ⟨rfl, rfl⟩ | ⟨before, after, rfl, rfl⟩⟩
        · exact .inl ⟨rfl, rfl⟩
        · exact .inr ⟨hrecord, before, after, rfl, by omega⟩
    · -- a record that does not count takes no number
      rw [List.filter_cons_of_neg hr, ih]
      simp only [List.countP_cons_of_neg hr]
      refine and_congr_right fun hrecord => ⟨.inr, ?_⟩
      rintro (⟨rfl, -⟩ | h)
      · exact absurd hrecord hr
      · exact h

theorem hasNumber_iff {counts : Store → Bool} {records : List Store} {record : Store} {n : Nat} :
    HasNumber counts records record n ↔ (record, n) ∈ (records.filter counts).zipIdx 1 := by
  rw [HasNumber, mem_zipIdx_filter (k := 0)]
  simp only [Nat.zero_add]

theorem HasNumber.bounded {counts : Store → Bool} {records : List Store} {record : Store}
    {n : Nat} (h : HasNumber counts records record n) : 1 ≤ n ∧ n ≤ records.countP counts := by
  obtain ⟨hrecord, before, after, rfl, rfl⟩ := h
  rw [List.countP_append, List.countP_cons_of_pos hrecord]
  omega

/-- No two records have the same number. -/
theorem HasNumber.unique {counts : Store → Bool} {records : List Store} {r r' : Store}
    {n : Nat} (h : HasNumber counts records r n) (h' : HasNumber counts records r' n) : r = r' := by
  rw [hasNumber_iff] at h h'
  rw [(List.mem_zipIdx h).2.2, (List.mem_zipIdx h').2.2]

/-! ### Records of an input -/

section

variable {files : FileTree} {input : Input} {directory : String} {store : Store} {id : UInt32}
  {place : Place} {counts : Store → Bool} {tables : Store → List Table} {records : List Store}

/-- Steps that number records fill the template accordingly. -/
theorem Numbered.of_numbersIn (hshort : (RecordCounts.ofStore store).IsShort)
    (hplace : place ∈ places input) (hlength : records.length < UInt32.size - 1)
    (h : NumbersIn (input.steps directory store id) (entryNumber id) place tables
      (records.filter counts))
    (hfailure : (stepsAccount files (input.steps directory store id)).failure = none) :
    Numbered (.ofList (stepsAccount files (input.steps directory store id)).writes)
      (entryNumber id).toNat place counts tables records := by
  have hfiltered : (records.filter counts).length < UInt32.size - 1 :=
    Nat.lt_of_le_of_lt (List.length_filter_le ..) hlength
  have horigin (path : String) (v : TemplateValue)
      (hget : (SortedMap.ofList
        (stepsAccount files (input.steps directory store id)).writes).get? path = some v)
      (hroot : recordRoot (entryNumber id).toNat place <+: path.toList) :
      ∃ record n, HasNumber counts records record n ∧ ∃ table ∈ tables record,
        ∃ rule ∈ table.rules, path = recordPath (entryNumber id).toNat place n rule.target ∧
          rule.product table record = .ok (.value v) := by
    simpa only [hasNumber_iff] using exists_record_of_get? hplace h hfiltered hfailure hget hroot
  refine ⟨fun record n hn table htable rule hrule => ?_, fun path hpath hroot => ?_,
    fun n name hname => ?_⟩
  · obtain ⟨made, hproduct⟩ :=
      exists_product_of_mem hplace h hfailure (hasNumber_iff.1 hn) htable hrule
    cases made with
    | value v =>
      rw [get?_recordPath hshort hplace h hfiltered hfailure (hasNumber_iff.1 hn) htable hrule
        hproduct]
      exact .of_value hproduct
    | missing key =>
      -- no other rule for this record has the same target
      cases hget : (SortedMap.ofList
          (stepsAccount files (input.steps directory store id)).writes).get?
            (recordPath (entryNumber id).toNat place n rule.target) with
      | none => exact .absent (Rule.product_eq_missing_iff.1 hproduct)
      | some v =>
        obtain ⟨record', n', hn', table', htable', rule', hrule', hpath, hproduct'⟩ :=
          horigin _ v hget (root_prefix_recordPath ..)
        obtain ⟨rfl, htarget⟩ := recordPath_inj hpath
        obtain rfl := hn.unique hn'
        have hmem (table : Table) (rule : Rule) (htable : table ∈ tables record)
            (hrule : rule ∈ table.rules) : (table, rule) ∈ place.rules :=
          List.mem_flatMap.2 ⟨table, h.subset record htable, List.mem_map_of_mem hrule⟩
        cases eq_of_target_eq (mem_allPlaces hplace) (hmem table rule htable hrule)
          (hmem table' rule' htable' hrule') htarget
        rw [hproduct] at hproduct'
        cases hproduct'
  · obtain ⟨v, hget⟩ := Option.isSome_iff_exists.1 hpath
    obtain ⟨record, n, hn, table, htable, rule, hrule, heq, -⟩ := horigin path v hget hroot
    exact ⟨record, n, hn, table, htable, rule, hrule, heq⟩
  · obtain ⟨v, hget⟩ := Option.isSome_iff_exists.1 hname
    obtain ⟨record, n', hn, table, htable, rule, hrule, heq, -⟩ :=
      horigin _ v hget (root_prefix_recordPath ..)
    rw [(recordPath_inj heq).1]
    exact hn.bounded

end

/-! ### The records of a notebook -/

theorem numbersIn_users (directory : String) (store : Store) (id : UInt32) :
    NumbersIn (Input.notebook.steps directory store id) (entryNumber id) .users userTables
      (nonempty (recordsUnder store Notebook.userKey)) where
  subset record := by
    rw [userTables]
    split
    · exact List.Subset.refl _
    · exact List.cons_subset_cons _ (List.nil_subset _)
  apply_mem_iff {table record ids} htable := by
    have hothers : ∀ table ∈ Place.users.tables,
        table ∉ [laserSourceStatic, laserSourceDynamic] ∧ table ∉ entryTables := by
      decide
    rw [apply_mem_notebook]
    simp only [hothers table htable, false_and, and_false, exists_false, or_false]

theorem numbersIn_lasers {place : Place} (hplace : place ∈ [.lasersStatic, .lasersDynamic])
    (directory : String) (store : Store) (id : UInt32) :
    NumbersIn (Input.notebook.steps directory store id) (entryNumber id) place
      (fun _ => place.tables) (firedLasers store) where
  subset record := List.Subset.refl _
  apply_mem_iff {table record ids} htable := by
    have hlasers : ∀ place ∈ [Place.lasersStatic, .lasersDynamic], ∀ table ∈ place.tables,
        table ∈ [laserSourceStatic, laserSourceDynamic] ∧ table ∉ Place.users.tables ∧
          table ∉ entryTables := by
      decide
    obtain ⟨hmem, husers, hentry⟩ := hlasers place hplace table htable
    have huser : table ∉ userTables record := fun h =>
      husers ((numbersIn_users directory store id).subset record h)
    rw [apply_mem_notebook]
    simp only [huser, hentry, hmem, htable, false_and, and_false, exists_false, or_false, false_or]

theorem numbersIn_citations (directory : String) (store : Store) (id : UInt32) :
    NumbersIn (Input.deployment.steps directory store id) (entryNumber id) .citations
      (fun _ => [citation]) (nonempty (recordsUnder store Deployment.citationKey)) where
  subset record := List.Subset.refl _
  apply_mem_iff {table record ids} htable := by
    have hothers : ∀ table ∈ Place.citations.tables,
        table ∉ [facilityInstrument, coordinateSystem] := by
      decide
    rw [apply_mem_deployment]
    simp only [hothers table htable, false_and, and_false, or_false]

/-- What is said about the identifier of a user is said exactly of users
who have one. -/
theorem Numbered.contains_identifier {t : Template} {number : Nat} {counts : Store → Bool}
    {records : List Store} (h : Numbered t number .users counts userTables records) {user : Store}
    {n : Nat} (hn : HasNumber counts records user n) {rule : Rule}
    (hrule : rule ∈ userIdentifier.rules) :
    t.contains (recordPath number .users n rule.target) =
      user.contains Notebook.userIdentifierKey := by
  have husers : Place.users ∈ allPlaces := .head _
  cases hidentifier : user.contains Notebook.userIdentifierKey with
  | true =>
    have htable : userIdentifier ∈ userTables user := by
      rw [userTables, if_pos hidentifier]
      exact .tail _ (.head _)
    have hkeys : ∀ rule ∈ userIdentifier.rules, ∀ key ∈ rule.keys userIdentifier,
        key = Notebook.userIdentifierKey := by
      decide
    have hsupplied := h.supplied user n hn userIdentifier htable rule hrule
    rw [SortedMap.contains]
    cases hget : t.get? (recordPath number .users n rule.target) with
    | some v => rfl
    | none =>
      rw [hget] at hsupplied
      obtain ⟨before, after, heq, -, hmissing⟩ := hsupplied
      next key =>
      have hkey := hkeys rule hrule key (by rw [heq]; exact List.mem_append_right _ (.head _))
      rw [SortedMap.contains, ← hkey, hmissing] at hidentifier
      cases hidentifier
  | false =>
    refine Bool.eq_false_iff.2 fun hcontains => ?_
    obtain ⟨user', n', hn', table, htable, rule', hrule', hpath⟩ :=
      h.origin _ hcontains (root_prefix_recordPath ..)
    obtain ⟨rfl, htarget⟩ := recordPath_inj hpath
    obtain rfl := hn.unique hn'
    rw [userTables, if_neg (by rw [hidentifier]; decide), List.mem_singleton] at htable
    subst htable
    -- the tables of the users have no target in common
    have hmine : (userIdentifier, rule) ∈ Place.users.rules :=
      List.mem_flatMap.2 ⟨userIdentifier, .tail _ (.head _), List.mem_map_of_mem hrule⟩
    have hother : (Vocabulary.user, rule') ∈ Place.users.rules :=
      List.mem_flatMap.2 ⟨Vocabulary.user, .head _, List.mem_map_of_mem hrule'⟩
    have heq := eq_of_target_eq husers hmine hother htarget
    exact absurd (Prod.mk.inj heq).1 (by decide)

/-- With voltage pulses, nothing changes if no laser sources are named. -/
theorem exec_erase_laserSource {store : Store}
    (hmode : store.text? Notebook.pulseModeKey = some Notebook.voltageMode) (directory : String)
    (id : UInt32) (t : Template) (w : World) :
    exec (runAll (Input.notebook.steps directory (store.erase Notebook.laserSourceKey) id)) t w =
      exec (runAll (Input.notebook.steps directory store id)) t w := by
  have hget {key : String} (h : key ≠ Notebook.laserSourceKey) :
      (store.erase Notebook.laserSourceKey).get? key = store.get? key := by
    rw [SortedMap.get?_erase, if_neg h]
  have hmode' : (store.erase Notebook.laserSourceKey).text? Notebook.pulseModeKey =
      some Notebook.voltageMode := by
    rw [SortedMap.text?, hget (by decide)]
    exact hmode
  have hempty {m : Store} (h : m.text? Notebook.pulseModeKey = some Notebook.voltageMode) :
      m.isEmpty = false := by
    refine Bool.eq_false_iff.2 fun hempty => ?_
    rw [SortedMap.eq_empty_of_isEmpty hempty] at h
    cases h
  -- before the workflow the key is only asked for by the laser sources, which are
  -- not written
  have hbefore : stepsAccount w.files
        (Notebook.beforeWorkflow (store.erase Notebook.laserSourceKey) id) =
      stepsAccount w.files (Notebook.beforeWorkflow store id) := by
    have hkeys : ∀ table ∈ entryTables, Notebook.laserSourceKey ∉ table.sourceKeys := by
      decide
    refine stepsAccount_beforeWorkflow_congr _ _ id ?_ ?_ ?_ fun table htable key hkey => hget ?_
    · rw [hempty hmode, hempty hmode']
    · rw [SortedMap.records?, hget (by decide)]
      rfl
    · rw [Notebook.lasersSteps, Notebook.lasersSteps, if_pos hmode, if_pos hmode']
    · exact fun heq => hkeys table htable (heq ▸ hkey)
  -- the workflow asks for the names of its files alone
  have hworkflow : Notebook.workflowSteps directory (store.erase Notebook.laserSourceKey)
        (entryNumber id) = Notebook.workflowSteps directory store (entryNumber id) := by
    have hkeys : ∀ checksum ∈ workflowChecksums,
        workflowSource ++ "/" ++ checksum.2 ≠ Notebook.laserSourceKey := by
      decide
    refine List.filterMap_congr fun checksum hchecksum => ?_
    simp only [SortedMap.text?, hget (hkeys checksum hchecksum)]
  rw [exec_runAll, exec_runAll, Notebook.steps_eq, Notebook.steps_eq, hworkflow,
    stepsAccount_append, stepsAccount_append, hbefore]

/-! ### Which record has which number -/

/-- In a conversion that succeeds, the users that hold something are
numbered in order, and so are the citations. What stands under a number
is supplied by the record that has it, and there are no other numbers.
The identifier of a user is written exactly for those who have one. The
laser sources are numbered by their places, and are written under two
places. With voltage pulses none of them is written, and the conversion
is that of a notebook that names none. -/
theorem numbered_of_run (store : Store) (id : UInt32)
    (hshort : (RecordCounts.ofStore store).IsShort) :
    let number := max id.toNat 1
    let users := recordsUnder store Notebook.userKey
    let lasers := recordsUnder store Notebook.laserSourceKey
    let citations := recordsUnder store Deployment.citationKey
    (∀ directory w t w',
      exec (runAll (Input.notebook.steps directory store id)) .empty w = ((.ok (), t), w') →
      Numbered t number .users (!·.isEmpty) userTables users ∧
      (∀ user n, HasNumber (!·.isEmpty) users user n → ∀ rule ∈ userIdentifier.rules,
        t.contains (recordPath number .users n rule.target) =
          user.contains Notebook.userIdentifierKey) ∧
      (store.text? Notebook.pulseModeKey ≠ some Notebook.voltageMode →
        ∀ place ∈ [Place.lasersStatic, .lasersDynamic],
          Numbered t number place (fun _ => true) (fun _ => place.tables) lasers) ∧
      (store.text? Notebook.pulseModeKey = some Notebook.voltageMode →
        ∀ place ∈ [Place.lasersStatic, .lasersDynamic], ∀ path,
          recordRoot number place <+: path.toList → t.contains path = false)) ∧
    (∀ directory w t w',
      exec (runAll (Input.deployment.steps directory store id)) .empty w = ((.ok (), t), w') →
      Numbered t number .citations (!·.isEmpty) (fun _ => [citation]) citations) ∧
    (store.text? Notebook.pulseModeKey = some Notebook.voltageMode → ∀ directory t w,
      exec (runAll (Input.notebook.steps directory (store.erase Notebook.laserSourceKey) id)) t w =
        exec (runAll (Input.notebook.steps directory store id)) t w) := by
  intro number users lasers citations
  have hnumber : number = (entryNumber id).toNat := (Entry.toNat_entryNumber id).symm
  have hplaces {place : Place} (h : place ∈ [Place.lasersStatic, .lasersDynamic]) :
      place ∈ places .notebook := .tail _ h
  rw [hnumber]
  refine ⟨fun directory w t w' hrun => ?_, fun directory w t w' hrun => ?_,
    fun hmode directory t w => exec_erase_laserSource hmode directory id t w⟩
  · obtain ⟨hfailure, rfl⟩ := failure_of_perform ((exec_runAll _ .empty w).symm.trans hrun)
    have hlasers {place : Place} (h : place ∈ [Place.lasersStatic, .lasersDynamic]) :
        Numbered (.ofList (stepsAccount w.files (Input.notebook.steps directory store id)).writes)
          (entryNumber id).toNat place (fun _ => true) (fun _ => place.tables)
          (firedLasers store) := by
      have hlength : (firedLasers store).length < UInt32.size - 1 := by
        rw [firedLasers]
        split
        · decide
        · exact hshort.lasers
      refine .of_numbersIn hshort (hplaces h) hlength ?_ hfailure
      rw [List.filter_eq_self.2 fun _ _ => rfl]
      exact numbersIn_lasers h directory store id
    have husers := Numbered.of_numbersIn hshort (.head _) hshort.users
      (numbersIn_users directory store id) hfailure
    refine ⟨husers, fun user n hn rule hrule => husers.contains_identifier hn hrule,
      fun hmode place hplace => ?_, fun hmode place hplace path hroot => ?_⟩
    · have h := hlasers hplace
      rwa [firedLasers, if_neg hmode] at h
    · -- a path there would be supplied by one of no sources
      refine Bool.eq_false_iff.2 fun hpath => ?_
      obtain ⟨laser, n, ⟨-, before, after, hnone, -⟩, -⟩ :=
        (hlasers hplace).origin path hpath hroot
      rw [firedLasers, if_pos hmode] at hnone
      exact absurd hnone (by simp)
  · obtain ⟨hfailure, rfl⟩ := failure_of_perform ((exec_runAll _ .empty w).symm.trans hrun)
    exact .of_numbersIn hshort (.head _) hshort.citations
      (numbersIn_citations directory store id) hfailure

/-- A notebook with a user of whom nothing is known before one who has an
identifier, and with two laser sources. -/
def roster : Store :=
  .ofList [
    ("user", .records [[], [("orcid", .text "0000-0002-1825-0097")]]),
    ("instrument/pulser/laser_source", .records [[], [("name", .text "green")]])]

/-- A notebook with a laser source that is not used. -/
def voltageRoster : Store :=
  .ofList [
    ("instrument/pulser/pulse_mode", .text "voltage"),
    ("instrument/pulser/laser_source", .records [[("name", .text "green")]])]

/-- The configuration of a facility with a citation. -/
def bibliography : Store := .ofList [("citation", .records [[("doi", .text "10.1000/1")]])]

theorem isShort_roster : (RecordCounts.ofStore roster).IsShort :=
  ⟨by decide, by decide, by decide⟩

theorem isShort_voltageRoster : (RecordCounts.ofStore voltageRoster).IsShort :=
  ⟨by decide, by decide, by decide⟩

theorem isShort_bibliography : (RecordCounts.ofStore bibliography).IsShort :=
  ⟨by decide, by decide, by decide⟩

/-- The second user of the list is the first one that is numbered, with
an identifier, and the second laser source is the second one. With
voltage pulses there is none, as if none were named. -/
theorem numbered_of_run_roster :
    (∃ t w', exec (runAll (Input.notebook.steps "" roster 0)) .empty noFiles = ((.ok (), t), w') ∧
      t.contains (recordPath 1 .users 1 "identifierNAME[identifier]/service") = true ∧
      Numbered t 1 .lasersStatic (fun _ => true) (fun _ => [laserSourceStatic])
        [.empty, .ofList [("name", .text "green")]]) ∧
    (∃ t w', exec (runAll (Input.deployment.steps "" bibliography 0)) .empty noFiles =
        ((.ok (), t), w') ∧
      Numbered t 1 .citations (!·.isEmpty) (fun _ => [citation])
        [.ofList [("doi", .text "10.1000/1")]]) ∧
    ∃ t w', exec (runAll (Input.notebook.steps "" voltageRoster 0)) .empty noFiles =
        ((.ok (), t), w') ∧
      (∀ path, recordRoot 1 .lasersStatic <+: path.toList → t.contains path = false) ∧
      exec (runAll (Input.notebook.steps "" (voltageRoster.erase Notebook.laserSourceKey) 0))
        .empty noFiles = ((.ok (), t), w') := by
  refine ⟨?_, ?_, ?_⟩
  · obtain ⟨t, w', hrun⟩ := exec_of_succeeds (w := noFiles)
      (Input.notebook.steps "" roster 0) (by decide) .empty
    obtain ⟨-, hidentifier, hfired, -⟩ :=
      (numbered_of_run roster 0 isShort_roster).1 _ _ _ _ hrun
    have hnumber : HasNumber (!·.isEmpty) (recordsUnder roster Notebook.userKey)
        (.ofList [("orcid", .text "0000-0002-1825-0097")]) 1 :=
      ⟨by decide, [.empty], [], by rfl, by decide⟩
    have hlasers : recordsUnder roster Notebook.laserSourceKey =
        [.empty, .ofList [("name", .text "green")]] := by rfl
    have hstatic := hfired (by decide) .lasersStatic (.head _)
    rw [hlasers] at hstatic
    have hservice := hidentifier _ 1 hnumber _ (.head _)
    exact ⟨t, w', hrun, hservice.trans (by decide), hstatic⟩
  · obtain ⟨t, w', hrun⟩ := exec_of_succeeds (w := noFiles)
      (Input.deployment.steps "" bibliography 0) (by decide) .empty
    have hcitations : recordsUnder bibliography Deployment.citationKey =
        [.ofList [("doi", .text "10.1000/1")]] := by rfl
    have hcited := (numbered_of_run bibliography 0 isShort_bibliography).2.1 _ _ _ _ hrun
    rw [hcitations] at hcited
    exact ⟨t, w', hrun, hcited⟩
  · obtain ⟨t, w', hrun⟩ := exec_of_succeeds (w := noFiles)
      (Input.notebook.steps "" voltageRoster 0) (by decide) .empty
    have hmode : voltageRoster.text? Notebook.pulseModeKey = some Notebook.voltageMode := by
      decide
    obtain ⟨hnotebook, -, herase⟩ := numbered_of_run voltageRoster 0 isShort_voltageRoster
    obtain ⟨-, -, -, hunused⟩ := hnotebook _ _ _ _ hrun
    exact ⟨t, w', hrun, hunused hmode .lasersStatic (.head _), (herase hmode _ _ _).trans hrun⟩

end Source

end AtomProbe
