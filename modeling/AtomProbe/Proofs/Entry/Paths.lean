import AtomProbe.Proofs.Entry.Merge
import AtomProbe.Proofs.Source.Insertion

/-!
# `AtomProbe.Proofs.Entry.Paths`: which paths a template can have

Every path of a template is the target of a rule of some table, or of a
checksum, in which the markers have been replaced by the number of the
entry and, for what there may be several of, by the number of the
record. `IsTarget` says so from numbers alone: no text of an input can
become part of a path.

* `paths_of_template`: the template of an entry has no other paths. So
  it shares none with that of an entry of another number, and what the
  application definition says is never overwritten.
-/

set_option autoImplicit false

namespace AtomProbe

open Vocabulary
open Source (RecordCounts Family Input Account)
open VariadicPath (resolve? substitute marker)

/-- A target with numbers in place of its markers. -/
def written (pattern : String) (numbers : List Nat) : String :=
  String.ofList (substitute pattern.toList numbers)

/-- The tables that are applied once for each entry, of all inputs. -/
def singleTables : List Table :=
  [applicationDefinition, facilityInstrument, coordinateSystem, vendor] ++ entryTables

/-- Whether a path is that of a rule of a table for the record `n`. -/
def IsRecordTarget (table : Table) (number n : Nat) (path : String) : Prop :=
  ∃ above, table.targetPath = .ok above ∧ ∃ rule ∈ table.rules,
    path = written (above ++ "/" ++ rule.target) [number, n]

/-- The paths of an entry with the given number and so many records. -/
inductive IsTarget (number : Nat) (counts : RecordCounts) : String → Prop
  | single {table : Table} {above : String} {rule : Rule} (htable : table ∈ singleTables)
      (habove : table.targetPath = .ok above) (hrule : rule ∈ table.rules) :
      IsTarget number counts (written (above ++ "/" ++ rule.target) [number])
  | checksum {target source : String} (h : (target, source) ∈ workflowChecksums) :
      IsTarget number counts (written (workflowTarget ++ "/" ++ target) [number])
  | user {table : Table} {path : String} {n : Nat} (htable : table ∈ [user, userIdentifier])
      (hn : 1 ≤ n ∧ n ≤ counts.users) (h : IsRecordTarget table number n path) :
      IsTarget number counts path
  | laser {table : Table} {path : String} {n : Nat}
      (htable : table ∈ [laserSourceStatic, laserSourceDynamic])
      (hn : 1 ≤ n ∧ n ≤ counts.lasers) (h : IsRecordTarget table number n path) :
      IsTarget number counts path
  | citation {path : String} {n : Nat} (hn : 1 ≤ n ∧ n ≤ counts.citations)
      (h : IsRecordTarget citation number n path) : IsTarget number counts path

namespace Entry

/-- The store of an input, or the empty one where it is left out or
passed over. -/
def storeOf (files : FileTree) (input : Input) (path : Option String) : Store :=
  match path.map (Store.loaded files input.endings) with
  | some (.ok (some store)) => store
  | _ => .empty

/-- How many records of each kind the inputs of an entry hold. -/
def counts (files : FileTree) (entry : Entry) : RecordCounts where
  users := (RecordCounts.ofStore (storeOf files .notebook entry.notebook)).users
  lasers := (RecordCounts.ofStore (storeOf files .notebook entry.notebook)).lasers
  citations := (RecordCounts.ofStore (storeOf files .deployment entry.deployment)).citations

/-! ### Addresses of an entry -/

/-- The path that an entry names for an input. -/
def pathOf (entry : Entry) : Input → Option String
  | .notebook => entry.notebook
  | .deployment => entry.deployment
  | .vendor => entry.vendor

theorem pathOf_of_mem_inputs {entry : Entry} {input : Input} {path : String}
    (h : (input, path) ∈ entry.inputs) : entry.pathOf input = some path := by
  simp only [inputs, List.mem_append, Option.mem_toList, Option.map_eq_some_iff,
    Prod.mk.injEq] at h
  rcases h with (⟨p, hp, rfl, rfl⟩ | ⟨p, hp, rfl, rfl⟩) | ⟨p, hp, rfl, rfl⟩
  · exact hp
  · exact hp
  · exact hp

/-- The families of an input, with what its store says about the number
of records. -/
theorem families_eq {files : FileTree} {entry : Entry} {input : Input} {path : String}
    {store : Store} (hpath : entry.pathOf input = some path)
    (hstore : Store.loaded files input.endings path = .ok (some store)) (number : UInt32) :
    input.families number (.ofStore store) = input.families number (entry.counts files) := by
  have hof : storeOf files input (entry.pathOf input) = store := by
    rw [storeOf, hpath, Option.map_some, hstore]
  cases input with
  | notebook =>
    subst hof
    rfl
  | deployment =>
    subst hof
    rfl
  | vendor => rfl

/-- What an input writes lies under the addresses of its families. -/
theorem exists_address {files : FileTree} {input : Input} {path : String} {id : UInt32}
    (hfailure : (input.account files path id).failure = none) {p : String × TemplateValue}
    (hp : p ∈ (input.account files path id).writes) :
    ∃ store, Store.loaded files input.endings path = .ok (some store) ∧
      ∃ a ∈ (input.families (entryNumber id) (.ofStore store)).flatMap Family.addresses,
        resolve? a.1 a.2 = some p.1 := by
  rw [Input.account] at hfailure hp
  cases hloaded : Store.loaded files input.endings path with
  | error e =>
    rw [hloaded] at hp
    cases hp
  | ok found =>
    cases found with
    | none =>
      rw [hloaded] at hp
      cases hp
    | some store =>
      rw [hloaded] at hp hfailure
      refine ⟨store, rfl, ?_⟩
      change p ∈ (Source.stepsAccount files _).writes at hp
      rw [Source.writes_stepsAccount hfailure] at hp
      have hmem := (Source.paths_sublist files input _ store id).subset
        (List.mem_map_of_mem hp)
      obtain ⟨a, ha, hresolve⟩ := List.mem_filterMap.1 hmem
      exact ⟨a, ha, hresolve⟩

/-! ### The path of an address -/

/-- A path that was resolved is a target with the identifiers in decimal
in place of its markers. -/
theorem path_eq_written {pattern path : String} {ids : List UInt32}
    (h : resolve? pattern ids = some path) :
    path = written pattern (ids.map UInt32.toNat) ∧ marker ∉ path.toList := by
  have ⟨hpath, hmarker⟩ := VariadicPath.fill_eq_some (VariadicPath.fill_of_resolve? h)
  refine ⟨?_, hmarker⟩
  rw [written, ← hpath, String.ofList_toList]

/-- The root of an entry with the given number. -/
def root (number : Nat) : List Char :=
  "/ENTRY[entry".toList ++ Nat.toDigits 10 number ++ "]/".toList

theorem root_eq (number : Nat) :
    root number = "/ENTRY[entry".toList ++ (Nat.toDigits 10 number ++ "]/".toList) :=
  List.append_assoc ..

theorem toList_entryRoot : entryRoot.toList = "/ENTRY[entry".toList ++ marker :: "]/".toList := by
  decide

/-- A target below the root of all entries is written below the root of
one of them. -/
theorem below_root {pattern path : String} {number : UInt32} {ids : List UInt32}
    (hroot : entryRoot.toList <+: pattern.toList)
    (h : resolve? pattern (number :: ids) = some path) : root number.toNat <+: path.toList := by
  rw [toList_entryRoot] at hroot
  rw [(path_eq_written h).1, written, String.toList_ofList]
  exact VariadicPath.prefix_substitute (by decide) (by decide) hroot _ _

/-- The roots of different entries have no path in common. -/
theorem eq_of_below_root {m n : UInt32} {path : List Char} (hm : root m.toNat <+: path)
    (hn : root n.toNat <+: path) : m = n :=
  VariadicPath.eq_of_below (c := ']') (by decide) hm hn

theorem exists_record {number : UInt32} {count : Nat} {ids : List UInt32}
    (h : ids ∈ Source.recordIds number count) (hcount : count < UInt32.size - 1) :
    ∃ n, (1 ≤ n ∧ n ≤ count) ∧ ids.map UInt32.toNat = [number.toNat, n] := by
  obtain ⟨n, hn, rfl⟩ := List.mem_map.1 h
  have hrange := List.mem_range'_1.1 hn
  refine ⟨n, ⟨hrange.1, by omega⟩, ?_⟩
  have hsize : n < UInt32.size := by omega
  rw [List.map_cons, List.map_cons, List.map_nil, UInt32.toNat_ofNat_of_lt' hsize]

theorem isRecordTarget_of_mem {table : Table} {pattern : String} (h : pattern ∈ table.patterns)
    (number n : Nat) : IsRecordTarget table number n (written pattern [number, n]) := by
  obtain ⟨above, rule, habove, hrule, rfl⟩ := Table.mem_patterns h
  exact ⟨above, habove, rule, hrule, rfl⟩

theorem isTarget_of_single (table : Table) (htable : table ∈ singleTables) {pattern : String}
    (h : pattern ∈ table.patterns) (number : Nat) (counts : RecordCounts) :
    IsTarget number counts (written pattern [number]) := by
  obtain ⟨above, rule, habove, hrule, rfl⟩ := Table.mem_patterns h
  exact .single htable habove hrule

/-- Each address of an input is that of a target of its tables. -/
theorem isTarget_of_mem_addresses {input : Input} {number : UInt32} {counts : RecordCounts}
    (hshort : counts.IsShort) {a : String × List UInt32}
    (h : a ∈ (input.families number counts).flatMap Family.addresses) :
    IsTarget number.toNat counts (written a.1 (a.2.map UInt32.toNat)) := by
  obtain ⟨pattern, ids⟩ := a
  obtain ⟨family, hfamily, haddress⟩ := List.mem_flatMap.1 h
  obtain ⟨hpattern, hids⟩ := Family.mem_addresses.1 haddress
  cases input with
  | notebook =>
    simp only [Input.families, List.mem_cons, List.not_mem_nil, or_false] at hfamily
    -- users, laser sources, the tables of the entry, and checksums
    rcases hfamily with rfl | rfl | rfl | rfl
    · obtain ⟨n, hn, hnumbers⟩ := exists_record hids hshort.users
      rw [hnumbers]
      rcases List.mem_append.1 hpattern with hpattern | hpattern
      · exact .user (by simp) hn (isRecordTarget_of_mem hpattern _ n)
      · exact .user (by simp) hn (isRecordTarget_of_mem hpattern _ n)
    · obtain ⟨n, hn, hnumbers⟩ := exists_record hids hshort.lasers
      rw [hnumbers]
      rcases List.mem_append.1 hpattern with hpattern | hpattern
      · exact .laser (by simp) hn (isRecordTarget_of_mem hpattern _ n)
      · exact .laser (by simp) hn (isRecordTarget_of_mem hpattern _ n)
    · obtain rfl := List.mem_singleton.1 hids
      obtain ⟨table, htable, hpattern⟩ := List.mem_flatMap.1 hpattern
      exact isTarget_of_single table (List.mem_append_right _ htable) hpattern _ _
    · obtain rfl := List.mem_singleton.1 hids
      obtain ⟨⟨target, source⟩, hchecksum, rfl⟩ := List.mem_map.1 hpattern
      exact .checksum hchecksum
  | deployment =>
    simp only [Input.families, List.mem_cons, List.not_mem_nil, or_false] at hfamily
    rcases hfamily with rfl | rfl
    · obtain rfl := List.mem_singleton.1 hids
      rcases List.mem_append.1 hpattern with hpattern | hpattern
      · exact isTarget_of_single _ (by simp [singleTables]) hpattern _ _
      · exact isTarget_of_single _ (by simp [singleTables]) hpattern _ _
    · obtain ⟨n, hn, hnumbers⟩ := exists_record hids hshort.citations
      rw [hnumbers]
      exact .citation hn (isRecordTarget_of_mem hpattern _ n)
  | vendor =>
    obtain rfl := List.mem_singleton.1 hfamily
    obtain rfl := List.mem_singleton.1 hids
    exact isTarget_of_single Vocabulary.vendor (by simp [singleTables]) hpattern _ _

/-! ### The application definition -/

/-- The path of an entry, with a slash at its end. -/
def rootText (number : Nat) : String := "/ENTRY[entry" ++ toString number ++ "]/"

theorem toList_rootText (number : Nat) : (rootText number).toList = root number := by
  rw [rootText, String.toList_append, String.toList_append, Nat.toString_eq_repr, Nat.toList_repr]
  rfl

/-- What every template says: the ends of the paths, and the texts. -/
def literals : List (String × String) :=
  [("definition", "NXapm"), ("profiling/programID[program1]/program", "libapm_mapper"),
    ("profiling/programID[program1]/program/@version", "0.1.0")]

theorem mem_patterns_of_mem_literals {p : String × String} (h : p ∈ literals) :
    "/ENTRY[entry*]" ++ "/" ++ p.1 ∈ applicationDefinition.patterns := by
  rw [literals, List.mem_cons, List.mem_cons, List.mem_singleton] at h
  rcases h with rfl | rfl | rfl
  · exact .head _
  · exact .tail _ (.head _)
  · exact .tail _ (.tail _ (.head _))

theorem marker_notMem_of_mem_literals {p : String × String} (h : p ∈ literals) :
    marker ∉ p.1.toList := by
  rw [literals, List.mem_cons, List.mem_cons, List.mem_singleton] at h
  rcases h with rfl | rfl | rfl <;> simp [marker]

/-- A target with no other marker than that for the entry. -/
theorem resolve?_single {rest : String} (hrest : marker ∉ rest.toList)
    (hregular : isRegular entryRoot.toList 1 ("/ENTRY[entry*]" ++ "/" ++ rest).toList = true)
    (number : UInt32) :
    resolve? ("/ENTRY[entry*]" ++ "/" ++ rest) [number] = some (rootText number.toNat ++ rest) := by
  obtain ⟨path, hpath⟩ := exists_resolve? hregular [number] rfl
  have hlist : ("/ENTRY[entry*]" ++ "/" ++ rest).toList =
      "/ENTRY[entry".toList ++ marker :: ("]/".toList ++ rest.toList) := by
    simp [marker]
  have hend : marker ∉ "]/".toList ++ rest.toList := by
    rw [List.mem_append, not_or]
    exact ⟨by decide, hrest⟩
  rw [hpath, (path_eq_written hpath).1, written, hlist,
    VariadicPath.substitute_append (by decide), List.map_singleton,
    VariadicPath.substitute_marker, VariadicPath.substitute_of_notMem hend]
  refine congrArg some (String.toList_inj.1 ?_)
  simp [rootText]

theorem resolve?_literal {p : String × String} (h : p ∈ literals) (number : UInt32) :
    resolve? ("/ENTRY[entry*]" ++ "/" ++ p.1) [number] = some (rootText number.toNat ++ p.1) :=
  resolve?_single (marker_notMem_of_mem_literals h)
    (isRegular_applicationDefinition (mem_patterns_of_mem_literals h)) number

/-- The application definition writes its literals. -/
theorem writes_definition (files : FileTree) (id : UInt32) :
    (Source.stepsAccount files (Source.definitionSteps id)).writes =
      literals.map fun p => (rootText (entryNumber id).toNat ++ p.1, .text p.2) := by
  have hwrites := Table.writes_of_literals applicationDefinition rfl literals rfl
    (rootText (entryNumber id).toNat ++ ·)
    (fun p hp => resolve?_literal hp (entryNumber id)) .empty
  rw [← hwrites, Source.stepsAccount, Source.definitionSteps, List.map_singleton,
    Account.sequence_cons, Account.sequence_nil, Account.andThen_nothing, Source.writes_account]
  rfl

theorem nodup_definition (files : FileTree) (id : UInt32) :
    (((Source.stepsAccount files (Source.definitionSteps id)).writes).map Prod.fst).Nodup := by
  have hends : (literals.map Prod.fst).Nodup := by decide
  have hinj : Function.Injective (rootText (entryNumber id).toNat ++ ·) := by
    intro a b h
    have hlist := congrArg String.toList h
    simp only [String.toList_append] at hlist
    exact String.toList_inj.1 (List.append_cancel_left hlist)
  have hnodup := hends.map hinj
  rw [List.map_map] at hnodup
  rwa [writes_definition, List.map_map]

/-! ### The paths of a template -/

/-- The number of an entry as it is written. -/
theorem toNat_entryNumber (id : UInt32) : (entryNumber id).toNat = max id.toNat 1 := by
  rw [entryNumber]
  split
  · next h => subst h; rfl
  · next h =>
    have hne : id.toNat ≠ 0 := fun h0 => h (UInt32.toNat_inj.1 h0)
    omega

/-- What the inputs of an entry write lies under the addresses of their
families. -/
theorem exists_address_of_mem_inputs {files : FileTree} {entry : Entry}
    (hall : ∀ a ∈ inputAccounts files entry.id entry.inputs, a.failure = none)
    {p : String × TemplateValue}
    (hp : p ∈ (inputAccounts files entry.id entry.inputs).flatMap Account.writes) :
    ∃ input, ∃ a ∈ (Input.families input (entryNumber entry.id)
        (entry.counts files)).flatMap Family.addresses, resolve? a.1 a.2 = some p.1 := by
  obtain ⟨account, haccount, hp⟩ := List.mem_flatMap.1 hp
  obtain ⟨⟨input, path⟩, hinput, rfl⟩ := List.mem_map.1 haccount
  obtain ⟨store, hstore, hexists⟩ := exists_address (hall _ haccount) hp
  rw [families_eq (pathOf_of_mem_inputs hinput) hstore] at hexists
  exact ⟨input, hexists⟩

/-- An entry that succeeds holds what its definition and its inputs
write, and none of them fails. -/
theorem of_result_eq_ok {entry : Entry} {w : World} {t : Template}
    (hok : entry.result w = .ok t) :
    (∀ a ∈ inputAccounts w.files entry.id entry.inputs, a.failure = none) ∧
      t = .ofList ((Source.stepsAccount w.files (Source.definitionSteps entry.id)).writes ++
        (inputAccounts w.files entry.id entry.inputs).flatMap Account.writes) := by
  rw [result_eq, Account.template_eq_ok_iff] at hok
  obtain ⟨hall, hwrites⟩ := Account.of_sequence hok.1
  rw [hwrites] at hok
  exact ⟨fun a ha => hall a (List.mem_cons_of_mem _ ha), hok.2.symm⟩

/-- Each path of the template of an entry is that of an address of the
application definition or of an input. -/
theorem exists_address_of_contains {entry : Entry} {w : World} {t : Template}
    (hok : entry.result w = .ok t) {path : String} (hpath : t.contains path = true) :
    (∃ p ∈ literals, path = rootText (entryNumber entry.id).toNat ++ p.1) ∨
    ∃ input, ∃ a ∈ (Input.families input (entryNumber entry.id)
        (entry.counts w.files)).flatMap Family.addresses, resolve? a.1 a.2 = some path := by
  obtain ⟨hall, rfl⟩ := of_result_eq_ok hok
  obtain ⟨v, hget⟩ := Option.isSome_iff_exists.1 hpath
  rcases List.mem_append.1 (SortedMap.mem_of_get?_ofList hget) with hp | hp
  · left
    rw [writes_definition] at hp
    obtain ⟨literal, hliteral, heq⟩ := List.mem_map.1 hp
    exact ⟨literal, hliteral, (Prod.mk.inj heq).1.symm⟩
  · exact .inr (exists_address_of_mem_inputs hall hp)

/-- The identifiers of an address begin with the number of the entry. -/
theorem exists_eq_cons {input : Input} {number : UInt32} {counts : RecordCounts}
    {a : String × List UInt32}
    (h : a ∈ (input.families number counts).flatMap Family.addresses) :
    ∃ ids, a.2 = number :: ids := by
  obtain ⟨family, hfamily, haddress⟩ := List.mem_flatMap.1 h
  have hids := (Family.mem_addresses.1 haddress).2
  have hsingle : a.2 ∈ [[number]] → ∃ ids, a.2 = number :: ids :=
    fun h => ⟨[], List.mem_singleton.1 h⟩
  -- the number of a record stands behind that of the entry
  have hrecord (count : Nat) :
      a.2 ∈ Source.recordIds number count → ∃ ids, a.2 = number :: ids := by
    intro h
    obtain ⟨n, -, heq⟩ := List.mem_map.1 h
    exact ⟨_, heq.symm⟩
  cases input with
  | notebook =>
    simp only [Input.families, List.mem_cons, List.not_mem_nil, or_false] at hfamily
    rcases hfamily with rfl | rfl | rfl | rfl
    · exact hrecord _ hids
    · exact hrecord _ hids
    · exact hsingle hids
    · exact hsingle hids
  | deployment =>
    simp only [Input.families, List.mem_cons, List.not_mem_nil, or_false] at hfamily
    rcases hfamily with rfl | rfl
    · exact hsingle hids
    · exact hrecord _ hids
  | vendor =>
    obtain rfl := List.mem_singleton.1 hfamily
    exact hsingle hids

/-- Each path of the template of an entry lies below the entry, and has
no marker left. -/
theorem root_of_contains {entry : Entry} {w : World} {t : Template}
    (hok : entry.result w = .ok t) {path : String} (hpath : t.contains path = true) :
    root (entryNumber entry.id).toNat <+: path.toList ∧ marker ∉ path.toList := by
  rcases exists_address_of_contains hok hpath with ⟨p, hp, rfl⟩ | ⟨input, a, ha, h⟩
  · have hregular := isRegular_applicationDefinition (mem_patterns_of_mem_literals hp)
    have h := resolve?_literal hp (entryNumber entry.id)
    exact ⟨below_root (isRegular_iff.1 hregular).1 h, (path_eq_written h).2⟩
  · have hregular := Source.isRegular_of_mem_addresses ha
    obtain ⟨ids, hids⟩ := exists_eq_cons ha
    rw [hids] at h
    exact ⟨below_root (isRegular_iff.1 hregular).1 h, (path_eq_written h).2⟩

theorem isTarget_of_contains {entry : Entry} {w : World} {t : Template}
    (hok : entry.result w = .ok t) (hshort : (entry.counts w.files).IsShort) {path : String}
    (hpath : t.contains path = true) :
    IsTarget (entryNumber entry.id).toNat (entry.counts w.files) path := by
  rcases exists_address_of_contains hok hpath with ⟨p, hp, rfl⟩ | ⟨input, a, ha, h⟩
  · rw [(path_eq_written (resolve?_literal hp (entryNumber entry.id))).1]
    exact isTarget_of_single applicationDefinition (by simp [singleTables])
      (mem_patterns_of_mem_literals hp) _ _
  · rw [(path_eq_written h).1]
    exact isTarget_of_mem_addresses hshort ha

/-- No address of an input is one of the application definition. -/
theorem ne_literal {input : Input} {number : UInt32} {counts : RecordCounts}
    {a : String × List UInt32}
    (ha : a ∈ (input.families number counts).flatMap Family.addresses) {path : String}
    (h : resolve? a.1 a.2 = some path) {p : String × String} (hp : p ∈ literals) :
    path ≠ rootText number.toNat ++ p.1 := by
  rintro rfl
  obtain ⟨family, hfamily, haddress⟩ := List.mem_flatMap.1 ha
  have hpattern : a.1 ∈ (input.families number counts).flatMap Family.patterns :=
    List.mem_flatMap.2 ⟨family, hfamily, (Family.mem_addresses.1 haddress).1⟩
  have hapart := (List.pairwise_append.1 (pairwise_apart_families input number counts)).2.2
    _ (mem_patterns_of_mem_literals hp) _ hpattern
  exact hapart [number] a.2 _ (resolve?_literal hp number) h

/-- The literals of the application definition are in the template. -/
theorem get?_literal {entry : Entry} {w : World} {t : Template} (hok : entry.result w = .ok t)
    {p : String × String} (hp : p ∈ literals) :
    t.get? (rootText (entryNumber entry.id).toNat ++ p.1) = some (.text p.2) := by
  obtain ⟨hall, rfl⟩ := of_result_eq_ok hok
  have hothers : ∀ q ∈ (inputAccounts w.files entry.id entry.inputs).flatMap Account.writes,
      q.1 ≠ rootText (entryNumber entry.id).toNat ++ p.1 := by
    intro q hq
    obtain ⟨input, a, ha, h⟩ := exists_address_of_mem_inputs hall hq
    exact ne_literal ha h hp
  have hmem : (rootText (entryNumber entry.id).toNat ++ p.1, TemplateValue.text p.2) ∈
      (Source.stepsAccount w.files (Source.definitionSteps entry.id)).writes := by
    rw [writes_definition]
    exact List.mem_map_of_mem hp
  rw [SortedMap.get?_ofList_append, SortedMap.get?_ofList_eq_none hothers, Option.none_or]
  exact SortedMap.get?_insertAll_of_mem (nodup_definition w.files entry.id) .empty hmem

/-- No input on its own writes over the application definition. -/
theorem contains_literal_standalone {w : World} {input : Input} {path : String} {id : UInt32}
    {t : Template} (hok : standalone w (input.convert path id) = .ok t) {p : String × String}
    (hp : p ∈ literals) : t.contains (rootText (entryNumber id).toNat ++ p.1) = false := by
  rw [standalone_eq (Source.exec_convert input path id .empty w),
    Account.template_eq_ok_iff] at hok
  obtain ⟨hfailure, rfl⟩ := hok
  rw [SortedMap.contains, SortedMap.get?_ofList_eq_none]
  · rfl
  · intro q hq
    obtain ⟨store, -, a, ha, h⟩ := exists_address hfailure hq
    exact ne_literal ha h hp

/-- The template of an entry that succeeds has no other paths than the
targets of the tables and the checksums, where the number of the entry
and those of the records stand for the markers. They lie below the
entry, so an entry of another number shares none of them. The literals
of the application definition are in every template, and no input writes
to their paths. -/
theorem paths_of_template (entry : Entry) (w : World) {t : Template}
    (hok : entry.result w = .ok t) (hshort : (entry.counts w.files).IsShort) :
    let number := max entry.id.toNat 1
    (∀ path, t.contains path = true →
      IsTarget number (entry.counts w.files) path ∧ root number <+: path.toList ∧
        '*' ∉ path.toList) ∧
    (∀ (entry' : Entry) (w' : World) (t' : Template), entry'.result w' = .ok t' →
      max entry'.id.toNat 1 ≠ number → ∀ path, t.contains path = true → t'.contains path = false) ∧
    ∀ p ∈ literals, t.get? (rootText number ++ p.1) = some (.text p.2) ∧
      ∀ (input : Input) (path : String) (t' : Template),
        standalone w (input.convert path entry.id) = .ok t' →
          t'.contains (rootText number ++ p.1) = false := by
  rw [← toNat_entryNumber]
  refine ⟨fun path hpath => ⟨isTarget_of_contains hok hshort hpath, root_of_contains hok hpath⟩,
    fun entry' w' t' hok' hne path hpath => ?_, fun p hp => ⟨get?_literal hok hp, ?_⟩⟩
  · refine Bool.eq_false_iff.2 fun hpath' => hne ?_
    rw [← toNat_entryNumber, eq_of_below_root (root_of_contains hok' hpath').1
      (root_of_contains hok hpath).1]
  · exact fun input path t' hok' => contains_literal_standalone hok' hp

/-- A world with a file of the vendor. -/
def vendorFile : World := .ofFiles ⟨[], [(["a.cameca"], .file "fQuality: good\n".toUTF8)]⟩

/-- The paths of a template with what the file of the vendor says. The
entry is counted as the first one, as its number is zero. -/
theorem paths_of_template_vendorFile :
    ∃ t, result ⟨0, none, none, some "a.cameca"⟩ vendorFile = .ok t ∧
      ∀ path, t.contains path = true → root 1 <+: path.toList := by
  have haccepted : Store.isAccepted Input.vendor.endings "a.cameca" = true := by
    rw [Store.isAccepted_name (by decide) (by decide)]
    decide
  have hread : (vendorFile.files.read "a.cameca" >>= Storage.decode).toOption =
      some "fQuality: good\n" := by
    decide
  obtain ⟨definition, hdefinition⟩ := exists_definition vendorFile 0
  obtain ⟨vendor, hvendor, -⟩ := exists_standalone 0 haccepted hread (P := fun _ => true)
    (by decide +kernel)
  have hparts : (Entry.mk 0 none none (some "a.cameca")).parts.map (standalone vendorFile) =
      [definition, vendor].map .ok := by
    change [standalone vendorFile (Source.runAll (Source.definitionSteps 0)),
      standalone vendorFile (Input.vendor.convert "a.cameca" 0)] = _
    rw [hdefinition, hvendor]
    rfl
  obtain ⟨t, hok, -⟩ := exists_result hparts
  exact ⟨t, hok, fun path hpath =>
    ((paths_of_template _ vendorFile hok ⟨by decide, by decide, by decide⟩).1 path hpath).2.1⟩

end Entry

end AtomProbe
