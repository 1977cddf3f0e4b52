import AtomProbe.Proofs.Entry.Paths
import AtomProbe.Proofs.Source.Sections

/-!
# `AtomProbe.Proofs.Source.Records`: what stands under the number of a record

A template tells the users, the citations and the laser sources of an
entry apart by their numbers. The path of a place is read back: behind
its letters stands the number of a record, up to a bracket, and then the
target of a rule.

* `exists_record_of_get?`: what stands below a place is what a rule for
  a record makes of it, and the number is that of the record.
* `get?_recordPath`: what a rule for a record makes of it stands there.
-/

set_option autoImplicit false

namespace AtomProbe

namespace Source

open Vocabulary
open VariadicPath (resolve? marker)

/-! ### The path of a record -/

/-- The path of a value of the record with the number `n`. -/
def recordPath (number : Nat) (place : Place) (n : Nat) (name : String) : String :=
  Entry.rootText number ++ place.name ++ toString n ++ "]/" ++ name

/-- What the paths of all records of a place begin with. -/
def recordRoot (number : Nat) (place : Place) : List Char :=
  Entry.root number ++ place.name.toList

theorem toList_recordPath (number : Nat) (place : Place) (n : Nat) (name : String) :
    (recordPath number place n name).toList =
      recordRoot number place ++ (Nat.toDigits 10 n ++ ']' :: '/' :: name.toList) := by
  rw [recordPath, recordRoot]
  simp only [String.toList_append, Entry.toList_rootText, Nat.toString_eq_repr, Nat.toList_repr,
    List.append_assoc]
  rfl

example : recordPath 1 .users 2 "email" = "/ENTRY[entry1]/USER[user2]/email" := by
  decide

theorem root_prefix_recordPath (number : Nat) (place : Place) (n : Nat) (name : String) :
    recordRoot number place <+: (recordPath number place n name).toList := by
  rw [toList_recordPath]
  exact List.prefix_append ..

/-- The number of a record and the name behind it are read back. -/
theorem recordPath_inj {number : Nat} {place : Place} {m n : Nat} {name name' : String}
    (h : recordPath number place m name = recordPath number place n name') :
    m = n ∧ name = name' := by
  have hlist := congrArg String.toList h
  rw [toList_recordPath, toList_recordPath] at hlist
  replace hlist := List.append_cancel_left hlist
  -- the digits of the number end at the bracket
  have htake (k : Nat) (cs : List Char) :
      (Nat.toDigits 10 k ++ ']' :: cs).takeWhile Char.isDigit = Nat.toDigits 10 k := by
    rw [List.takeWhile_append_of_pos fun c hc =>
      Nat.isDigit_of_mem_toDigits (by decide) (by decide) hc]
    simp
  have hdigits := congrArg (List.takeWhile Char.isDigit) hlist
  rw [htake, htake] at hdigits
  have hnumber := congrArg (fun cs => Nat.ofDigitChars 10 cs 0) hdigits
  simp only [Nat.ofDigitChars_ten_toDigits] at hnumber
  subst hnumber
  have hname := List.append_cancel_left hlist
  simp only [List.cons.injEq, true_and] at hname
  exact ⟨rfl, String.toList_inj.1 hname⟩

/-- The target of a rule of a place, resolved. -/
theorem eq_recordPath_of_resolve? {place : Place} (hplace : place ∈ allPlaces) {table : Table}
    (htable : table ∈ place.tables) {rule : Rule} (hrule : rule ∈ table.rules)
    {number n : UInt32} {path : String}
    (h : resolve? (place.target ++ "/" ++ rule.target) [number, n] = some path) :
    path = recordPath number.toNat place n.toNat rule.target := by
  obtain ⟨hname, -, hrules⟩ := plain_of_mem hplace
  have htarget : marker ∉ rule.target.toList :=
    hrules (table, rule) (List.mem_flatMap.2 ⟨table, htable, List.mem_map_of_mem hrule⟩)
  have hlist : (place.target ++ "/" ++ rule.target).toList =
      "/ENTRY[entry".toList ++ marker :: (("]/".toList ++ place.name.toList) ++
        marker :: ("]/".toList ++ rule.target.toList)) := by
    have hentry : "/ENTRY[entry*]/".toList = "/ENTRY[entry".toList ++ marker :: "]/".toList := by
      decide
    have hplace : place.target = "/ENTRY[entry*]/" ++ place.name ++ "*]" := rfl
    simp only [hplace, String.toList_append, hentry, List.append_assoc, List.cons_append]
    rfl
  have hbetween : marker ∉ "]/".toList ++ place.name.toList := by
    rw [List.mem_append, not_or]
    exact ⟨by decide, hname⟩
  have hend : marker ∉ "]/".toList ++ rule.target.toList := by
    rw [List.mem_append, not_or]
    exact ⟨by decide, htarget⟩
  -- the first marker stands for the entry, the second one for the record
  rw [(Entry.path_eq_written h).1, written, hlist,
    VariadicPath.substitute_append (by decide), List.map_cons, VariadicPath.substitute_marker,
    VariadicPath.substitute_append hbetween, List.map_singleton, VariadicPath.substitute_marker,
    VariadicPath.substitute_of_notMem hend]
  refine String.toList_inj.1 ?_
  rw [toList_recordPath, recordRoot, Entry.root_eq, String.toList_ofList]
  simp only [List.append_assoc]
  rfl

/-- A path below a place is that of a target below it. -/
theorem root_of_recordRoot {place : Place} (hplace : place ∈ allPlaces) {pattern path : String}
    {number : UInt32} {ids : List UInt32} (hroot : entryRoot.toList <+: pattern.toList)
    (h : resolve? pattern (number :: ids) = some path)
    (hpath : recordRoot number.toNat place <+: path.toList) :
    place.root <+: pattern.toList := by
  obtain ⟨rest, hrest⟩ := hroot
  have hsplit : pattern.toList = "/ENTRY[entry".toList ++ marker :: ("]/".toList ++ rest) := by
    rw [← hrest, Entry.toList_entryRoot, List.append_assoc, List.cons_append]
  have hfill := VariadicPath.fill_of_resolve? h
  rw [hsplit] at hfill
  obtain ⟨ys, hys, heq⟩ := VariadicPath.fill_first_eq_some (by decide) hfill
  -- no letter behind the number of the entry can come from a marker
  have hletters : "]/".toList ++ place.name.toList <+: ys := by
    rw [heq, recordRoot, Entry.root_eq, List.append_assoc, List.append_assoc] at hpath
    exact (List.prefix_append_right_inj _).1 ((List.prefix_append_right_inj _).1 hpath)
  have isPlain : ∀ c ∈ "]/".toList, c.isDigit = false :=
    List.forall_mem_cons.2 ⟨rfl, List.forall_mem_singleton.2 rfl⟩
  have hplain : ∀ c ∈ "]/".toList ++ place.name.toList, c.isDigit = false := by
    intro c hc
    rcases List.mem_append.1 hc with hc | hc
    · exact isPlain c hc
    · exact (plain_of_mem hplace).2.1 c hc
  rw [hsplit, Place.root, Entry.toList_entryRoot, List.append_assoc, List.cons_append]
  exact (List.prefix_append_right_inj _).2 (List.cons_prefix_cons.2
    ⟨rfl, VariadicPath.prefix_of_prefix_fill hplain hys hletters⟩)

/-! ### Steps that number records -/

/-- Whether steps apply the tables of records to them, numbered from one,
and write below a place in no other way. -/
structure NumbersIn (steps : List Step) (number : UInt32) (place : Place)
    (tables : Store → List Table) (records : List Store) : Prop where
  subset : ∀ record, tables record ⊆ place.tables
  apply_mem_iff : ∀ {table record ids}, table ∈ place.tables →
    (.apply table record ids ∈ steps ↔
      ∃ n, (record, n) ∈ records.zipIdx 1 ∧ table ∈ tables record ∧
        ids = [number, UInt32.ofNat n])

section

variable {files : FileTree} {input : Input} {directory : String} {store : Store} {id : UInt32}
  {place : Place} {tables : Store → List Table} {records : List Store}

/-- The identifiers of a step of an input begin with the number of the
entry, and its target lies below the root of all entries. -/
theorem root_of_mem_addresses {step : Step} (hstep : step ∈ input.steps directory store id)
    {a : String × List UInt32} (ha : a ∈ step.addresses) :
    (∃ ids, a.2 = entryNumber id :: ids) ∧ entryRoot.toList <+: a.1.toList ∧
      ∃ path, resolve? a.1 a.2 = some path := by
  have hmem := (addresses_steps input directory store id).subset
    (List.mem_flatMap.2 ⟨step, hstep, ha⟩)
  have hregular := isRegular_of_mem_addresses hmem
  exact ⟨Entry.exists_eq_cons hmem, (isRegular_iff.1 hregular).1,
    exists_resolve? hregular a.2 rfl⟩

theorem lt_size_of_mem_zipIdx (hlength : records.length < UInt32.size - 1) {record : Store}
    {n : Nat} (h : (record, n) ∈ records.zipIdx 1) : n < UInt32.size := by
  have := (List.mem_zipIdx h).2.1
  omega

/-- What is written below a place is what a rule for some record makes
of it. -/
theorem exists_record_of_get? (hplace : place ∈ places input)
    (h : NumbersIn (input.steps directory store id) (entryNumber id) place tables records)
    (hlength : records.length < UInt32.size - 1)
    (hfailure : (stepsAccount files (input.steps directory store id)).failure = none)
    {path : String} {v : TemplateValue}
    (hget : (SortedMap.ofList
      (stepsAccount files (input.steps directory store id)).writes).get? path = some v)
    (hroot : recordRoot (entryNumber id).toNat place <+: path.toList) :
    ∃ record n, (record, n) ∈ records.zipIdx 1 ∧ ∃ table ∈ tables record, ∃ rule ∈ table.rules,
      path = recordPath (entryNumber id).toNat place n rule.target ∧
        rule.product table record = .ok (.value v) := by
  have hmem := SortedMap.mem_of_get?_ofList hget
  rw [writes_stepsAccount hfailure] at hmem
  obtain ⟨step, hstep, hinsert⟩ := List.mem_flatMap.1 hmem
  cases step with
  | report r => cases hinsert
  | apply table record ids =>
    obtain ⟨above, habove, rule, hrule, heffect⟩ := Table.exists_rule_of_mem_writes hinsert
    obtain ⟨hproduct, hresolve⟩ := Rule.effect_eq_write_iff.1 heffect
    have hpattern : above ++ "/" ++ rule.target ∈ table.patterns := by
      rw [Table.patterns, habove]
      exact List.mem_map_of_mem hrule
    have haddress : (above ++ "/" ++ rule.target, ids) ∈
        (Step.apply table record ids).addresses := List.mem_map_of_mem hpattern
    obtain ⟨⟨ids', rfl⟩, hentry, -⟩ := root_of_mem_addresses hstep haddress
    have htable := mem_tables_of_root hplace (mem_inputTables hstep) hpattern
      (root_of_recordRoot (mem_allPlaces hplace) hentry hresolve hroot)
    obtain ⟨n, hn, hrecord, hids⟩ := (h.apply_mem_iff htable).1 hstep
    rw [hids] at hresolve
    rw [targetPath_of_mem (mem_allPlaces hplace) htable, Except.ok.injEq] at habove
    subst habove
    have hpath := eq_recordPath_of_resolve? (mem_allPlaces hplace) htable hrule hresolve
    rw [UInt32.toNat_ofNat_of_lt' (lt_size_of_mem_zipIdx hlength hn)] at hpath
    exact ⟨record, n, hn, table, hrecord, rule, hrule, hpath, hproduct⟩
  | checksum target ids key file =>
    rw [Step.inserts] at hinsert
    obtain ⟨⟨ids', rfl⟩, hentry, resolved, hresolve⟩ := root_of_mem_addresses hstep
      (List.mem_singleton_self (target, ids))
    rw [hresolve] at hinsert
    cases hdigest : checksum? files file with
    | none =>
      rw [hdigest] at hinsert
      cases hinsert
    | some digest =>
      rw [hdigest] at hinsert
      cases List.mem_singleton.1 hinsert
      -- no checksum lies below a place
      exact absurd (root_of_recordRoot (mem_allPlaces hplace) hentry hresolve hroot)
        (not_root_of_mem_checksumTargets hplace (mem_checksumTargets hstep))

/-- What a rule for a record makes of it is found under the number of
the record. -/
theorem get?_recordPath (hshort : (RecordCounts.ofStore store).IsShort) (hplace : place ∈ places input)
    (h : NumbersIn (input.steps directory store id) (entryNumber id) place tables records)
    (hlength : records.length < UInt32.size - 1)
    (hfailure : (stepsAccount files (input.steps directory store id)).failure = none)
    {record : Store} {n : Nat} (hn : (record, n) ∈ records.zipIdx 1) {table : Table}
    (htable : table ∈ tables record) {rule : Rule} (hrule : rule ∈ table.rules)
    {v : TemplateValue} (hproduct : rule.product table record = .ok (.value v)) :
    (SortedMap.ofList (stepsAccount files (input.steps directory store id)).writes).get?
      (recordPath (entryNumber id).toNat place n rule.target) = some v := by
  have hmem := h.subset record htable
  have hstep := (h.apply_mem_iff hmem).2 ⟨n, hn, htable, rfl⟩
  have habove := targetPath_of_mem (mem_allPlaces hplace) hmem
  have haddress : (place.target ++ "/" ++ rule.target, [entryNumber id, UInt32.ofNat n]) ∈
      (Step.apply table record [entryNumber id, UInt32.ofNat n]).addresses := by
    rw [Step.addresses, Table.patterns, habove]
    exact List.mem_map_of_mem (List.mem_map_of_mem hrule)
  obtain ⟨-, -, path, hresolve⟩ := root_of_mem_addresses hstep haddress
  have hpath := eq_recordPath_of_resolve? (mem_allPlaces hplace) hmem hrule hresolve
  rw [UInt32.toNat_ofNat_of_lt' (lt_size_of_mem_zipIdx hlength hn)] at hpath
  rw [← hpath]
  exact get?_of_rule hshort hfailure hstep habove hrule
    (Rule.effect_eq_write_iff.2 ⟨hproduct, hresolve⟩) .empty

/-- No table for a record fails. -/
theorem exists_product_of_mem (hplace : place ∈ places input)
    (h : NumbersIn (input.steps directory store id) (entryNumber id) place tables records)
    (hfailure : (stepsAccount files (input.steps directory store id)).failure = none)
    {record : Store} {n : Nat} (hn : (record, n) ∈ records.zipIdx 1) {table : Table}
    (htable : table ∈ tables record) {rule : Rule} (hrule : rule ∈ table.rules) :
    ∃ made, rule.product table record = .ok made := by
  have hmem := h.subset record htable
  have hstep := (h.apply_mem_iff hmem).2 ⟨n, hn, htable, rfl⟩
  exact Table.exists_product (failure_effects_of_mem hfailure hstep)
    (targetPath_of_mem (mem_allPlaces hplace) hmem) hrule

end

end Source

end AtomProbe
