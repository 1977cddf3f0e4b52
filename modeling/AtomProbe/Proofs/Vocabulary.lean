import AtomProbe.Proofs.Source.Family

/-!
# `AtomProbe.Proofs.Vocabulary`: the targets of the tables

What has to be known of the tables themselves is that their targets are
well formed and can be told apart. These are facts about some hundred
constant paths, which are worked out here once, character by character
(`areWellFormed_targets`).

* `isRegular_of_mem`: each target of an input lies below its entry, has
  as many markers as it is given identifiers, and can be resolved.
* `pairwise_apart_families`: the targets of one input and those of the
  application definition are pairwise apart.
-/

set_option autoImplicit false

namespace AtomProbe.Vocabulary

open VariadicPath

/-- The path below which all targets of an entry lie. -/
def entryRoot : String := "/ENTRY[entry*]/"

/-- The targets of an input, grouped as its families are, and the number
of markers in each of them. -/
def targets : Source.Input → List (Nat × List String)
  | .notebook =>
    [(2, user.patterns ++ userIdentifier.patterns),
      (2, laserSourceStatic.patterns ++ laserSourceDynamic.patterns),
      (1, entryTables.flatMap Table.patterns),
      (1, Source.workflowPatterns)]
  | .deployment =>
    [(1, facilityInstrument.patterns ++ coordinateSystem.patterns), (2, citation.patterns)]
  | .vendor => [(1, vendor.patterns)]

/-- Whether a path lies below `root` and has so many markers, which can
all be replaced and are delimited. -/
def isRegular (root : List Char) (markers : Nat) (cs : List Char) : Bool :=
  root.isPrefixOf cs && isResolvable ' ' cs && isDelimited cs && cs.count marker == markers

/-- Whether targets are regular and can all be told apart. -/
def areWellFormed (root : List Char) (targets : List (Nat × List String)) : Bool :=
  allSeparate (targets.flatMap fun group => group.2.map String.toList) &&
    targets.all fun group => (group.2.map String.toList).all (isRegular root group.1)

/-- The targets of an input and those of the application definition are
regular and can all be told apart. -/
theorem areWellFormed_targets (input : Source.Input) :
    areWellFormed entryRoot.toList ((1, applicationDefinition.patterns) :: targets input) =
      true := by
  cases input <;>
    · simp only [areWellFormed, entryRoot, targets, applicationDefinition, user, userIdentifier,
        laserSourceStatic, laserSourceDynamic, entryTables, experiment, sample, specimen,
        instrumentStatic, instrumentDynamic, ranging, reconstruction, Source.workflowPatterns,
        workflowChecksums, workflowTarget, facilityInstrument, coordinateSystem, citation, vendor,
        Table.patterns, Table.targetPath, Option.or, Rule.use, Rule.useBoolean, Rule.copy,
        Rule.copyFrom, Rule.boolean, Rule.numberFrom, Rule.unsignedFrom, Rule.join,
        definitionName, programName, programVersion,
        List.map, List.all, List.flatMap_cons, List.flatMap_nil, List.append_nil,
        List.cons_append, List.nil_append, String.toList_append]
      repeat rw [String.toList_ofList]
      decide +kernel

theorem allSeparate_of_areWellFormed {root : List Char} {targets : List (Nat × List String)}
    (h : areWellFormed root targets = true) :
    allSeparate ((targets.flatMap Prod.snd).map String.toList) = true := by
  rw [areWellFormed, Bool.and_eq_true] at h
  rw [List.map_flatMap]
  exact h.1

theorem isRegular_of_areWellFormed {root : List Char} {targets : List (Nat × List String)}
    (h : areWellFormed root targets = true) {group : Nat × List String} (hgroup : group ∈ targets)
    {pattern : String} (hpattern : pattern ∈ group.2) :
    isRegular root group.1 pattern.toList = true := by
  rw [areWellFormed, Bool.and_eq_true, List.all_eq_true] at h
  exact List.all_eq_true.1 (h.2 group hgroup) _ (List.mem_map_of_mem hpattern)

theorem isRegular_iff {root : List Char} {markers : Nat} {cs : List Char} :
    isRegular root markers cs = true ↔
      root <+: cs ∧ isResolvable ' ' cs = true ∧ isDelimited cs = true ∧
        cs.count marker = markers := by
  simp only [isRegular, Bool.and_eq_true, List.isPrefixOf_iff_prefix, beq_iff_eq, and_assoc]

/-- The targets of the application definition are regular. -/
theorem isRegular_applicationDefinition {pattern : String}
    (h : pattern ∈ applicationDefinition.patterns) :
    isRegular entryRoot.toList 1 pattern.toList = true :=
  isRegular_of_areWellFormed (areWellFormed_targets .vendor) List.mem_cons_self h

theorem length_of_mem_recordIds {number : UInt32} {count : Nat} {ids : List UInt32}
    (h : ids ∈ Source.recordIds number count) : ids.length = 2 := by
  obtain ⟨n, -, rfl⟩ := List.mem_map.1 h
  rfl

/-- Each target of a family has a marker for each identifier. -/
theorem mem_targets_of_mem_families {input : Source.Input} {number : UInt32}
    {counts : Source.RecordCounts} {family : Source.Family}
    (h : family ∈ input.families number counts) {ids : List UInt32} (hids : ids ∈ family.ids) :
    (ids.length, family.patterns) ∈ targets input := by
  cases input with
  | notebook =>
    simp only [Source.Input.families, List.mem_cons, List.not_mem_nil, or_false] at h
    rcases h with rfl | rfl | rfl | rfl
    · simp [targets, length_of_mem_recordIds hids]
    · simp [targets, length_of_mem_recordIds hids]
    · simp [targets, List.mem_singleton.1 hids]
    · simp [targets, List.mem_singleton.1 hids]
  | deployment =>
    simp only [Source.Input.families, List.mem_cons, List.not_mem_nil, or_false] at h
    rcases h with rfl | rfl
    · simp [targets, List.mem_singleton.1 hids]
    · simp [targets, length_of_mem_recordIds hids]
  | vendor =>
    obtain rfl := List.mem_singleton.1 h
    simp [targets, List.mem_singleton.1 hids]

/-- Each target of an input lies below its entry, and has as many
delimited markers as it is given identifiers. -/
theorem isRegular_of_mem {input : Source.Input} {number : UInt32}
    {counts : Source.RecordCounts} {family : Source.Family}
    (h : family ∈ input.families number counts) {pattern : String}
    (hpattern : pattern ∈ family.patterns) {ids : List UInt32} (hids : ids ∈ family.ids) :
    isRegular entryRoot.toList ids.length pattern.toList = true :=
  isRegular_of_areWellFormed (areWellFormed_targets input)
    (List.mem_cons_of_mem _ (mem_targets_of_mem_families h hids)) hpattern

theorem allSeparate_families (input : Source.Input) (number : UInt32)
    (counts : Source.RecordCounts) :
    allSeparate ((applicationDefinition.patterns ++
      (input.families number counts).flatMap Source.Family.patterns).map String.toList) = true := by
  have h := allSeparate_of_areWellFormed (areWellFormed_targets input)
  cases input <;> exact h

/-- The targets of one input and those of the application definition are
pairwise apart. -/
theorem pairwise_apart_families (input : Source.Input) (number : UInt32)
    (counts : Source.RecordCounts) :
    (applicationDefinition.patterns ++
      (input.families number counts).flatMap Source.Family.patterns).Pairwise Apart :=
  pairwise_apart (allSeparate_families input number counts)

/-- No target of an input occurs twice. -/
theorem nodup_families (input : Source.Input) (number : UInt32) (counts : Source.RecordCounts) :
    ((input.families number counts).flatMap Source.Family.patterns).Nodup :=
  (List.nodup_append.1 (nodup_of_allSeparate (allSeparate_families input number counts))).2.1

/-- A regular path can be resolved with as many identifiers as it has
markers. -/
theorem exists_resolve? {markers : Nat} {pattern : String}
    (h : isRegular entryRoot.toList markers pattern.toList = true) (ids : List UInt32)
    (hids : ids.length = markers) : ∃ resolved, resolve? pattern ids = some resolved := by
  obtain ⟨hroot, hresolvable, -, hcount⟩ := isRegular_iff.1 h
  obtain ⟨xs, hxs⟩ := exists_fill hresolvable ids (by omega)
  refine ⟨String.ofList xs, resolve?_of_fill (fun hempty => ?_) hxs⟩
  subst hempty
  exact absurd hroot (by decide)

end AtomProbe.Vocabulary
