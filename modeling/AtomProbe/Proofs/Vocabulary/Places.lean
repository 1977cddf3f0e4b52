import AtomProbe.Proofs.Vocabulary.Units

/-!
# `AtomProbe.Proofs.Vocabulary.Places`: where records are numbered

Users, citations and laser sources are written below the root of their
entry, each under its own number. A `Place` is what stands in front of
the number, with the tables that are applied to a record there.

* `mem_tables_of_root`: of the tables of an input only those of a place
  have targets there. This is worked out once for all targets
  (`areElsewhere_targets`).
* `eq_of_target_eq`: no two rules of a place have the same target.
-/

set_option autoImplicit false

namespace AtomProbe.Vocabulary

open VariadicPath

/-- A place below the root of an entry where records are numbered. -/
structure Place where
  /-- What stands there before the number of a record. -/
  name : String
  /-- The tables for records. -/
  tables : List Table

namespace Place

/-- The place of the users. -/
def users : Place := ⟨"USER[user", [user, userIdentifier]⟩

/-- The place of the citations. -/
def citations : Place := ⟨"CITE[cite", [citation]⟩

/-- The place for what does not change of the laser sources. -/
def lasersStatic : Place := ⟨"measurement/instrument/pulser/sourceID[source", [laserSourceStatic]⟩

/-- The place for what may change of the laser sources. -/
def lasersDynamic : Place :=
  ⟨"measurement/event_data_apm_set/event_data_apm/instrument/pulser/sourceID[source",
    [laserSourceDynamic]⟩

/-- The targets of a place. -/
def patterns (place : Place) : List String := place.tables.flatMap Table.patterns

/-- The rules of a place, with their tables. -/
def rules (place : Place) : List (Table × Rule) :=
  place.tables.flatMap fun table => table.rules.map (table, ·)

/-- What all targets of a place begin with. -/
def root (place : Place) : List Char := entryRoot.toList ++ place.name.toList

/-- The path of the records of a place, before it is resolved. -/
def target (place : Place) : String := "/ENTRY[entry*]/" ++ place.name ++ "*]"

end Place

/-- The places of an input. -/
def places : Source.Input → List Place
  | .notebook => [.users, .lasersStatic, .lasersDynamic]
  | .deployment => [.citations]
  | .vendor => []

/-- Whether only the given targets lie below a root. -/
def areElsewhere (targets : List (List Char)) (places : List (List Char × List (List Char))) :
    Bool :=
  targets.all fun p => places.all fun place => !place.1.isPrefixOf p || place.2.contains p

theorem areElsewhere_targets (input : Source.Input) :
    areElsewhere ((targetsOf input).map String.toList)
      ((places input).map fun place => (place.root, place.patterns.map String.toList)) = true := by
  cases input <;>
    · simp only [areElsewhere, places, Place.root, Place.patterns, Place.users, Place.citations,
        Place.lasersStatic, Place.lasersDynamic, entryRoot, targetsOf, targets, user,
        userIdentifier, laserSourceStatic, laserSourceDynamic, entryTables, experiment, sample,
        specimen, instrumentStatic, instrumentDynamic, ranging, reconstruction,
        Source.workflowPatterns, workflowChecksums, workflowTarget, facilityInstrument,
        coordinateSystem, citation, vendor, Table.patterns, Table.targetPath, Option.or, Rule.use,
        Rule.useBoolean, Rule.copy, Rule.copyFrom, Rule.boolean, Rule.numberFrom,
        Rule.unsignedFrom, Rule.join, List.map, List.flatMap_cons, List.flatMap_nil,
        List.append_nil, List.cons_append, List.nil_append, String.toList_append]
      repeat rw [String.toList_ofList]
      decide

/-! ### The tables of a place -/

/-- The tables of an input. -/
def inputTables : Source.Input → List Table
  | .notebook => notebookTables
  | .deployment => [facilityInstrument, coordinateSystem, citation]
  | .vendor => [vendor]

/-- The checksums that an input takes. -/
def checksumTargets : Source.Input → List String
  | .notebook => Source.workflowPatterns
  | _ => []

theorem targetsOf_eq (input : Source.Input) :
    targetsOf input = (inputTables input).flatMap Table.patterns ++ checksumTargets input := by
  cases input <;>
    simp [targetsOf, targets, inputTables, notebookTables, checksumTargets, List.append_assoc]

theorem nodup_targetsOf (input : Source.Input) : (targetsOf input).Nodup := by
  have h := nodup_of_allSeparate (allSeparate_of_areWellFormed (areWellFormed_targets input))
  rw [List.flatMap_cons] at h
  exact (List.nodup_append.1 h).2.1

theorem pairwise_apart_targetsOf (input : Source.Input) : (targetsOf input).Pairwise Apart := by
  have h := pairwise_apart (allSeparate_of_areWellFormed (areWellFormed_targets input))
  rw [List.flatMap_cons] at h
  exact (List.pairwise_append.1 h).2.1

theorem tables_subset {input : Source.Input} {place : Place} (hplace : place ∈ places input) :
    place.tables ⊆ inputTables input := by
  have h : (places input).all fun place =>
      place.tables.all (inputTables input).contains := by
    cases input <;> decide
  have hall := List.all_eq_true.1 (List.all_eq_true.1 h place hplace)
  exact fun table htable => List.contains_iff_mem.1 (hall table htable)

/-- A target below a place is one of the place. -/
theorem mem_patterns_of_root {input : Source.Input} {place : Place} (hplace : place ∈ places input)
    {pattern : String} (hpattern : pattern ∈ targetsOf input)
    (hroot : place.root <+: pattern.toList) : pattern ∈ place.patterns := by
  have hall := List.all_eq_true.1
    (List.all_eq_true.1 (areElsewhere_targets input) _ (List.mem_map_of_mem hpattern)) _
    (List.mem_map_of_mem hplace)
  rw [Bool.or_eq_true, List.isPrefixOf_iff_prefix.2 hroot, List.contains_iff_mem] at hall
  obtain ⟨p, hp, heq⟩ := List.mem_map.1 (hall.resolve_left nofun)
  exact String.toList_inj.1 heq ▸ hp

/-- Only tables of a place have targets below it. -/
theorem mem_tables_of_root {input : Source.Input} {place : Place} (hplace : place ∈ places input)
    {table : Table} (htable : table ∈ inputTables input) {pattern : String}
    (hpattern : pattern ∈ table.patterns) (hroot : place.root <+: pattern.toList) :
    table ∈ place.tables := by
  have hnodup := nodup_targetsOf input
  have hmem : pattern ∈ (inputTables input).flatMap Table.patterns :=
    List.mem_flatMap.2 ⟨table, htable, hpattern⟩
  rw [targetsOf_eq, List.nodup_append, List.nodup_flatMap] at hnodup
  obtain ⟨table', htable', hpattern'⟩ := List.mem_flatMap.1 (mem_patterns_of_root hplace
    (by rw [targetsOf_eq]; exact List.mem_append_left _ hmem) hroot)
  -- no target is that of two tables
  have hsymm : Std.Symm (Function.onFun List.Disjoint Table.patterns) :=
    ⟨fun _ _ h _ hx hx' => h hx' hx⟩
  have heq : table = table' := by
    by_contra hne
    exact hnodup.1.2.forall htable (tables_subset hplace htable') hne hpattern hpattern'
  exact heq ▸ htable'

/-- No checksum lies below a place. -/
theorem not_root_of_mem_checksumTargets {input : Source.Input} {place : Place}
    (hplace : place ∈ places input) {pattern : String} (hpattern : pattern ∈ checksumTargets input) :
    ¬ place.root <+: pattern.toList := by
  intro hroot
  have hnodup := nodup_targetsOf input
  rw [targetsOf_eq, List.nodup_append] at hnodup
  obtain ⟨table, htable, hmem⟩ := List.mem_flatMap.1 (mem_patterns_of_root hplace
    (by rw [targetsOf_eq]; exact List.mem_append_right _ hpattern) hroot)
  exact hnodup.2.2 _ (List.mem_flatMap.2 ⟨table, tables_subset hplace htable, hmem⟩) _ hpattern rfl

/-- The places of all inputs. -/
def allPlaces : List Place := [.users, .citations, .lasersStatic, .lasersDynamic]

theorem mem_allPlaces {input : Source.Input} {place : Place} (h : place ∈ places input) :
    place ∈ allPlaces := by
  cases input with
  | notebook =>
    simp only [places, List.mem_cons, List.not_mem_nil, or_false] at h
    rcases h with rfl | rfl | rfl <;> simp [allPlaces]
  | deployment =>
    obtain rfl := List.mem_singleton.1 h
    simp [allPlaces]
  | vendor => cases h

/-- The tables of a place have their targets there. -/
theorem targetPath_of_mem {place : Place} (hplace : place ∈ allPlaces) {table : Table}
    (htable : table ∈ place.tables) : table.targetPath = .ok place.target := by
  have h : ∀ place ∈ allPlaces, ∀ table ∈ place.tables, table.targetPath = .ok place.target := by
    decide
  exact h place hplace table htable

/-- Markers stand for the number of the entry and that of the record
alone. No letter of a place can be mistaken for a number. -/
theorem plain_of_mem {place : Place} (hplace : place ∈ allPlaces) :
    marker ∉ place.name.toList ∧ (∀ c ∈ place.name.toList, c.isDigit = false) ∧
      ∀ p ∈ place.rules, marker ∉ p.2.target.toList := by
  have h : ∀ place ∈ allPlaces, marker ∉ place.name.toList ∧
      place.name.toList.all (fun c => !c.isDigit) = true ∧
        ∀ p ∈ place.rules, marker ∉ p.2.target.toList := by
    decide
  obtain ⟨hmarker, hdigits, htargets⟩ := h place hplace
  refine ⟨hmarker, fun c hc => ?_, htargets⟩
  simpa using List.all_eq_true.1 hdigits c hc

/-- No two rules of a place have the same target. -/
theorem eq_of_target_eq {place : Place} (hplace : place ∈ allPlaces) {p q : Table × Rule}
    (hp : p ∈ place.rules) (hq : q ∈ place.rules) (h : p.2.target = q.2.target) : p = q := by
  have hnodup : ∀ place ∈ allPlaces, (place.rules.map fun p => p.2.target).Nodup := by
    decide
  exact List.inj_on_of_nodup_map (hnodup place hplace) hp hq h

end AtomProbe.Vocabulary
