import AtomProbe.Proofs.Vocabulary

/-!
# `AtomProbe.Proofs.Vocabulary.Units`: the targets of units

The unit of a quantity lies below the quantity, under the name `@units`.
Only the notebook has such targets, and of the quantities that they
belong to only one is a target of another input as well: the flight path,
which the vendor knows too.

* `eq_flightPath_of_fill`: this, for the paths that the targets resolve
  to. It is worked out for the targets once (`areUnitsOwn_targets`).
* `mem_of_numberFrom`, `mem_of_unit`: the notebook's rules for a number
  and for its unit read from the same place, but for three quantities
  (`unlabelled`).
-/

set_option autoImplicit false

namespace AtomProbe.Vocabulary

open VariadicPath

/-- The name of a unit below its quantity. -/
def unitName : List Char := ['@', 'u', 'n', 'i', 't', 's']

/-- The target of the flight path. -/
def flightPath : String := "/ENTRY[entry*]/measurement/instrument/analysis_chamber/flight_path"

/-- The targets of an input, in one list. -/
def targetsOf (input : Source.Input) : List String := (targets input).flatMap Prod.snd

/-- The targets of the application definition and of the configuration of
a facility. -/
def otherTargets : List String := applicationDefinition.patterns ++ targetsOf .deployment

/-- Whether two paths have different last names, or can be told apart by
their characters. Two names may differ below markers at which the
characters do not tell them apart. -/
def isTold (p q : List Char) : Bool := (cut p).2 != (cut q).2 || separate p q

/-- Whether only the targets of the notebook are those of units, and no
other input has the quantity as a target, except for one of the vendor. -/
def areUnitsOwn (flight : List Char) (notebook others vendor : List (List Char)) : Bool :=
  (notebook ++ (others ++ vendor)).all endsPlain &&
    (others ++ vendor).all (fun q => (cut q).2 != unitName) &&
    (notebook.filter fun p => (cut p).2 == unitName).all fun p =>
      endsPlain (cut p).1 && others.all (isTold (cut p).1) &&
        vendor.all fun q => isTold (cut p).1 q || (cut p).1 == flight && q == flight

theorem areUnitsOwn_targets :
    areUnitsOwn flightPath.toList ((targetsOf .notebook).map String.toList)
      (otherTargets.map String.toList) ((targetsOf .vendor).map String.toList) = true := by
  -- lists of characters are evaluated much faster than texts
  simp only [otherTargets, flightPath, targetsOf, targets, applicationDefinition, user,
    userIdentifier, laserSourceStatic, laserSourceDynamic, entryTables, experiment, sample, specimen,
    instrumentStatic, instrumentDynamic, ranging, reconstruction, Source.workflowPatterns,
    workflowChecksums, workflowTarget, facilityInstrument, coordinateSystem, citation, vendor,
    Table.patterns, Table.targetPath, Option.or, Rule.use, Rule.useBoolean, Rule.copy,
    Rule.copyFrom, Rule.boolean, Rule.numberFrom, Rule.unsignedFrom, Rule.join,
    definitionName, programName, programVersion, List.map, List.flatMap_cons, List.flatMap_nil,
    List.append_nil, List.cons_append, List.nil_append, String.toList_append]
  repeat rw [String.toList_ofList]
  decide +kernel

/-- Paths that are told apart have no resolved path in common. -/
theorem fill_ne_fill_of_isTold {p q : List Char} (hp : endsPlain p = true)
    (hq : endsPlain q = true) (h : isTold p q = true) {previous previous' : Char}
    {ids ids' : List UInt32} {xs xs' : List Char} (hxs : fill previous p ids = some xs)
    (hxs' : fill previous' q ids' = some xs') : xs ≠ xs' := by
  rw [isTold, Bool.or_eq_true, bne_iff_ne] at h
  rcases h with hname | hseparate
  · rintro rfl
    exact hname ((fill_cut hp hxs).2.symm.trans (fill_cut hq hxs').2)
  · exact fill_ne_fill_of_separate hseparate hxs hxs'

/-- All targets end with names without markers. -/
theorem endsPlain_of_mem {pattern : String}
    (h : pattern ∈ targetsOf .notebook ++ (otherTargets ++ targetsOf .vendor)) :
    endsPlain pattern.toList = true := by
  have hchecked := areUnitsOwn_targets
  simp only [areUnitsOwn, Bool.and_eq_true, ← List.map_append] at hchecked
  exact List.all_eq_true.1 hchecked.1.1 _ (List.mem_map_of_mem h)

/-- Only the notebook has the units of quantities as targets. -/
theorem name_ne_unitName {pattern : String} (h : pattern ∈ otherTargets ++ targetsOf .vendor) :
    (cut pattern.toList).2 ≠ unitName := by
  have hchecked := areUnitsOwn_targets
  simp only [areUnitsOwn, Bool.and_eq_true, ← List.map_append] at hchecked
  exact bne_iff_ne.1 (List.all_eq_true.1 hchecked.1.2 _ (List.mem_map_of_mem h))

/-- What the notebook has a unit for is no target of another input,
except for the flight path of the vendor. -/
theorem eq_flightPath_of_fill {unit pattern : String} (hunit : unit ∈ targetsOf .notebook)
    (hname : (cut unit.toList).2 = unitName)
    (hpattern : pattern ∈ otherTargets ++ targetsOf .vendor) {previous previous' : Char}
    {ids ids' : List UInt32} {xs : List Char}
    (hquantity : fill previous (cut unit.toList).1 ids = some xs)
    (hxs : fill previous' pattern.toList ids' = some xs) :
    pattern ∉ otherTargets ∧ pattern = flightPath := by
  have hchecked := areUnitsOwn_targets
  simp only [areUnitsOwn, Bool.and_eq_true] at hchecked
  have hmem : unit.toList ∈ ((targetsOf .notebook).map String.toList).filter
      fun p => (cut p).2 == unitName :=
    List.mem_filter.2 ⟨List.mem_map_of_mem hunit, beq_iff_eq.2 hname⟩
  have hrow := List.all_eq_true.1 hchecked.2 _ hmem
  simp only [Bool.and_eq_true] at hrow
  obtain ⟨⟨hends, hothers⟩, hvendor⟩ := hrow
  -- paths that are told apart do not resolve to the same path
  have htold : isTold (cut unit.toList).1 pattern.toList ≠ true := fun h =>
    fill_ne_fill_of_isTold hends (endsPlain_of_mem (List.mem_append_right _ hpattern)) h
      hquantity hxs rfl
  have hnew : pattern ∉ otherTargets := fun h =>
    htold (List.all_eq_true.1 hothers _ (List.mem_map_of_mem h))
  have hmemVendor := (List.mem_append.1 hpattern).resolve_left hnew
  have hflight := List.all_eq_true.1 hvendor _ (List.mem_map_of_mem hmemVendor)
  rw [Bool.or_eq_true, Bool.and_eq_true, beq_iff_eq, beq_iff_eq] at hflight
  exact ⟨hnew, String.toList_inj.1 (hflight.resolve_left htold).2⟩

/-! ### Rules that copy units -/

/-- The tables of the notebook. -/
def notebookTables : List Table :=
  [user, userIdentifier, laserSourceStatic, laserSourceDynamic] ++ entryTables

/-- The quantities, by table and target, whose unit is not copied from
where the value is read. The error of the grain diameter is given the
unit of the grain diameter, the base temperature a unit that is looked
for at another place than the value, and the pulse fraction none. -/
def unlabelled : List (String × String) :=
  [("sample", "grain_diameter_error"), ("instrument_dynamic", "stage_lab/base_temperature"),
    ("instrument_dynamic", "pulser/pulse_fraction")]

/-- What stands before the last name of a key, if this is the name. -/
def above? (name : List Char) (key : String) : Option String :=
  if '/' ∈ key.toList ∧ (cut key.toList).2 = name then some (String.ofList (cut key.toList).1)
  else none

theorem above?_of_append {name : List Char} (hname : '/' ∉ name) {key q : String}
    (h : key.toList = q.toList ++ '/' :: name) : above? name key = some q := by
  rw [above?, h, cut_append q.toList hname, if_pos ⟨by simp, rfl⟩, String.ofList_toList]

theorem toList_of_above? {name : List Char} {key q : String} (h : above? name key = some q) :
    key.toList = q.toList ++ '/' :: name := by
  rw [above?] at h
  split at h
  · next hkey =>
    cases h
    obtain ⟨above, last, hlist, -, hcut⟩ := exists_of_mem_slash hkey.1
    rw [hcut] at hkey ⊢
    obtain ⟨-, rfl⟩ := hkey
    rw [String.toList_ofList, hlist]
  · cases h

/-- The rule that should go with one that reads a number. -/
def unitRule? (rule : Rule) : Option Rule :=
  match rule.action with
  | .read .number (some source) =>
    (above? "value".toList source).map fun q => .copyFrom (rule.target ++ "/@units") (q ++ "/unit")
  | _ => none

/-- Whether a rule that copies a unit goes with one that reads a number
of the table. -/
def isBesideValue (table : Table) (rule : Rule) : Bool :=
  match rule.action with
  | .read .copy source =>
    (above? unitName rule.target).all fun target =>
      unlabelled.contains (table.name, target) ||
        ((source.bind (above? "unit".toList)).any fun q =>
          table.rules.contains (.numberFrom target (q ++ "/value")))
  | _ => true

/-- Whether numbers and units of a table are read from the same places. -/
def areUnitsBeside (table : Table) : Bool :=
  table.rules.all fun rule =>
    (unlabelled.contains (table.name, rule.target) ||
      (unitRule? rule).all table.rules.contains) && isBesideValue table rule

theorem areUnitsBeside_notebookTables : notebookTables.all areUnitsBeside = true := by
  decide +kernel

/-- Beside the rule that reads a number stands one that copies its unit
from beside the number. -/
theorem mem_of_numberFrom {table : Table} (htable : table ∈ notebookTables) {target q : String}
    (hrule : Rule.numberFrom target (q ++ "/value") ∈ table.rules)
    (hlabelled : (table.name, target) ∉ unlabelled) :
    Rule.copyFrom (target ++ "/@units") (q ++ "/unit") ∈ table.rules := by
  have hbeside := List.all_eq_true.1 areUnitsBeside_notebookTables table htable
  have hchecked := List.all_eq_true.1 hbeside _ hrule
  have habove : above? "value".toList (q ++ "/value") = some q :=
    above?_of_append (by decide) (by rw [String.toList_append]; rfl)
  have hunit : unitRule? (.numberFrom target (q ++ "/value")) =
      some (.copyFrom (target ++ "/@units") (q ++ "/unit")) := by
    simp only [unitRule?, Rule.numberFrom, habove, Option.map_some]
  rw [Bool.and_eq_true, Bool.or_eq_true, hunit] at hchecked
  simpa [Rule.numberFrom, hlabelled] using hchecked.1

/-- A rule for a unit writes a literal, or stands beside one that reads
the number beside which the unit is. -/
theorem mem_of_unit {table : Table} (htable : table ∈ notebookTables) {rule : Rule}
    (hrule : rule ∈ table.rules) {target : String} (htarget : rule.target = target ++ "/@units")
    (hlabelled : (table.name, target) ∉ unlabelled) {source : Option String}
    (haction : rule.action = .read .copy source) :
    ∃ q, source = some (q ++ "/unit") ∧
      Rule.numberFrom target (q ++ "/value") ∈ table.rules := by
  -- this has been checked for all rules of the tables
  have hbeside := List.all_eq_true.1 areUnitsBeside_notebookTables table htable
  have hchecked := List.all_eq_true.1 hbeside _ hrule
  have habove : above? unitName rule.target = some target :=
    above?_of_append (by decide) (by rw [htarget, String.toList_append]; rfl)
  rw [Bool.and_eq_true, isBesideValue, haction] at hchecked
  have hvalue := hchecked.2
  simp only [habove, Option.all_some, Bool.or_eq_true, List.contains_iff_mem] at hvalue
  replace hvalue := hvalue.resolve_left hlabelled
  cases source with
  | none => cases hvalue
  | some source =>
    rw [Option.bind_some] at hvalue
    cases hq : above? "unit".toList source with
    | none =>
      rw [hq] at hvalue
      cases hvalue
    | some q =>
      rw [hq, Option.any_some, List.contains_iff_mem] at hvalue
      refine ⟨q, congrArg some (String.toList_inj.1 ?_), hvalue⟩
      rw [toList_of_above? hq, String.toList_append]
      rfl

end AtomProbe.Vocabulary
