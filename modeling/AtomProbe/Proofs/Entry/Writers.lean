import AtomProbe.Proofs.Entry.Paths
import AtomProbe.Proofs.Vocabulary.Units

/-!
# `AtomProbe.Proofs.Entry.Writers`: which part wrote a value last

The parts of an entry take precedence path by path. So a quantity and
its unit, which have paths of their own, need not come from the same
part.

* `get?_lastWriter`: what a template holds under a path is what the last
  part that writes there on its own does.
* `units_of_template`: units come from the notebook alone, and so do
  their quantities, except for the flight path, which the vendor may
  replace without its unit.
* `exists_mixed`: that happens.

That no other quantity is written by two parts is a fact about the
targets of the tables, which are told apart in
`AtomProbe.Proofs.Vocabulary.Units`.
-/

set_option autoImplicit false

namespace AtomProbe.Entry

open Vocabulary Source
open VariadicPath (resolve? cut)

/-! ### Parts and what they write -/

/-- The parts of an entry: the application definition and the inputs. -/
inductive Part
  | definition
  | input (input : Input)
  deriving DecidableEq, Repr

/-- The parts of an entry in order, each with its conversion. -/
def namedParts (entry : Entry) : List (Part × Conversion (StateM World) Unit) :=
  (.definition, runAll (definitionSteps entry.id)) ::
    entry.inputs.map fun (input, path) => (.input input, input.convert path entry.id)

/-- What a conversion writes under a path on its own. -/
def wrote? (w : World) (path : String) (c : Conversion (StateM World) Unit) :
    Option TemplateValue :=
  match standalone w c with
  | .ok t => t.get? path
  | .error _ => none

/-- The part that wrote a path last: the last one that writes it on its
own. -/
def lastWriter (entry : Entry) (w : World) (path : String) : Option Part :=
  (entry.namedParts.reverse.find? fun part => (wrote? w path part.2).isSome).map Prod.fst

theorem map_snd_namedParts (entry : Entry) : entry.namedParts.map Prod.snd = entry.parts := by
  have hinput (input : Input) (path : Option String) :
      ((path.map fun path => (input, path)).toList.map fun (input, path) =>
        ((Part.input input, input.convert path entry.id) :
          Part × Conversion (StateM World) Unit)).map Prod.snd =
        (path.map fun path => input.convert path entry.id).toList := by
    cases path <;> rfl
  simp only [namedParts, parts, inputs, List.map_cons, List.map_append, hinput, List.cons_append,
    List.nil_append]

/-- The first of some templates that has a path is that of the first part
that writes it. -/
theorem findSome?_get? {w : World} {named : List (Part × Conversion (StateM World) Unit)}
    {ts : List Template} (hts : (named.map Prod.snd).map (standalone w) = ts.map .ok)
    (path : String) :
    ts.findSome? (·.get? path) =
      (named.find? fun part => (wrote? w path part.2).isSome).bind
        fun part => wrote? w path part.2 := by
  induction named generalizing ts with
  | nil =>
    obtain rfl : ts = [] := by simpa using hts.symm
    rfl
  | cons part named ih =>
    cases ts with
    | nil => cases hts
    | cons t ts =>
      obtain ⟨hpart, hrest⟩ := List.cons.inj hts
      have hwrote : wrote? w path part.2 = t.get? path := by
        rw [wrote?]
        change standalone w part.2 = .ok t at hpart
        rw [hpart]
      rw [List.findSome?_cons, List.find?_cons, hwrote]
      -- the first template either has the path or is skipped on both sides
      cases hget : t.get? path with
      | none => exact ih hrest
      | some v => exact hget.symm.trans hwrote.symm

/-- What a template holds under a path is what the last part that writes
there on its own does. -/
theorem get?_lastWriter {entry : Entry} {w : World} {t : Template} (hok : entry.result w = .ok t)
    {path : String} (hpath : t.contains path = true) :
    ∃ part ∈ entry.namedParts, entry.lastWriter w path = some part.1 ∧
      wrote? w path part.2 = t.get? path := by
  rw [result_eq, Account.template_sequence, ← map_standalone_parts, ← map_snd_namedParts] at hok
  obtain ⟨ts, hts, hget⟩ := hok
  have hreverse : (entry.namedParts.reverse.map Prod.snd).map (standalone w) =
      ts.reverse.map .ok := by
    rw [List.map_reverse, List.map_reverse, hts, List.map_reverse]
  -- the templates are asked from the last one to the first, and so are the parts
  have hfound := findSome?_get? hreverse path
  rw [← hget path] at hfound
  cases hpart : entry.namedParts.reverse.find? fun part => (wrote? w path part.2).isSome with
  | none =>
    rw [hpart] at hfound
    rw [SortedMap.contains, hfound] at hpath
    cases hpath
  | some part =>
    rw [hpart] at hfound
    refine ⟨part, List.mem_reverse.1 (List.mem_of_find?_eq_some hpart), ?_, hfound.symm⟩
    rw [lastWriter, hpart]
    rfl

/-- The vendor, where there is its input, comes behind all other parts. -/
theorem exists_namedParts (entry : Entry) :
    ∃ earlier, (∀ part ∈ earlier, part.1 ≠ .input .vendor) ∧
      entry.namedParts = earlier ++ (entry.vendor.map fun path =>
        ((Part.input .vendor, Input.vendor.convert path entry.id) :
          Part × Conversion (StateM World) Unit)).toList := by
  refine ⟨(.definition, runAll (definitionSteps entry.id)) ::
    ((entry.deployment.map fun path => (Input.deployment, path)).toList ++
      (entry.notebook.map fun path => (Input.notebook, path)).toList).map fun (input, path) =>
        (.input input, input.convert path entry.id), ?_, ?_⟩
  · cases entry.deployment <;> cases entry.notebook <;> simp
  · rw [namedParts, inputs, List.map_append]
    cases entry.vendor <;> rfl

/-- The vendor has written a path last exactly if it writes it. -/
theorem lastWriter_eq_vendor_iff (entry : Entry) (w : World) (path : String) :
    entry.lastWriter w path = some (.input .vendor) ↔
      ∃ vendorPath, entry.vendor = some vendorPath ∧
        (wrote? w path (Input.vendor.convert vendorPath entry.id)).isSome = true := by
  obtain ⟨earlier, hearlier, hparts⟩ := entry.exists_namedParts
  -- without the vendor another part has written the path, or none
  have hother : ((earlier.reverse.find? fun part => (wrote? w path part.2).isSome).map Prod.fst) ≠
      some (.input .vendor) := by
    intro h
    obtain ⟨part, hfind, hvendor⟩ := Option.map_eq_some_iff.1 h
    exact hearlier part (List.mem_reverse.1 (List.mem_of_find?_eq_some hfind)) hvendor
  rw [lastWriter, hparts]
  cases entry.vendor with
  | none =>
    rw [Option.map_none, Option.toList_none, List.append_nil]
    exact ⟨fun h => (hother h).elim, fun ⟨_, h, _⟩ => by cases h⟩
  | some vendorPath =>
    rw [Option.map_some, Option.toList_some, List.reverse_append, List.reverse_singleton,
      List.singleton_append, List.find?_cons]
    -- the vendor is asked first
    cases hwrote : (wrote? w path (Input.vendor.convert vendorPath entry.id)).isSome with
    | true => exact iff_of_true rfl ⟨vendorPath, rfl, hwrote⟩
    | false =>
      refine ⟨fun h => (hother h).elim, ?_⟩
      rintro ⟨_, ⟨⟩, hwrote'⟩
      rw [hwrote] at hwrote'
      cases hwrote'

/-! ### The targets of a part -/

/-- The targets of a part. -/
def Part.targets : Part → List String
  | .definition => applicationDefinition.patterns
  | .input kind => targetsOf kind

/-- What a part writes on its own lies under one of its targets, where
the first marker stands for the number of the entry. -/
theorem exists_target {entry : Entry} {w : World} {path : String}
    {part : Part × Conversion (StateM World) Unit} (hpart : part ∈ entry.namedParts)
    (hwrote : (wrote? w path part.2).isSome = true) :
    ∃ pattern ∈ part.1.targets, ∃ ids, resolve? pattern (entryNumber entry.id :: ids) =
      some path := by
  -- the definition writes literals, and an input the targets of its tables
  rcases List.mem_cons.1 hpart with rfl | hpart
  · rw [wrote?, standalone_eq (exec_runAll (definitionSteps entry.id) .empty w)] at hwrote
    cases htemplate : (stepsAccount w.files (definitionSteps entry.id)).template with
    | error e =>
      rw [htemplate] at hwrote
      cases hwrote
    | ok t =>
      rw [htemplate] at hwrote
      obtain ⟨-, rfl⟩ := Account.template_eq_ok_iff.1 htemplate
      obtain ⟨v, hget⟩ := Option.isSome_iff_exists.1 hwrote
      have hmem := SortedMap.mem_of_get?_ofList hget
      rw [writes_definition] at hmem
      obtain ⟨literal, hliteral, heq⟩ := List.mem_map.1 hmem
      obtain ⟨rfl, -⟩ := Prod.mk.inj heq
      exact ⟨_, mem_patterns_of_mem_literals hliteral, [], resolve?_literal hliteral _⟩
  · obtain ⟨⟨input, inputPath⟩, -, rfl⟩ := List.mem_map.1 hpart
    rw [wrote?, standalone_eq (exec_convert input inputPath entry.id .empty w)] at hwrote
    cases htemplate : (input.account w.files inputPath entry.id).template with
    | error e =>
      rw [htemplate] at hwrote
      cases hwrote
    | ok t =>
      rw [htemplate] at hwrote
      obtain ⟨hfailure, rfl⟩ := Account.template_eq_ok_iff.1 htemplate
      obtain ⟨v, hget⟩ := Option.isSome_iff_exists.1 hwrote
      obtain ⟨store, -, a, ha, hresolve⟩ :=
        exists_address hfailure (SortedMap.mem_of_get?_ofList hget)
      obtain ⟨ids, hids⟩ := exists_eq_cons ha
      obtain ⟨family, hfamily, haddress⟩ := List.mem_flatMap.1 ha
      obtain ⟨hpattern, hfamilyIds⟩ := Family.mem_addresses.1 haddress
      rw [hids] at hresolve
      exact ⟨a.1, List.mem_flatMap.2 ⟨_, mem_targets_of_mem_families hfamily hfamilyIds, hpattern⟩,
        ids, hresolve⟩

theorem endsPlain_target {part : Part} {pattern : String} (h : pattern ∈ part.targets) :
    VariadicPath.endsPlain pattern.toList = true := by
  refine endsPlain_of_mem ?_
  simp only [List.mem_append, otherTargets]
  cases part with
  | definition => exact .inr (.inl (.inl h))
  | input kind =>
    cases kind with
    | notebook => exact .inl h
    | deployment => exact .inr (.inl (.inr h))
    | vendor => exact .inr (.inr h)

/-- The targets of all parts but the notebook. -/
theorem mem_of_ne_notebook {part : Part} (hpart : part ≠ .input .notebook) {pattern : String}
    (h : pattern ∈ part.targets) : pattern ∈ otherTargets ++ targetsOf .vendor := by
  simp only [List.mem_append, otherTargets]
  cases part with
  | definition => exact .inl (.inl h)
  | input kind =>
    cases kind with
    | notebook => exact absurd rfl hpart
    | deployment => exact .inl (.inr h)
    | vendor => exact .inr h

theorem eq_vendor {part : Part} (hpart : part ≠ .input .notebook) {pattern : String}
    (h : pattern ∈ part.targets) (hother : pattern ∉ otherTargets) : part = .input .vendor := by
  rw [otherTargets, List.mem_append, not_or] at hother
  cases part with
  | definition => exact absurd h hother.1
  | input kind =>
    cases kind with
    | notebook => exact absurd rfl hpart
    | deployment => exact absurd h hother.2
    | vendor => rfl

/-! ### Quantities and units -/

/-- The path of the flight path of an entry. -/
def flightPathOf (number : Nat) : String :=
  rootText number ++ "measurement/instrument/analysis_chamber/flight_path"

theorem eq_flightPathOf {number : UInt32} {ids : List UInt32} {path : String}
    (h : resolve? flightPath (number :: ids) = some path) : path = flightPathOf number.toNat := by
  have hlist : flightPath.toList = "/ENTRY[entry".toList ++ VariadicPath.marker ::
      "]/measurement/instrument/analysis_chamber/flight_path".toList := by
    decide
  rw [(path_eq_written h).1, written, hlist, VariadicPath.substitute_append (by decide),
    List.map_cons, VariadicPath.substitute_marker,
    VariadicPath.substitute_of_notMem (by decide)]
  refine String.toList_inj.1 ?_
  simp [flightPathOf, rootText]

/-- The path of the unit of a quantity. -/
def unitPath (path : String) : String := path ++ "/@units"

theorem cut_unitPath (path : String) : cut (unitPath path).toList = (path.toList, unitName) := by
  have hlist : (unitPath path).toList = path.toList ++ '/' :: unitName := by
    rw [unitPath, String.toList_append]
    rfl
  rw [hlist]
  exact VariadicPath.cut_append path.toList (by decide)

/-- A target that resolves to the unit of a quantity is one of the
notebook, and resolves to the quantity without its last name. -/
theorem of_resolve?_unitPath {part : Part} {pattern path : String} {ids : List UInt32}
    (hpattern : pattern ∈ part.targets) (h : resolve? pattern ids = some (unitPath path)) :
    part = .input .notebook ∧ (cut pattern.toList).2 = unitName ∧
      VariadicPath.fill ' ' (cut pattern.toList).1 ids = some path.toList := by
  obtain ⟨hquantity, hname⟩ :=
    VariadicPath.fill_cut (endsPlain_target hpattern) (VariadicPath.fill_of_resolve? h)
  rw [cut_unitPath] at hquantity hname
  refine ⟨?_, hname.symm, hquantity⟩
  by_contra hpart
  exact name_ne_unitName (mem_of_ne_notebook hpart hpattern) hname.symm

/-! ### A flight path with the unit of another one -/

/-- The files of an entry whose notebook and whose vendor both know the
flight path, the notebook in metres. -/
def bothFlightPaths : World := .ofFiles ⟨[], [
  (["eln_data.yaml"],
    .file "instrument:\n  nominal_flight_path:\n    value: 1\n    unit: m\n".toUTF8),
  (["a.cameca"], .file "fMaximumFlightPathMm: 382\n".toUTF8)]⟩

/-- The entry of these files. -/
def doubleEntry : Entry := ⟨1, some "eln_data.yaml", none, some "a.cameca"⟩

/-- The notebook writes the flight path with its unit. -/
theorem standalone_notebook :
    ∃ t, standalone bothFlightPaths (Input.notebook.convert "eln_data.yaml" 1) = .ok t ∧
      t.contains (flightPathOf 1) = true ∧ t.contains (unitPath (flightPathOf 1)) = true := by
  have haccepted : Store.isAccepted Input.notebook.endings "eln_data.yaml" = true := by
    rw [Store.isAccepted_name (by decide) (by decide)]
    decide
  have hread : (bothFlightPaths.files.read "eln_data.yaml" >>= Storage.decode).toOption =
      some "instrument:\n  nominal_flight_path:\n    value: 1\n    unit: m\n" := by
    decide
  obtain ⟨t, hok, hpaths⟩ := exists_standalone 1 haccepted hread
    (P := fun t => t.contains (flightPathOf 1) && t.contains (unitPath (flightPathOf 1)))
    (by decide +kernel)
  rw [Bool.and_eq_true] at hpaths
  exact ⟨t, hok, hpaths⟩

/-- The vendor writes the flight path, and no unit. -/
theorem standalone_vendor :
    ∃ t, standalone bothFlightPaths (Input.vendor.convert "a.cameca" 1) = .ok t ∧
      t.contains (flightPathOf 1) = true ∧ t.get? (unitPath (flightPathOf 1)) = none := by
  have haccepted : Store.isAccepted Input.vendor.endings "a.cameca" = true := by
    rw [Store.isAccepted_name (by decide) (by decide)]
    decide
  have hread : (bothFlightPaths.files.read "a.cameca" >>= Storage.decode).toOption =
      some "fMaximumFlightPathMm: 382\n" := by
    decide
  obtain ⟨t, hok, hpaths⟩ := exists_standalone 1 haccepted hread
    (P := fun t => t.contains (flightPathOf 1) && (t.get? (unitPath (flightPathOf 1))).isNone)
    (by decide +kernel)
  rw [Bool.and_eq_true, Option.isNone_iff_eq_none] at hpaths
  exact ⟨t, hok, hpaths⟩

/-- The template of the entry holds the flight path of the vendor, with
the unit of the notebook. -/
theorem exists_result_bothFlightPaths :
    ∃ t, doubleEntry.result bothFlightPaths = .ok t ∧ t.contains (flightPathOf 1) = true ∧
      t.contains (unitPath (flightPathOf 1)) = true ∧
      doubleEntry.lastWriter bothFlightPaths (flightPathOf 1) = some (.input .vendor) ∧
      doubleEntry.lastWriter bothFlightPaths (unitPath (flightPathOf 1)) =
        some (.input .notebook) := by
  obtain ⟨definition, hdefinition⟩ := exists_definition bothFlightPaths 1
  obtain ⟨notebook, hnotebook, hpath, hunit⟩ := standalone_notebook
  obtain ⟨vendor, hvendor, hpath', hunit'⟩ := standalone_vendor
  have hparts : doubleEntry.parts.map (standalone bothFlightPaths) =
      [definition, notebook, vendor].map .ok := by
    change [standalone bothFlightPaths (runAll (definitionSteps 1)),
      standalone bothFlightPaths (Input.notebook.convert "eln_data.yaml" 1),
      standalone bothFlightPaths (Input.vendor.convert "a.cameca" 1)] = _
    rw [hdefinition, hnotebook, hvendor]
    rfl
  have hreverse : doubleEntry.namedParts.reverse =
      [(.input .vendor, Input.vendor.convert "a.cameca" 1),
        (.input .notebook, Input.notebook.convert "eln_data.yaml" 1),
        (.definition, runAll (definitionSteps 1))] := rfl
  have hquantity :
      doubleEntry.lastWriter bothFlightPaths (flightPathOf 1) = some (.input .vendor) := by
    rw [lastWriter, hreverse, List.find?_cons_of_pos]
    · rfl
    · rw [wrote?, hvendor]
      exact hpath'
  -- the vendor is asked first, and writes no unit
  have hlabel :
      doubleEntry.lastWriter bothFlightPaths (unitPath (flightPathOf 1)) =
        some (.input .notebook) := by
    rw [lastWriter, hreverse, List.find?_cons_of_neg, List.find?_cons_of_pos]
    · rfl
    · rw [wrote?, hnotebook]
      exact hunit
    · rw [wrote?, hvendor]
      simp only [hunit']
      decide
  obtain ⟨t, hok, hget⟩ := exists_result hparts
  have hcontains (path : String) (h : notebook.contains path = true) : t.contains path = true := by
    rw [SortedMap.contains] at h ⊢
    rw [hget]
    simp only [List.reverse_cons, List.reverse_nil, List.nil_append, List.cons_append,
      List.findSome?_cons]
    cases vendor.get? path with
    | some v => rfl
    | none =>
      obtain ⟨v, hv⟩ := Option.isSome_iff_exists.1 h
      rw [hv]
      rfl
  exact ⟨t, hok, hcontains _ hpath, hcontains _ hunit, hquantity, hlabel⟩

/-! ### Where quantities and units come from -/

/-- Where a template holds a quantity and a unit, the unit was written
last by the notebook. So was the quantity, unless it is the flight path
and the vendor wrote it. The vendor did so exactly if there is its input
and the path is written when that is converted on its own. What the
template holds under a path is what the part that wrote it last does on
its own. -/
theorem units_of_template (entry : Entry) (w : World) {t : Template}
    (hok : entry.result w = .ok t) :
    (∀ path, t.contains path = true →
      ∃ part ∈ entry.namedParts, entry.lastWriter w path = some part.1 ∧
        wrote? w path part.2 = t.get? path) ∧
    ∀ path, t.contains path = true → t.contains (unitPath path) = true →
      entry.lastWriter w (unitPath path) = some (.input .notebook) ∧
      (entry.lastWriter w path = some (.input .notebook) ∨
        path = flightPathOf (max entry.id.toNat 1) ∧
          entry.lastWriter w path = some (.input .vendor)) ∧
      (entry.lastWriter w path = some (.input .vendor) ↔
        ∃ vendorPath, entry.vendor = some vendorPath ∧
          (wrote? w path (Input.vendor.convert vendorPath entry.id)).isSome = true) := by
  refine ⟨fun path hpath => get?_lastWriter hok hpath, fun path hpath hunit => ?_⟩
  obtain ⟨part, hpart, hlast, hwrote⟩ := get?_lastWriter hok hunit
  obtain ⟨unit, hunitTarget, ids, hresolve⟩ := exists_target hpart (by rwa [hwrote])
  obtain ⟨hnotebook, hname, hquantity⟩ := of_resolve?_unitPath hunitTarget hresolve
  refine ⟨hnotebook ▸ hlast, ?_, entry.lastWriter_eq_vendor_iff w path⟩
  -- the quantity has a last writer of its own
  obtain ⟨part', hpart', hlast', hwrote'⟩ := get?_lastWriter hok hpath
  by_cases hpartNotebook : part'.1 = .input .notebook
  · exact .inl (hpartNotebook ▸ hlast')
  · right
    obtain ⟨pattern, hpattern, ids', hresolve'⟩ := exists_target hpart' (by rwa [hwrote'])
    rw [hnotebook] at hunitTarget
    have hmem := mem_of_ne_notebook hpartNotebook hpattern
    obtain ⟨hother, rfl⟩ := eq_flightPath_of_fill hunitTarget hname hmem hquantity
      (VariadicPath.fill_of_resolve? hresolve')
    rw [← toNat_entryNumber]
    exact ⟨eq_flightPathOf hresolve', eq_vendor hpartNotebook hpattern hother ▸ hlast'⟩

/-- A quantity and its unit need not come from the same part: of an entry
whose notebook and whose vendor both know the flight path, the template
holds that of the vendor, with the unit of the notebook. -/
theorem exists_mixed :
    ∃ t, doubleEntry.result bothFlightPaths = .ok t ∧ t.contains (flightPathOf 1) = true ∧
      t.contains (unitPath (flightPathOf 1)) = true ∧
      doubleEntry.lastWriter bothFlightPaths (flightPathOf 1) ≠
        doubleEntry.lastWriter bothFlightPaths (unitPath (flightPathOf 1)) := by
  obtain ⟨t, hok, hpath, hunit, hquantity, hlabel⟩ := exists_result_bothFlightPaths
  refine ⟨t, hok, hpath, hunit, ?_⟩
  rw [hquantity, hlabel]
  decide

/-- Of a flight path that both the notebook and the vendor know, the unit
is that of the notebook and the quantity that of the vendor. -/
theorem units_of_template_bothFlightPaths :
    ∃ t, doubleEntry.result bothFlightPaths = .ok t ∧
      t.contains (flightPathOf 1) = true ∧ t.contains (unitPath (flightPathOf 1)) = true ∧
      doubleEntry.lastWriter bothFlightPaths (unitPath (flightPathOf 1)) =
        some (.input .notebook) ∧
      doubleEntry.lastWriter bothFlightPaths (flightPathOf 1) = some (.input .vendor) := by
  obtain ⟨t, hok, hpath, hunit, -, -⟩ := exists_result_bothFlightPaths
  obtain ⟨hlabel, -, hvendor⟩ := (units_of_template _ _ hok).2 _ hpath hunit
  refine ⟨t, hok, hpath, hunit, hlabel, hvendor.2 ⟨"a.cameca", rfl, ?_⟩⟩
  obtain ⟨vendor, hconvert, hwritten, -⟩ := standalone_vendor
  have hwrote : wrote? bothFlightPaths (flightPathOf 1) (Input.vendor.convert "a.cameca" 1) =
      vendor.get? (flightPathOf 1) := by
    rw [wrote?, hconvert]
  exact hwrote ▸ hwritten

end AtomProbe.Entry
