import AtomProbe.Proofs.Source.Insertion
import AtomProbe.Proofs.Vocabulary.Units

/-!
# `AtomProbe.Proofs.Source.Units`: the units of a notebook

In a notebook a quantity has a value, and beside it a unit. The number is
written under the target of the quantity, and the unit below it.

* `units_of_run`: where a number is written and the notebook gives a unit
  beside it, the template holds this unit. The quantities in
  `Vocabulary.unlabelled` are left out.
* `exists_mislabelled`: the error of the grain diameter, which is one of
  them, is given the unit of the grain diameter, although the notebook
  has another one for it.

A conversion overwrites nothing (`nodup_inserts`), so what the rule for
the unit writes is found in the end.
-/

set_option autoImplicit false

namespace AtomProbe.Source

open Vocabulary
open VariadicPath (resolve?)

/-! ### The tables of a notebook -/

theorem userTables_subset (user : Store) : userTables user ⊆ notebookTables := by
  rw [userTables]
  split <;> simp [notebookTables]

/-- A notebook is converted by its tables. -/
theorem mem_notebookTables {directory : String} {store : Store} {id : UInt32} {table : Table}
    {record : Store} {ids : List UInt32}
    (h : .apply table record ids ∈ Input.notebook.steps directory store id) :
    table ∈ notebookTables := by
  have hlasers : laserTables ⊆ notebookTables := by simp [laserTables, notebookTables]
  rcases apply_mem_notebook.1 h with ⟨n, -, htable, -⟩ | ⟨n, -, htable, -⟩ | ⟨-, htable, -⟩
  · exact userTables_subset record htable
  · exact hlasers htable
  · exact List.mem_append_right _ htable

/-! ### The rule for a unit -/

/-- A text is copied as it is. -/
theorem effect_copyFrom {table : Table} {above target source text resolved : String}
    {store : Store} {ids : List UInt32}
    (htext : store.text? (table.sourceKey source) = some text)
    (hresolve : resolve? (above ++ "/" ++ target) ids = some resolved) :
    (Rule.copyFrom target source).effect table above store ids =
      .ok (.write resolved (.text text)) := by
  obtain ⟨value, hget, hvalue⟩ := Option.bind_eq_some_iff.1 htext
  cases value with
  | text s =>
    cases hvalue
    simp only [Rule.effect, Rule.product, Rule.copyFrom, Option.getD_some, hget, Reading.apply,
      TemplateValue.ofMetadata?, hresolve]
    rfl
  | integer n => cases hvalue
  | real x => cases hvalue
  | boolean b => cases hvalue
  | list items => cases hvalue
  | records rows => cases hvalue

/-- The path of a unit lies below that of its quantity. -/
theorem resolve?_unit {above target path : String} {ids : List UInt32}
    (h : resolve? (above ++ "/" ++ target) ids = some path) :
    resolve? (above ++ "/" ++ (target ++ "/@units")) ids = some (path ++ "/@units") := by
  have hmarker : VariadicPath.marker ∉ "/@units".toList := by decide
  have hfill := VariadicPath.fill_append hmarker ' ' (above ++ "/" ++ target).toList ids
  rw [VariadicPath.fill_of_resolve? h, Option.map_some] at hfill
  rw [← String.toList_append, ← String.toList_append, String.append_assoc] at hfill
  rw [VariadicPath.resolve?_of_fill _ hfill, String.ofList_toList]
  intro hempty
  have hlist := congrArg String.toList hempty
  simp at hlist

/-! ### A notebook with two units -/

/-- A notebook with the grain diameter and its error in different
units. -/
def grains : Store :=
  .ofList [("sample/grain_diameter/value", .integer 40), ("sample/grain_diameter/unit", .text "um"),
    ("sample/grain_diameter_error/value", .integer 300),
    ("sample/grain_diameter_error/unit", .text "nm")]

theorem failure_grains :
    (stepsAccount noFiles.files (Input.notebook.steps "" grains 1)).failure = none :=
  failure_of_succeeds (by decide)

theorem exec_grains :
    ∃ w', exec (runAll (Input.notebook.steps "" grains 1)) .empty noFiles =
      ((.ok (), .ofList (stepsAccount noFiles.files (Input.notebook.steps "" grains 1)).writes),
        w') := by
  have hrun := exec_runAll (Input.notebook.steps "" grains 1) .empty noFiles
  rw [Account.perform, Account.result_of_failure_eq_none failure_grains] at hrun
  exact ⟨_, hrun⟩

theorem isShort_grains : (RecordCounts.ofStore grains).IsShort :=
  ⟨by decide, by decide, by decide⟩

theorem mem_steps_grains : .apply sample grains [1] ∈ Input.notebook.steps "" grains 1 := by
  have hsteps : Input.notebook.steps "" grains 1 = Notebook.steps "" grains 1 := rfl
  rw [hsteps, Notebook.steps, List.mem_append, List.mem_append]
  exact .inl (.inr (List.mem_map_of_mem (by simp [entryTables])))

/-! ### Where units are found -/

/-- In a conversion of a notebook that succeeds, a number that is read
from a value has the unit that stands beside it, if that is a text. A
unit that is copied stands beside the value of the quantity. Both hold
but for the quantities of `unlabelled`. -/
theorem units_of_run (directory : String) (store : Store) (id : UInt32)
    (hshort : (RecordCounts.ofStore store).IsShort) {t : Template} {w w' : World}
    (hrun : exec (runAll (Input.notebook.steps directory store id)) .empty w =
      ((.ok (), t), w')) :
    ∀ table record ids, .apply table record ids ∈ Input.notebook.steps directory store id →
      ∀ target, (table.name, target) ∉ unlabelled →
        (∀ q, Rule.numberFrom target (q ++ "/value") ∈ table.rules →
          ∀ above path value, table.targetPath = .ok above →
            (Rule.numberFrom target (q ++ "/value")).effect table above record ids =
              .ok (.write path value) →
            t.get? path = some value ∧
            ∀ unit, record.text? (table.sourceKey (q ++ "/unit")) = some unit →
              t.get? (path ++ "/@units") = some (.text unit)) ∧
        ∀ rule ∈ table.rules, rule.target = target ++ "/@units" →
          ∀ source, rule.action = .read .copy source →
            ∃ q, source = some (q ++ "/unit") ∧
              Rule.numberFrom target (q ++ "/value") ∈ table.rules := by
  intro table record ids hstep target hlabelled
  have htable := mem_notebookTables hstep
  obtain ⟨hfailure, rfl⟩ := failure_of_perform ((exec_runAll _ .empty w).symm.trans hrun)
  refine ⟨fun q hrule above path value habove heffect => ⟨?_, fun unit hunit => ?_⟩,
    fun rule hrule htarget source haction => mem_of_unit htable hrule htarget hlabelled haction⟩
  · exact get?_of_rule hshort hfailure hstep habove hrule heffect .empty
  · -- the rule for the unit stands in the same table, and nothing overwrites what it writes
    have hunitRule := mem_of_numberFrom htable hrule hlabelled
    have hresolve := resolve?_unit (Table.path_of_effect heffect rfl)
    exact get?_of_rule hshort hfailure hstep habove hunitRule (effect_copyFrom hunit hresolve)
      .empty

/-- The error of the grain diameter is given the unit of the grain
diameter, and not the one that stands beside it. -/
theorem exists_mislabelled :
    ∃ t w', exec (runAll (Input.notebook.steps "" grains 1)) .empty noFiles =
        ((.ok (), t), w') ∧
      .apply sample grains [1] ∈ Input.notebook.steps "" grains 1 ∧
      Rule.numberFrom "grain_diameter_error" "grain_diameter_error/value" ∈ sample.rules ∧
      (Rule.numberFrom "grain_diameter_error" "grain_diameter_error/value").effect sample
          "/ENTRY[entry*]/sample" grains [1] =
        .ok (.write "/ENTRY[entry1]/sample/grain_diameter_error" (.integer 300)) ∧
      grains.text? (sample.sourceKey "grain_diameter_error/unit") = some "nm" ∧
      t.get? "/ENTRY[entry1]/sample/grain_diameter_error/@units" = some (.text "um") := by
  obtain ⟨w', hrun⟩ := exec_grains
  have hunit : grains.text? (sample.sourceKey "grain_diameter/unit") = some "um" := by
    decide
  have hresolve : resolve? ("/ENTRY[entry*]/sample" ++ "/" ++ "grain_diameter_error/@units") [1] =
      some "/ENTRY[entry1]/sample/grain_diameter_error/@units" := by
    decide
  exact ⟨_, w', hrun, mem_steps_grains, by decide, by rfl, by decide,
    get?_of_rule isShort_grains failure_grains mem_steps_grains rfl (by decide)
      (effect_copyFrom hunit hresolve) .empty⟩

/-- The grain diameter itself has its own unit. -/
theorem units_of_run_grains :
    ∃ t w', exec (runAll (Input.notebook.steps "" grains 1)) .empty noFiles =
        ((.ok (), t), w') ∧
      t.get? "/ENTRY[entry1]/sample/grain_diameter" = some (.integer 40) ∧
      t.get? ("/ENTRY[entry1]/sample/grain_diameter" ++ "/@units") = some (.text "um") := by
  obtain ⟨w', hrun⟩ := exec_grains
  have hrule : Rule.numberFrom "grain_diameter" ("grain_diameter" ++ "/value") ∈ sample.rules := by
    decide
  obtain ⟨hvalue, hunit⟩ :=
    (units_of_run "" grains 1 isShort_grains hrun sample grains [1] mem_steps_grains
      "grain_diameter" (by decide)).1 "grain_diameter" hrule "/ENTRY[entry*]/sample"
        "/ENTRY[entry1]/sample/grain_diameter" (.integer 40) rfl rfl
  exact ⟨_, w', hrun, hvalue, hunit "um" (by decide)⟩

end AtomProbe.Source
