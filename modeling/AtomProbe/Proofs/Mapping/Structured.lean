import AtomProbe.Proofs.Mapping.Outcome
import AtomProbe.Vocabulary.Vendor

/-!
# `AtomProbe.Proofs.Mapping.Structured`: rules that find structured values

Structured values have no place in a template. A rule that finds one
among its sources is refused, however it reads it, and then nothing is
written for the rule. The exception is a rule that joins texts, since
every value can be shown.

* `Action.exists_refuses`: a structured value is refused.
* `Table.refused_of_structured`: the table ends with an error.
* `Table.exists_placeholder`: where texts are joined, a description of
  the value is written.
-/

set_option autoImplicit false

namespace AtomProbe

/-! ### What is refused -/

namespace Metadata

variable {value : Metadata}

theorem toNumber_of_isStructured (h : value.IsStructured) :
    value.toNumber = .error (.notANumber value.display) := by
  cases h <;> rfl

theorem toUnsigned_of_isStructured (h : value.IsStructured) :
    value.toUnsigned = .error (.notAnUnsigned value.display) := by
  rw [toUnsigned, toNumber_of_isStructured h]

theorem toBoolean_of_isStructured (h : value.IsStructured) :
    value.toBoolean = .error (.notABoolean value.display) := by
  cases h <;> rfl

theorem toTimestamp_of_isStructured (h : value.IsStructured) :
    value.toTimestamp = .error (.notATimestamp value.display) := by
  cases h <;> rfl

end Metadata

namespace Action

/-- A structured value is refused, however it is read. -/
theorem exists_refuses {action : Action} (huse : ∀ literal, action ≠ .use literal)
    (hjoined : ∀ sources, action ≠ .combine .joined sources) (key : String) {value : Metadata}
    (h : value.IsStructured) : ∃ e, action.Refuses key value e := by
  cases action with
  | use literal => exact absurd rfl (huse literal)
  | read reading source =>
    cases reading with
    | copy => exact ⟨_, .copied (TemplateValue.ofMetadata?_eq_none_iff.2 h)⟩
    | boolean => exact ⟨_, .truth (Metadata.toBoolean_of_isStructured h)⟩
    | number => exact ⟨_, .number (Metadata.toNumber_of_isStructured h)⟩
    | unsigned => exact ⟨_, .unsigned (Metadata.toUnsigned_of_isStructured h)⟩
    | scaled factor => exact ⟨_, .scaled (Metadata.toNumber_of_isStructured h)⟩
    | timestamp => exact ⟨_, .seconds (Metadata.toTimestamp_of_isStructured h)⟩
  | combine combination sources =>
    cases combination with
    | reals => exact ⟨_, .reals (Metadata.toNumber_of_isStructured h)⟩
    | numbers => exact ⟨_, .numbers (Metadata.toNumber_of_isStructured h)⟩
    | joined => exact absurd rfl (hjoined sources)

/-- Where a source is refused, there is a first one. -/
theorem exists_fails {action : Action} {found : List (String × Metadata)}
    (h : ∃ p ∈ found, ∃ e, action.Refuses p.1 p.2 e) : ∃ e, action.Fails found e := by
  induction found with
  | nil =>
    obtain ⟨p, hp, -⟩ := h
    cases hp
  | cons p found ih =>
    -- the first source is refused, or the first of the others that is
    by_cases hfirst : ∃ e, action.Refuses p.1 p.2 e
    · obtain ⟨e, he⟩ := hfirst
      exact ⟨e, [], p.1, p.2, found, rfl, nofun, he⟩
    · obtain ⟨q, hq, hrefused⟩ := h
      rcases List.mem_cons.1 hq with rfl | hq
      · exact absurd hrefused hfirst
      obtain ⟨e, before, key, value, after, rfl, hbefore, he⟩ := ih ⟨q, hq, hrefused⟩
      refine ⟨e, p :: before, key, value, after, rfl, ?_, he⟩
      refine List.forall_mem_cons.2 ⟨fun e' he' => hfirst ⟨e', he'⟩, hbefore⟩

/-- Which error a failure is. -/
theorem Fails.error {action : Action} {found : List (String × Metadata)} {e : MappingError}
    (h : action.Fails found e) : ∃ p ∈ found,
      ((∃ source, action = .read .copy source) ∧ e = .unsupportedValue p.1) ∨
      ((∀ source, action ≠ .read .copy source) ∧ ∃ cause, e = .conversion p.1 cause) := by
  obtain ⟨before, key, value, after, rfl, -, he⟩ := h
  refine ⟨(key, value), by simp, ?_⟩
  cases he with
  | copied => exact .inl ⟨⟨_, rfl⟩, rfl⟩
  | _ => exact .inr ⟨nofun, _, rfl⟩

end Action

/-! ### What becomes of the table -/

namespace Table

/-- A rule that does not join texts and that finds a structured value
ends the table, unless a rule before it does. The template is as the
rules before it left it. -/
theorem refused_of_structured {table : Table} {path : String}
    (htarget : table.targetPath = .ok path) {before : List Rule} {rule : Rule} {after : List Rule}
    (hrules : table.rules = before ++ rule :: after)
    (hjoined : ∀ sources, rule.action ≠ .combine .joined sources) {store : Store}
    {found : List (String × Metadata)} (hfound : rule.Finds table store found)
    {p : String × Metadata} (hp : p ∈ found) (hvalue : p.2.IsStructured) (ids : List UInt32)
    (t : Template) :
    ∃ t' e, table.apply store ids t = (t', .error e) ∧
      (table.Runs path store ids before t t' (.error e) ∨
        (∃ outcomes, table.Runs path store ids before t t' (.ok outcomes)) ∧
          ∃ q ∈ found,
            ((∃ source, rule.action = .read .copy source) ∧ e = .unsupportedValue q.1) ∨
            ((∀ source, rule.action ≠ .read .copy source) ∧
              ∃ cause, e = .conversion q.1 cause)) := by
  -- a literal has no sources
  have huse : ∀ literal, rule.action ≠ .use literal := by
    intro literal haction
    have hkeys := hfound.keys
    rw [Rule.keys, Rule.sources, haction, List.map_nil, List.map_eq_nil_iff] at hkeys
    rw [hkeys] at hp
    cases hp
  obtain ⟨e, hfails⟩ := Action.exists_fails ⟨p, hp, Action.exists_refuses huse hjoined p.1 hvalue⟩
  rw [apply_eq_writeTo htarget, hrules]
  cases hbefore : (Progress.ofList (Rule.effect table path store ids) before).writeTo t with
  | mk t' answer =>
    have hruns := runs_iff.2 hbefore
    cases answer with
    | error e' => exact ⟨t', e', runs_iff.1 (hruns.append_of_error rfl _), .inl hruns⟩
    | ok outcomes =>
      refine ⟨t', e, ?_, .inr ⟨⟨outcomes, hruns⟩, hfails.error⟩⟩
      exact runs_iff.1 (hruns.append rfl (.failed (.refused hfound hfails)))

/-- The efficiency is a list of records. -/
def crowded : Store :=
  .ofList [("fEfficiency", .list [.records [[("value", .integer 37)]]]),
    ("fQuality", .text "good")]

theorem refused_of_structured_efficiency :
    let vendor := Vocabulary.vendor
    let rule := Rule.numberFrom "reconstruction/efficiency" "fEfficiency"
    let value := Metadata.list [.records [[("value", .integer 37)]]]
    vendor.targetPath = .ok "/ENTRY[entry*]" ∧
      vendor.rules = vendor.rules.take 13 ++ rule :: vendor.rules.drop 14 ∧
      rule.Finds vendor crowded [("fEfficiency", value)] ∧ value.IsStructured ∧
      ∃ t' e, vendor.apply crowded [1] .empty = (t', .error e) ∧
        (vendor.Runs "/ENTRY[entry*]" crowded [1] (vendor.rules.take 13) .empty t' (.error e) ∨
          (∃ outcomes, vendor.Runs "/ENTRY[entry*]" crowded [1] (vendor.rules.take 13) .empty t'
            (.ok outcomes)) ∧
          ∃ q ∈ [("fEfficiency", value)],
            ((∃ source, rule.action = .read .copy source) ∧ e = .unsupportedValue q.1) ∨
            ((∀ source, rule.action ≠ .read .copy source) ∧
              ∃ cause, e = .conversion q.1 cause)) := by
  intro vendor rule value
  have htarget : vendor.targetPath = .ok "/ENTRY[entry*]" := rfl
  have hrules : vendor.rules = vendor.rules.take 13 ++ rule :: vendor.rules.drop 14 := rfl
  have hfound : rule.Finds vendor crowded [("fEfficiency", value)] :=
    ⟨rfl, fun p hp => by rw [List.mem_singleton.1 hp]; rfl⟩
  have hvalue : value.IsStructured := .rows List.mem_cons_self
  exact ⟨htarget, hrules, hfound, hvalue,
    refused_of_structured htarget hrules nofun hfound List.mem_cons_self hvalue [1] .empty⟩

/-- Where texts are joined, a structured value is no reason to fail, and
a description of it is written. -/
theorem exists_placeholder : ∃ (store : Store) (rows : List (List (String × Metadata))),
    Rule.join "experiment_description" ["fProjectName", "fName", "fComments"] ∈
        Vocabulary.vendor.rules ∧
      Rule.Finds Vocabulary.vendor store
        (.join "experiment_description" ["fProjectName", "fName", "fComments"])
        [("fProjectName", .records rows), ("fName", .text "tip 3"), ("fComments", .text "cold")] ∧
      (Vocabulary.vendor.apply store [1] .empty).1.toList =
        [("/ENTRY[entry1]/experiment_description", .text "<1 records> tip 3 cold")] ∧
      (Vocabulary.vendor.apply store [1] .empty).2.isOk = true := by
  let rows : List (List (String × Metadata)) := [[("name", .text "alloys")]]
  let store : Store :=
    .ofList [("fProjectName", .records rows), ("fName", .text "tip 3"), ("fComments", .text "cold")]
  refine ⟨store, rows, by decide, ⟨rfl, ?_⟩, by decide, by decide⟩
  simp [store, SortedMap.ofList, SortedMap.get?_insert]

end Table

end AtomProbe
