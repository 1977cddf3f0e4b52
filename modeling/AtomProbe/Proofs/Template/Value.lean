import AtomProbe.Template

/-!
# `AtomProbe.Proofs.Template.Value`: which values can be handed on

A template holds scalars and arrays of scalars. Records, and lists with
lists or records among their items, have no place in it
(`Metadata.IsStructured`). A list of numbers is an array of integers if
each of them is one, and else of real numbers.

* `ofItems?_texts`, `ofItems?_numbers`: lists of scalars.
* `ofNumbers_integers`, `ofNumbers_of_real`: the kind of an array.
* `ofMetadata?_eq_none_iff`: the values that cannot be copied.
-/

set_option autoImplicit false

namespace AtomProbe

namespace TemplateValue

/-! ### Lists of scalars -/

/-- Texts are no numbers, so they are taken as they are shown. -/
theorem ofItems?_texts (items : List String) :
    ofItems? (items.map .text) = some (.texts items) := by
  cases items with
  | nil => rfl
  | cons s items =>
    have hnested : ((s :: items).map Metadata.text).any isNested = false := by
      simp [isNested]
    have hnumbers : ((s :: items).map Metadata.text).mapM itemNumber? = none := by
      simp [itemNumber?]
    have hdisplay : ((s :: items).map Metadata.text).map Metadata.display = s :: items := by
      simp [Function.comp_def, Metadata.display]
    rw [ofItems?, hnested, hnumbers, hdisplay]
    rfl

/-- Numbers are taken as numbers. -/
theorem ofItems?_numbers {α : Type} {f : α → Metadata.Number} {g : α → Metadata}
    (hg : ∀ a, isNested (g a) = false ∧ itemNumber? (g a) = some (f a)) {items : List α}
    (hne : items ≠ []) : ofItems? (items.map g) = some (ofNumbers (items.map f)) := by
  have hnested : (items.map g).any isNested = false := by
    simp [hg]
  have hempty : (items.map g).isEmpty = false := by
    simpa using hne
  have hnumbers : (items.map g).mapM itemNumber? = some (items.map f) := by
    have hcomp : itemNumber? ∘ g = fun a => pure (f a) := funext fun a => (hg a).2
    rw [List.mapM_map, hcomp, List.mapM_pure]
    rfl
  rw [ofItems?, hnested, hempty, hnumbers]
  rfl

theorem integers_or_real (numbers : List Metadata.Number) :
    (∃ items : List Int64, numbers = items.map .integer) ∨ ∃ x, .real x ∈ numbers := by
  induction numbers with
  | nil => exact .inl ⟨[], rfl⟩
  | cons n numbers ih =>
    cases n with
    | integer n =>
      refine ih.imp ?_ ?_
      · rintro ⟨items, rfl⟩
        exact ⟨n :: items, rfl⟩
      · exact fun ⟨x, hx⟩ => ⟨x, List.mem_cons_of_mem _ hx⟩
    | real x => exact .inr ⟨x, List.mem_cons_self⟩

theorem ofNumbers_integers (items : List Int64) :
    ofNumbers (items.map .integer) = .integers items := by
  have hitems : (items.map Metadata.Number.integer).mapM Metadata.Number.integer? = some items := by
    induction items with
    | nil => rfl
    | cons n items ih =>
      rw [List.map_cons, List.mapM_cons, ih]
      rfl
  rw [ofNumbers, hitems]

theorem ofNumbers_of_real {numbers : List Metadata.Number} {x : Float} (h : .real x ∈ numbers) :
    ofNumbers numbers = .reals (numbers.map (·.toReal)) := by
  have hnone : numbers.mapM Metadata.Number.integer? = none := by
    induction numbers with
    | nil => cases h
    | cons n numbers ih =>
      rw [List.mapM_cons]
      rcases List.mem_cons.1 h with rfl | h
      · rfl
      · rw [ih h]
        cases n <;> rfl
  rw [ofNumbers, hnone]

theorem ofNumbers_reals {items : List Float} (hne : items ≠ []) :
    ofNumbers (items.map .real) = .reals items := by
  cases items with
  | nil => exact absurd rfl hne
  | cons x items =>
    have hreal : ((x :: items).map Metadata.Number.real).map Metadata.Number.toReal =
        x :: items := by
      simp [Function.comp_def, Metadata.Number.toReal]
    have hmem : .real x ∈ (x :: items).map Metadata.Number.real := List.mem_cons_self
    rw [ofNumbers_of_real hmem, hreal]

end TemplateValue

/-! ### Structured values -/

/-- Records, or a list with a list or records among its items. -/
inductive Metadata.IsStructured : Metadata → Prop
  | records (rows : List (List (String × Metadata))) : IsStructured (.records rows)
  | nested {items inner : List Metadata} (h : .list inner ∈ items) : IsStructured (.list items)
  | rows {items : List Metadata} {rows : List (List (String × Metadata))}
      (h : .records rows ∈ items) : IsStructured (.list items)

namespace TemplateValue

theorem any_isNested_iff {items : List Metadata} :
    items.any isNested = true ↔ (Metadata.list items).IsStructured := by
  rw [List.any_eq_true]
  constructor
  · rintro ⟨item, hitem, hnested⟩
    cases item with
    | list inner => exact .nested hitem
    | records rows => exact .rows hitem
    | text _ | integer _ | real _ | boolean _ => cases hnested
  · exact fun
      | .nested h => ⟨_, h, rfl⟩
      | .rows h => ⟨_, h, rfl⟩

/-- Structured values are those that cannot be copied. -/
theorem ofMetadata?_eq_none_iff {value : Metadata} :
    ofMetadata? value = none ↔ value.IsStructured := by
  cases value with
  | text _ | integer _ | real _ | boolean _ => exact ⟨nofun, nofun⟩
  | records rows => exact ⟨fun _ => .records rows, fun _ => rfl⟩
  | list items =>
    rw [ofMetadata?, ofItems?, ← any_isNested_iff]
    cases items.any isNested with
    | true => simp
    | false =>
      simp only [Bool.false_eq_true, if_false, iff_false]
      split
      · nofun
      · split <;> nofun

end TemplateValue

end AtomProbe
