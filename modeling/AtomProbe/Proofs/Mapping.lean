import AtomProbe.Mapping

/-!
# `AtomProbe.Proofs.Mapping`: what a table writes, and where

A table writes at most one value for each of its rules, in their order,
and the path of the value is the target of the rule, resolved.

* `writes_sublist`: the paths that are written are among the resolved
  targets, in order and each at most as often.
* `countP_outcomes`: as many values are written as outcomes say so.
* `failure_effects`: what makes a table fail, without its targets.
* `mem_writes`, `exists_rule_of_mem_writes`: a table that does not fail
  writes what each rule does, and nothing else.
-/

set_option autoImplicit false

namespace AtomProbe

/-! ### Up to the first failure -/

namespace Progress

variable {α β ε : Type}

/-- Either all is done, or all that comes before the first failure. -/
theorem ofList_cases (f : α → Except ε β) (xs : List α) :
    (∃ ys : List β, xs.map f = ys.map .ok ∧ ofList f xs = ⟨ys, none⟩) ∨
      ∃ (before : List α) (x : α) (after : List α) (ys : List β) (e : ε),
        xs = before ++ x :: after ∧ before.map f = ys.map .ok ∧ f x = .error e ∧
          ofList f xs = ⟨ys, some e⟩ := by
  induction xs with
  | nil => exact .inl ⟨[], rfl, rfl⟩
  | cons x xs ih =>
    cases hx : f x with
    | error e => exact .inr ⟨[], x, xs, [], e, rfl, rfl, hx, by rw [ofList, hx]⟩
    | ok y =>
      -- the first thing is done, and stands before what becomes of the others
      rcases ih with ⟨ys, hys, hlist⟩ | ⟨before, x', after, ys, e, rfl, hys, he, hlist⟩
      · left
        refine ⟨y :: ys, ?_, ?_⟩
        · rw [List.map_cons, List.map_cons, hx, hys]
        · simp only [ofList, hx, hlist]
      · right
        refine ⟨x :: before, x', after, y :: ys, e, rfl, ?_, he, ?_⟩
        · rw [List.map_cons, List.map_cons, hx, hys]
        · simp only [ofList, hx, hlist]

theorem ofList_congr {f g : α → Except ε β} {xs : List α} (h : ∀ x ∈ xs, f x = g x) :
    ofList f xs = ofList g xs := by
  induction xs with
  | nil => rfl
  | cons x xs ih =>
    have hxs := ih fun y hy => h y (List.mem_cons_of_mem x hy)
    rw [ofList, ofList, h x List.mem_cons_self, hxs]

/-- What is done is done for one of the things. -/
theorem exists_of_mem_done {f : α → Except ε β} {xs : List α} {y : β}
    (h : y ∈ (ofList f xs).done) : ∃ x ∈ xs, f x = .ok y := by
  induction xs with
  | nil => cases h
  | cons x xs ih =>
    rw [ofList] at h
    cases hx : f x with
    | error e =>
      rw [hx] at h
      cases h
    | ok y' =>
      rw [hx] at h
      rcases List.mem_cons.1 h with rfl | h
      · exact ⟨x, List.mem_cons_self, hx⟩
      · obtain ⟨x', hx', hy⟩ := ih h
        exact ⟨x', List.mem_cons_of_mem x hx', hy⟩

end Progress

/-- A rule writes the value that it makes, if its target can be
resolved. -/
theorem Rule.effect_eq_write_iff {table : Table} {above : String} {store : Store}
    {ids : List UInt32} {rule : Rule} {path : String} {value : TemplateValue} :
    rule.effect table above store ids = .ok (.write path value) ↔
      rule.product table store = .ok (.value value) ∧
        VariadicPath.resolve? (above ++ "/" ++ rule.target) ids = some path := by
  rw [Rule.effect]
  cases rule.product table store with
  | error e => simp [bind, Except.bind]
  | ok made =>
    cases made with
    | missing key => simp [bind, Except.bind, pure, Except.pure]
    | value v =>
      simp only [bind, Except.bind]
      cases VariadicPath.resolve? (above ++ "/" ++ rule.target) ids <;>
        simp [pure, Except.pure, and_comm]

namespace Table

/-- The targets of a table before they are resolved. -/
def patterns (table : Table) : List String :=
  match table.targetPath with
  | .ok path => table.rules.map fun rule => path ++ "/" ++ rule.target
  | .error _ => []

theorem mem_patterns {table : Table} {pattern : String} (h : pattern ∈ table.patterns) :
    ∃ path rule, table.targetPath = .ok path ∧ rule ∈ table.rules ∧
      pattern = path ++ "/" ++ rule.target := by
  rw [patterns] at h
  cases htarget : table.targetPath with
  | error e =>
    rw [htarget] at h
    cases h
  | ok path =>
    rw [htarget] at h
    obtain ⟨rule, hrule, rfl⟩ := List.mem_map.1 h
    exact ⟨path, rule, rfl, hrule, rfl⟩

/-- The path under which a rule writes is its target, resolved. -/
theorem path_of_effect {table : Table} {path : String} {store : Store} {ids : List UInt32}
    {rule : Rule} {e : Effect} {p : String × TemplateValue}
    (h : rule.effect table path store ids = .ok e) (hwrite : e.write? = some p) :
    VariadicPath.resolve? (path ++ "/" ++ rule.target) ids = some p.1 := by
  rw [Rule.effect] at h
  -- only a value that is made and whose path resolves is written
  cases hproduct : rule.product table store with
  | error e => rw [hproduct] at h; cases h
  | ok made =>
    rw [hproduct] at h
    cases made with
    | missing key =>
      cases h
      cases hwrite
    | value v =>
      cases hresolve : VariadicPath.resolve? (path ++ "/" ++ rule.target) ids with
      | none =>
        simp only [bind, Except.bind, hresolve] at h
        cases h
        cases hwrite
      | some resolved =>
        simp only [bind, Except.bind, hresolve] at h
        cases h
        cases hwrite
        rfl

/-- The paths of what some rules do are among their resolved targets, in
order. Induction on the rules, up to the first one that fails. -/
theorem paths_ofList_sublist (table : Table) (path : String) (store : Store) (ids : List UInt32)
    (rules : List Rule) :
    (((Progress.ofList (Rule.effect table path store ids) rules).done.filterMap
        Effect.write?).map Prod.fst).Sublist
      ((rules.map fun rule => path ++ "/" ++ rule.target).filterMap
        (VariadicPath.resolve? · ids)) := by
  induction rules with
  | nil => exact .slnil
  | cons rule rules ih =>
    rw [Progress.ofList]
    cases heffect : rule.effect table path store ids with
    | error e => exact List.nil_sublist _
    | ok e =>
      rw [List.map_cons, List.filterMap_cons, List.filterMap_cons]
      -- a rule that writes nothing skips its target, if that resolves at all
      cases hwrite : e.write? with
      | none =>
        refine ih.trans ?_
        cases VariadicPath.resolve? (path ++ "/" ++ rule.target) ids with
        | none => exact .refl _
        | some resolved => exact List.sublist_cons_self _ _
      | some p =>
        rw [path_of_effect heffect hwrite]
        exact ih.cons_cons p.1

/-- The paths that a table writes are among its resolved targets, in
order and each at most as often. -/
theorem writes_sublist (table : Table) (store : Store) (ids : List UInt32) :
    ((table.writes store ids).map Prod.fst).Sublist
      (table.patterns.filterMap (VariadicPath.resolve? · ids)) := by
  rw [writes, effects, patterns]
  cases table.targetPath with
  | error e => exact .slnil
  | ok path => exact paths_ofList_sublist table path store ids table.rules

theorem isWritten_outcome (e : Effect) : e.outcome.isWritten = e.write?.isSome := by
  cases e <;> rfl

/-- As many values are written as outcomes say so. -/
theorem countP_outcomes (effects : List Effect) :
    (effects.map Effect.outcome).countP Outcome.isWritten =
      (effects.filterMap Effect.write?).length := by
  induction effects with
  | nil => rfl
  | cons e es ih =>
    rw [List.map_cons, List.countP_cons, List.filterMap_cons, ih, isWritten_outcome]
    cases e.write? <;> rfl

/-- Whether a table fails depends on its sources alone. -/
theorem failure_effects {table : Table} {path : String} (htarget : table.targetPath = .ok path)
    {store : Store} (h : ∀ rule ∈ table.rules, (rule.product table store).toOption.isSome = true)
    (ids : List UInt32) : (table.effects store ids).failure = none := by
  rw [effects, htarget]
  change (Progress.ofList (Rule.effect table path store ids) table.rules).failure = none
  generalize table.rules = rules at h
  induction rules with
  | nil => rfl
  | cons rule rules ih =>
    have hfirst := h rule List.mem_cons_self
    cases hproduct : rule.product table store with
    | error e =>
      rw [hproduct] at hfirst
      cases hfirst
    | ok made =>
      -- a path that does not resolve is an outcome and no error
      have heffect : ∃ e, rule.effect table path store ids = .ok e := by
        rw [Rule.effect, hproduct]
        cases made with
        | missing key => exact ⟨_, rfl⟩
        | value v =>
          simp only [bind, Except.bind]
          split <;> exact ⟨_, rfl⟩
      obtain ⟨e, heffect⟩ := heffect
      rw [Progress.ofList, heffect]
      exact ih fun rule hrule => h rule (List.mem_cons_of_mem _ hrule)

/-- A table of literals writes all of them, where their targets resolve
to the paths that `resolved` gives. -/
theorem writes_of_literals (table : Table) {path : String} (htarget : table.targetPath = .ok path)
    (literals : List (String × String))
    (hrules : table.rules = literals.map fun p => Rule.use p.1 p.2) {ids : List UInt32}
    (resolved : String → String)
    (hresolve : ∀ p ∈ literals,
      VariadicPath.resolve? (path ++ "/" ++ p.1) ids = some (resolved p.1))
    (store : Store) :
    table.writes store ids = literals.map fun p => (resolved p.1, .text p.2) := by
  rw [writes, effects, htarget, hrules]
  change (Progress.ofList _ _).done.filterMap _ = _
  clear hrules
  induction literals with
  | nil => rfl
  | cons p ps ih =>
    have hp := hresolve p List.mem_cons_self
    have heffect : (Rule.use p.1 p.2).effect table path store ids =
        .ok (.write (resolved p.1) (.text p.2)) := by
      simp only [Rule.effect, Rule.product, Rule.use, Literal.value, bind, Except.bind, hp]
      rfl
    rw [List.map_cons, Progress.ofList, heffect]
    exact congrArg (_ :: ·) (ih fun q hq => hresolve q (List.mem_cons_of_mem _ hq))

/-- What a table writes is written by one of its rules. -/
theorem exists_rule_of_mem_writes {table : Table} {store : Store} {ids : List UInt32}
    {p : String × TemplateValue} (h : p ∈ table.writes store ids) :
    ∃ path, table.targetPath = .ok path ∧ ∃ rule ∈ table.rules,
      rule.effect table path store ids = .ok (.write p.1 p.2) := by
  obtain ⟨e, he, hwrite⟩ := List.mem_filterMap.1 h
  rw [effects] at he
  cases htarget : table.targetPath with
  | error e' =>
    rw [htarget] at he
    cases he
  | ok path =>
    rw [htarget] at he
    obtain ⟨rule, hrule, heffect⟩ := Progress.exists_of_mem_done he
    cases e with
    | write resolved value =>
      cases hwrite
      exact ⟨path, rfl, rule, hrule, heffect⟩
    | missingSource key => cases hwrite
    | unresolvablePath full => cases hwrite

/-- In a table that does not fail, each rule is done. -/
theorem exists_effect {table : Table} {path : String} {store : Store} {ids : List UInt32}
    (hfailure : (table.effects store ids).failure = none)
    (htarget : table.targetPath = .ok path) {rule : Rule} (hrule : rule ∈ table.rules) :
    ∃ e ∈ (table.effects store ids).done, rule.effect table path store ids = .ok e := by
  have hprogress : table.effects store ids =
      .ofList (Rule.effect table path store ids) table.rules := by
    rw [effects, htarget]
  rw [hprogress] at hfailure ⊢
  rcases Progress.ofList_cases (Rule.effect table path store ids) table.rules with
    ⟨done, heffects, hlist⟩ | ⟨before, failed, after, done, e', -, -, -, hlist⟩
  · rw [hlist]
    have hmem : rule.effect table path store ids ∈ done.map .ok := by
      rw [← heffects]
      exact List.mem_map_of_mem hrule
    obtain ⟨e, he, heq⟩ := List.mem_map.1 hmem
    exact ⟨e, he, heq.symm⟩
  · rw [hlist] at hfailure
    cases hfailure

/-- A table that does not fail writes what each of its rules does. -/
theorem mem_writes {table : Table} {path : String} {store : Store} {ids : List UInt32}
    (hfailure : (table.effects store ids).failure = none)
    (htarget : table.targetPath = .ok path) {rule : Rule} (hrule : rule ∈ table.rules)
    {e : Effect} (heffect : rule.effect table path store ids = .ok e)
    {p : String × TemplateValue} (hwrite : e.write? = some p) : p ∈ table.writes store ids := by
  obtain ⟨e', he', heq⟩ := exists_effect hfailure htarget hrule
  rw [heffect, Except.ok.injEq] at heq
  subst heq
  exact List.mem_filterMap.2 ⟨e, he', hwrite⟩

/-- In a table that does not fail, no source of a rule is refused. -/
theorem exists_product {table : Table} {path : String} {store : Store} {ids : List UInt32}
    (hfailure : (table.effects store ids).failure = none)
    (htarget : table.targetPath = .ok path) {rule : Rule} (hrule : rule ∈ table.rules) :
    ∃ made, rule.product table store = .ok made := by
  obtain ⟨e, -, heffect⟩ := exists_effect hfailure htarget hrule
  cases hproduct : rule.product table store with
  | ok made => exact ⟨made, rfl⟩
  | error e' =>
    rw [Rule.effect, hproduct] at heffect
    cases heffect

end Table

end AtomProbe
