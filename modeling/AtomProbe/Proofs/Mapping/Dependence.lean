import AtomProbe.Proofs.Mapping
import AtomProbe.Proofs.SortedMap
import AtomProbe.Proofs.VariadicPath

/-!
# `AtomProbe.Proofs.Mapping.Dependence`: what the writes of a table depend on

A table lays a map over the template. The map does not depend on what
the template holds: it is made by the rules in order, up to the first
one that fails (`Applied`). Nor does it depend on what no rule reads.

* `apply_eq_override` and `applied`: what the map is, and how the table
  ends.
* `effects_congr`: two stores that agree on the sources of the rules, and
  two lists of identifiers that agree as far as there are markers, are
  the same to a table.
-/

set_option autoImplicit false

namespace AtomProbe

namespace Table

/-! ### The map that a table lays over a template -/

/-- What a table writes, as a map, and how it ends. A table that does not
say where its targets lie writes nothing. Otherwise all of its rules are
done, or those before the first one that fails. -/
inductive Applied (table : Table) (store : Store) (ids : List UInt32) :
    Template → Except MappingError (List Outcome) → Prop
  | missingTarget {e : MappingError} (htarget : table.targetPath = .error e) :
      Applied table store ids .empty (.error e)
  | all {path : String} {effects : List Effect} (htarget : table.targetPath = .ok path)
      (heffects : table.rules.map (Rule.effect table path store ids) = effects.map .ok) :
      Applied table store ids (.ofList (effects.filterMap Effect.write?))
        (.ok (effects.map Effect.outcome))
  | failed {path : String} {before : List Rule} {rule : Rule} {after : List Rule}
      {effects : List Effect} {e : MappingError} (htarget : table.targetPath = .ok path)
      (hrules : table.rules = before ++ rule :: after)
      (heffects : before.map (Rule.effect table path store ids) = effects.map .ok)
      (hfailure : rule.effect table path store ids = .error e) :
      Applied table store ids (.ofList (effects.filterMap Effect.write?)) (.error e)

/-- How a table ends. -/
def answer (table : Table) (store : Store) (ids : List UInt32) :
    Except MappingError (List Outcome) :=
  match (table.effects store ids).failure with
  | some e => .error e
  | none => .ok ((table.effects store ids).done.map Effect.outcome)

/-- A table lays the map that it writes over the template. -/
theorem apply_eq_override (table : Table) (store : Store) (ids : List UInt32) (t : Template) :
    table.apply store ids t =
      (t.override (.ofList (table.writes store ids)), table.answer store ids) := by
  rw [← SortedMap.insertAll_eq_override]
  rfl

theorem applied (table : Table) (store : Store) (ids : List UInt32) :
    table.Applied store ids (.ofList (table.writes store ids)) (table.answer store ids) := by
  cases htarget : table.targetPath with
  | error e =>
    have heffects : table.effects store ids = ⟨[], some e⟩ := by rw [effects, htarget]
    simp only [writes, answer, heffects]
    exact .missingTarget htarget
  | ok path =>
    have hprogress : table.effects store ids =
        .ofList (Rule.effect table path store ids) table.rules := by
      rw [effects, htarget]
    rcases Progress.ofList_cases (Rule.effect table path store ids) table.rules with
      ⟨done, heffects, hlist⟩ | ⟨before, rule, after, done, e, hrules, heffects, he, hlist⟩
    · simp only [writes, answer, hprogress, hlist]
      exact .all htarget heffects
    · simp only [writes, answer, hprogress, hlist]
      exact .failed htarget hrules heffects he

end Table

/-! ### The sources of the rules -/

/-- The sources of a rule. -/
def Rule.sources (rule : Rule) : List String :=
  match rule.action with
  | .use _ => []
  | .read _ source => [source.getD rule.target]
  | .combine _ sources => sources

/-- The keys under which the rules of a table look for their sources. -/
def Table.sourceKeys (table : Table) : List String :=
  table.rules.flatMap fun rule => rule.sources.map table.sourceKey

theorem lookUp_congr {store store' : Store} {keys : List String}
    (h : ∀ key ∈ keys, store.get? key = store'.get? key) :
    lookUp store keys = lookUp store' keys := by
  induction keys with
  | nil => rfl
  | cons key keys ih =>
    have hkeys := ih fun k hk => h k (List.mem_cons_of_mem key hk)
    rw [lookUp, lookUp, h key List.mem_cons_self, hkeys]

/-- What a rule makes of a store depends on its sources alone. -/
theorem Rule.product_congr {table : Table} {store store' : Store} {rule : Rule}
    (h : ∀ source ∈ rule.sources,
      store.get? (table.sourceKey source) = store'.get? (table.sourceKey source)) :
    rule.product table store = rule.product table store' := by
  obtain ⟨target, action⟩ := rule
  cases action with
  | use literal => rfl
  | read reading source =>
    have hsource := h (source.getD target) List.mem_cons_self
    simp only [Rule.product, hsource]
  | combine combination sources =>
    have hsources : lookUp store (sources.map table.sourceKey) =
        lookUp store' (sources.map table.sourceKey) := by
      refine lookUp_congr fun key hkey => ?_
      obtain ⟨source, hsource, rfl⟩ := List.mem_map.1 hkey
      exact h source hsource
    simp only [Rule.product, hsources]

/-! ### The identifiers -/

/-- Identifiers beyond the last marker are not used. -/
theorem VariadicPath.fill_take (previous : Char) (cs : List Char) (ids : List UInt32) {n : Nat}
    (h : cs.count marker ≤ n) : fill previous cs (ids.take n) = fill previous cs ids := by
  induction cs generalizing previous ids n with
  | nil => rw [fill, fill]
  | cons c cs ih =>
    -- only a marker takes an identifier
    by_cases hc : c = marker
    · subst hc
      rw [List.count_cons_self] at h
      obtain ⟨n, rfl⟩ : ∃ k, n = k + 1 := ⟨n - 1, by omega⟩
      cases ids with
      | nil => rfl
      | cons id ids =>
        have hcs := ih marker ids (n := n) (by omega)
        simp only [List.take_succ_cons, fill, if_true, hcs]
    · rw [List.count_cons_of_ne hc] at h
      rw [fill_cons hc, fill_cons hc, ih c ids h]

theorem VariadicPath.resolve?_congr {path : String} {ids ids' : List UInt32} {n : Nat}
    (hids : ids.take n = ids'.take n) (h : markerCount path ≤ n) :
    resolve? path ids = resolve? path ids' := by
  rw [resolve?, resolve?, ← fill_take ' ' path.toList ids h, ← fill_take ' ' path.toList ids' h,
    hids]

namespace Table

/-- The largest number of markers in a target. -/
def markers (table : Table) : Nat :=
  (table.patterns.map VariadicPath.markerCount).foldr max 0

theorem markerCount_le_markers {table : Table} {pattern : String} (h : pattern ∈ table.patterns) :
    VariadicPath.markerCount pattern ≤ table.markers := by
  rw [markers]
  generalize table.patterns = patterns at h
  induction patterns with
  | nil => cases h
  | cons p ps ih =>
    rw [List.map_cons, List.foldr_cons]
    rcases List.mem_cons.1 h with rfl | h
    · exact Nat.le_max_left ..
    · exact Nat.le_trans (ih h) (Nat.le_max_right ..)

/-- Stores that hold the same under all keys that the rules read are the
same to a table, and so are lists of identifiers that are the same as
far as there are markers. -/
theorem effects_congr {table : Table} {store store' : Store} {ids ids' : List UInt32}
    (hstore : ∀ key ∈ table.sourceKeys, store.get? key = store'.get? key)
    (hids : ids.take table.markers = ids'.take table.markers) :
    table.effects store ids = table.effects store' ids' := by
  rw [effects, effects]
  cases htarget : table.targetPath with
  | error e => rfl
  | ok path =>
    refine Progress.ofList_congr fun rule hrule => ?_
    have hproduct : rule.product table store = rule.product table store' :=
      Rule.product_congr fun source hsource =>
        hstore _ (List.mem_flatMap.2 ⟨rule, hrule, List.mem_map_of_mem hsource⟩)
    have hpattern : path ++ "/" ++ rule.target ∈ table.patterns := by
      rw [patterns, htarget]
      exact List.mem_map_of_mem hrule
    have hresolve : VariadicPath.resolve? (path ++ "/" ++ rule.target) ids =
        VariadicPath.resolve? (path ++ "/" ++ rule.target) ids' :=
      VariadicPath.resolve?_congr hids (markerCount_le_markers hpattern)
    simp only [Rule.effect, hproduct, hresolve]

theorem writes_congr {table : Table} {store store' : Store} {ids ids' : List UInt32}
    (hstore : ∀ key ∈ table.sourceKeys, store.get? key = store'.get? key)
    (hids : ids.take table.markers = ids'.take table.markers) :
    table.writes store ids = table.writes store' ids' := by
  rw [writes, writes, effects_congr hstore hids]

theorem answer_congr {table : Table} {store store' : Store} {ids ids' : List UInt32}
    (hstore : ∀ key ∈ table.sourceKeys, store.get? key = store'.get? key)
    (hids : ids.take table.markers = ids'.take table.markers) :
    table.answer store ids = table.answer store' ids' := by
  rw [answer, answer, effects_congr hstore hids]

end Table

end AtomProbe
