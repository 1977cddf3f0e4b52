import AtomProbe.Proofs.Mapping.Action
import AtomProbe.Proofs.Mapping.Dependence

/-!
# `AtomProbe.Proofs.Mapping.Outcome`: what becomes of each rule of a table

The rules of a table are taken in order, and each finds the template that
the rules before it left. Four things can become of a rule, told apart by
its sources and its target alone (`Rule.Applies`): a source is missing, a
source is refused, the target cannot be resolved, or a value is written.
A missing source comes before a refused one, wherever the two stand among
the sources, and a refused source comes before a target that cannot be
resolved.

* `lookUp_eq_error_iff`: the first source that is missing.
* `Rule.applies_iff`: what one rule does (the step).
* `Table.runs_iff`: what rules in order do (the run).
* `Table.outcome_of_rules`: what a table does, and nothing else.
-/

set_option autoImplicit false

namespace AtomProbe

/-! ### The sources that are there, and the first that is missing -/

/-- The value under a key, or the key. -/
def findKey (store : Store) (key : String) : Except String (String × Metadata) :=
  match store.get? key with
  | some value => .ok (key, value)
  | none => .error key

theorem findKey_eq_ok_iff {store : Store} {key : String} {p : String × Metadata} :
    findKey store key = .ok p ↔ store.get? key = some p.2 ∧ p.1 = key := by
  rw [findKey]
  cases store.get? key with
  | none => simp
  | some value => simp [Prod.ext_iff, eq_comm, and_comm]

theorem findKey_eq_error_iff {store : Store} {key k : String} :
    findKey store key = .error k ↔ store.get? key = none ∧ k = key := by
  rw [findKey]
  cases store.get? key <;> simp [eq_comm]

theorem lookUp_eq_mapM (store : Store) (keys : List String) :
    lookUp store keys = keys.mapM (findKey store) := by
  induction keys with
  | nil => rfl
  | cons key keys ih =>
    rw [lookUp, List.mapM_cons, findKey, ← ih]
    cases store.get? key with
    | none => rfl
    | some value => cases lookUp store keys <;> rfl

/-- The first key without a value is missing. -/
theorem lookUp_eq_error_iff {store : Store} {keys : List String} {key : String} :
    lookUp store keys = .error key ↔
      ∃ before after, keys = before ++ key :: after ∧
        (∀ k ∈ before, (store.get? k).isSome = true) ∧ store.get? key = none := by
  rw [lookUp_eq_mapM, mapM_eq_error_iff]
  constructor
  · rintro ⟨before, k, after, rfl, hbefore, hk⟩
    obtain ⟨hnone, rfl⟩ := findKey_eq_error_iff.1 hk
    refine ⟨before, after, rfl, fun k hk => ?_, hnone⟩
    obtain ⟨p, hp⟩ := hbefore k hk
    rw [(findKey_eq_ok_iff.1 hp).1]
    rfl
  · rintro ⟨before, after, rfl, hbefore, hkey⟩
    refine ⟨before, key, after, rfl, fun k hk => ?_, findKey_eq_error_iff.2 ⟨hkey, rfl⟩⟩
    obtain ⟨value, hvalue⟩ := Option.isSome_iff_exists.1 (hbefore k hk)
    exact ⟨(k, value), findKey_eq_ok_iff.2 ⟨hvalue, rfl⟩⟩

/-- All keys have a value. -/
theorem lookUp_eq_ok_iff {store : Store} {keys : List String}
    {found : List (String × Metadata)} :
    lookUp store keys = .ok found ↔
      found.map Prod.fst = keys ∧ ∀ p ∈ found, store.get? p.1 = some p.2 := by
  -- what is found lists the keys that are asked for, in order
  rw [lookUp_eq_mapM, mapM_eq_ok_iff]
  induction keys generalizing found with
  | nil =>
    rw [List.forall₂_nil_left_iff, List.map_eq_nil_iff]
    refine ⟨?_, And.left⟩
    rintro rfl
    exact ⟨rfl, nofun⟩
  | cons key keys ih =>
    rw [List.forall₂_cons_left_iff]
    constructor
    · rintro ⟨p, rest, hp, hrest, rfl⟩
      obtain ⟨hvalue, rfl⟩ := findKey_eq_ok_iff.1 hp
      obtain ⟨hkeys, hrest⟩ := ih.1 hrest
      exact ⟨congrArg (p.1 :: ·) hkeys, List.forall_mem_cons.2 ⟨hvalue, hrest⟩⟩
    · rintro ⟨hkeys, hfound⟩
      cases found with
      | nil => cases hkeys
      | cons p rest =>
        obtain ⟨rfl, rfl⟩ := List.cons.inj hkeys
        obtain ⟨hvalue, hrest⟩ := List.forall_mem_cons.1 hfound
        exact ⟨p, rest, findKey_eq_ok_iff.2 ⟨hvalue, rfl⟩, ih.2 ⟨rfl, hrest⟩, rfl⟩

/-! ### What becomes of a rule -/

namespace Rule

/-- The full keys of the sources of a rule. -/
def keys (table : Table) (rule : Rule) : List String :=
  rule.sources.map table.sourceKey

/-- All sources of a rule are in the store. `found` lists them in order,
with their values. -/
structure Finds (table : Table) (store : Store) (rule : Rule)
    (found : List (String × Metadata)) : Prop where
  keys : found.map Prod.fst = rule.keys table
  values : ∀ p ∈ found, store.get? p.1 = some p.2

/-- A source of a rule is not in the store, and `key` is the first. -/
def Misses (table : Table) (store : Store) (rule : Rule) (key : String) : Prop :=
  ∃ before after, rule.keys table = before ++ key :: after ∧
    (∀ k ∈ before, (store.get? k).isSome = true) ∧ store.get? key = none

/-- What becomes of a rule, where `path` is the target path of the
table, and `t` the template that the rules before it left. -/
inductive Applies (table : Table) (path : String) (store : Store) (ids : List UInt32)
    (rule : Rule) (t : Template) : Template → Except MappingError Outcome → Prop
  | missing {key : String} (hkey : rule.Misses table store key) :
      Applies table path store ids rule t t (.ok (.missingSource key))
  | refused {found : List (String × Metadata)} {e : MappingError}
      (hfound : rule.Finds table store found) (he : rule.action.Fails found e) :
      Applies table path store ids rule t t (.error e)
  | unresolvable {found : List (String × Metadata)} {v : TemplateValue}
      (hfound : rule.Finds table store found) (hv : rule.action.Makes (found.map Prod.snd) v)
      (hpath : VariadicPath.resolve? (path ++ "/" ++ rule.target) ids = none) :
      Applies table path store ids rule t t (.ok (.unresolvablePath (path ++ "/" ++ rule.target)))
  | written {found : List (String × Metadata)} {v : TemplateValue} {resolved : String}
      {t' : Template}
      (hfound : rule.Finds table store found) (hv : rule.action.Makes (found.map Prod.snd) v)
      (hpath : VariadicPath.resolve? (path ++ "/" ++ rule.target) ids = some resolved)
      (hvalue : t'.get? resolved = some v) (hothers : ∀ k, k ≠ resolved → t'.get? k = t.get? k) :
      Applies table path store ids rule t t' (.ok (.written resolved))

theorem finds_iff {table : Table} {store : Store} {rule : Rule}
    {found : List (String × Metadata)} :
    lookUp store (rule.keys table) = .ok found ↔ rule.Finds table store found := by
  rw [lookUp_eq_ok_iff]
  exact ⟨fun ⟨hkeys, hvalues⟩ => ⟨hkeys, hvalues⟩, fun h => ⟨h.keys, h.values⟩⟩

theorem value_ne_missing {result : Except MappingError TemplateValue} {key : String} :
    Product.value <$> result ≠ .ok (.missing key) := by
  intro h
  obtain ⟨v, -, hv⟩ := map_eq_ok_iff.1 h
  cases hv

/-- The sources are looked up before anything is made of them. -/
theorem product_eq_missing_iff {table : Table} {store : Store} {rule : Rule} {key : String} :
    rule.product table store = .ok (.missing key) ↔ rule.Misses table store key := by
  rw [Misses, ← lookUp_eq_error_iff]
  obtain ⟨target, action⟩ := rule
  -- a literal has no sources that could be missing
  cases action with
  | use literal =>
    constructor
    · intro h
      cases h
    · intro h
      cases h
  | read reading source =>
    simp only [keys, sources, List.map_cons, List.map_nil, lookUp, product]
    cases store.get? (table.sourceKey (source.getD target)) with
    | none => simp
    | some value =>
      refine iff_of_false value_ne_missing ?_
      intro h
      cases h
  | combine combination sources =>
    simp only [keys, Rule.sources, product]
    cases lookUp store (sources.map table.sourceKey) with
    | error k => simp
    | ok found =>
      refine iff_of_false value_ne_missing ?_
      intro h
      cases h

/-- Where all sources are there, the action alone tells what is made of
them and what is refused. -/
theorem product_of_finds {table : Table} {store : Store} {rule : Rule}
    {found : List (String × Metadata)} (h : rule.Finds table store found) :
    (∀ v, rule.product table store = .ok (.value v) ↔
      rule.action.Makes (found.map Prod.snd) v) ∧
    ∀ e, rule.product table store = .error e ↔ rule.action.Fails found e := by
  have hlookUp := finds_iff.2 h
  obtain ⟨target, action⟩ := rule
  -- the readings and the combinations have shown what they make and refuse
  cases action with
  | use literal =>
    cases hlookUp
    refine ⟨fun v => ?_, fun e => ?_⟩
    · simp only [product, List.map_nil, Literal.makes_iff, Except.ok.injEq, Product.value.injEq]
      exact eq_comm
    · refine iff_of_false ?_ Action.not_fails_nil
      intro h
      cases h
  | read reading source =>
    simp only [keys, sources, List.map_cons, List.map_nil, lookUp] at hlookUp
    rw [product]
    dsimp only
    cases hvalue : store.get? (table.sourceKey (source.getD target)) with
    | none =>
      rw [hvalue] at hlookUp
      cases hlookUp
    | some value =>
      rw [hvalue] at hlookUp
      cases hlookUp
      dsimp only
      refine ⟨fun v => ?_, fun e => ?_⟩
      · simp only [map_eq_ok_iff, Product.value.injEq]
        rw [exists_eq_right', Reading.apply_eq_ok_iff]
        rfl
      · rw [map_eq_error_iff, Reading.apply_eq_error_iff, Action.fails_singleton]
  | combine combination sources =>
    simp only [keys, Rule.sources] at hlookUp
    simp only [product, hlookUp, map_eq_ok_iff, map_eq_error_iff, Product.value.injEq,
      exists_eq_right']
    exact ⟨fun v => Combination.apply_eq_ok_iff, fun e => Combination.apply_eq_error_iff⟩

/-- What a rule does to a template, as a function. -/
def step (table : Table) (path : String) (store : Store) (ids : List UInt32) (rule : Rule)
    (t : Template) : Template × Except MappingError Outcome :=
  match rule.effect table path store ids with
  | .error e => (t, .error e)
  | .ok effect => (t.insertAll effect.write?.toList, .ok effect.outcome)

variable {table : Table} {path : String} {store : Store} {ids : List UInt32} {rule : Rule}
  {t t' : Template}

theorem step_of_missing {key : String} (h : rule.product table store = .ok (.missing key)) :
    rule.step table path store ids t = (t, .ok (.missingSource key)) := by
  have heffect : rule.effect table path store ids = .ok (.missingSource key) := by
    rw [effect, h]
    rfl
  rw [step, heffect]
  rfl

theorem step_of_error {e : MappingError} (h : rule.product table store = .error e) :
    rule.step table path store ids t = (t, .error e) := by
  have heffect : rule.effect table path store ids = .error e := by
    rw [effect, h]
    rfl
  rw [step, heffect]

theorem step_of_value {v : TemplateValue} (h : rule.product table store = .ok (.value v)) :
    rule.step table path store ids t =
      match VariadicPath.resolve? (path ++ "/" ++ rule.target) ids with
      | some resolved => (t.insert resolved v, .ok (.written resolved))
      | none => (t, .ok (.unresolvablePath (path ++ "/" ++ rule.target))) := by
  rw [step, effect, h]
  simp only [bind, Except.bind]
  cases VariadicPath.resolve? (path ++ "/" ++ rule.target) ids <;> rfl

theorem Applies.step_eq {answer : Except MappingError Outcome}
    (h : rule.Applies table path store ids t t' answer) :
    rule.step table path store ids t = (t', answer) := by
  cases h with
  | missing hkey => exact step_of_missing (product_eq_missing_iff.2 hkey)
  | refused hfound he => exact step_of_error (((product_of_finds hfound).2 _).2 he)
  | unresolvable hfound hv hpath =>
    rw [step_of_value (((product_of_finds hfound).1 _).2 hv), hpath]
  | written hfound hv hpath hvalue hothers =>
    rw [step_of_value (((product_of_finds hfound).1 _).2 hv), hpath]
    next v resolved =>
    have htemplate : t.insert resolved v = t' := by
      refine SortedMap.ext_get? fun k => ?_
      rw [SortedMap.get?_insert]
      split
      · next hk => rw [hk, hvalue]
      · next hk => exact (hothers k hk).symm
    dsimp only
    rw [htemplate]

/-- A value that is made is written, or its path does not resolve. -/
theorem applies_of_value {found : List (String × Metadata)}
    (hfound : rule.Finds table store found) {v : TemplateValue}
    (hproduct : rule.product table store = .ok (.value v)) :
    rule.Applies table path store ids t (rule.step table path store ids t).1
      (rule.step table path store ids t).2 := by
  have hv := ((product_of_finds hfound).1 v).1 hproduct
  rw [step_of_value hproduct]
  cases hpath : VariadicPath.resolve? (path ++ "/" ++ rule.target) ids with
  | none => exact .unresolvable hfound hv hpath
  | some resolved =>
    refine .written hfound hv hpath ?_ fun k hk => ?_
    · rw [SortedMap.get?_insert, if_pos rfl]
    · rw [SortedMap.get?_insert, if_neg hk]

theorem applies_step (table : Table) (path : String) (store : Store) (ids : List UInt32)
    (rule : Rule) (t : Template) :
    rule.Applies table path store ids t (rule.step table path store ids t).1
      (rule.step table path store ids t).2 := by
  cases hlookUp : lookUp store (rule.keys table) with
  | error key =>
    have hkey := lookUp_eq_error_iff.1 hlookUp
    rw [step_of_missing (product_eq_missing_iff.2 hkey)]
    exact .missing hkey
  | ok found =>
    have hfound := finds_iff.1 hlookUp
    cases hproduct : rule.product table store with
    | error e =>
      rw [step_of_error hproduct]
      exact .refused hfound (((product_of_finds hfound).2 e).1 hproduct)
    | ok made =>
      cases made with
      | missing key =>
        -- all sources have just been found
        rw [lookUp_eq_error_iff.2 (product_eq_missing_iff.1 hproduct)] at hlookUp
        cases hlookUp
      | value v => exact applies_of_value hfound hproduct

/-- The step: the sources and the target tell what becomes of a rule. -/
theorem applies_iff {answer : Except MappingError Outcome} :
    rule.Applies table path store ids t t' answer ↔
      rule.step table path store ids t = (t', answer) := by
  refine ⟨Applies.step_eq, fun h => ?_⟩
  have happlies := applies_step table path store ids rule t
  rwa [h] at happlies

end Rule

/-! ### What becomes of a table -/

namespace Table

/-- What becomes of rules in order. Each finds the template that the
rules before it left. There is one outcome for each rule, or else the
error of the first rule that fails. -/
inductive Runs (table : Table) (path : String) (store : Store) (ids : List UInt32) :
    List Rule → Template → Template → Except MappingError (List Outcome) → Prop
  | nil {t : Template} : Runs table path store ids [] t t (.ok [])
  | cons {rule : Rule} {rules : List Rule} {t t₁ t' : Template} {outcome : Outcome}
      {answer : Except MappingError (List Outcome)}
      (hrule : rule.Applies table path store ids t t₁ (.ok outcome))
      (hrules : Runs table path store ids rules t₁ t' answer) :
      Runs table path store ids (rule :: rules) t t' ((outcome :: ·) <$> answer)
  | failed {rule : Rule} {rules : List Rule} {t t' : Template} {e : MappingError}
      (hrule : rule.Applies table path store ids t t' (.error e)) :
      Runs table path store ids (rule :: rules) t t' (.error e)

end Table

/-- What is done to a template, and how it ends. -/
def Progress.writeTo (p : Progress Effect MappingError) (t : Template) :
    Template × Except MappingError (List Outcome) :=
  (t.insertAll (p.done.filterMap Effect.write?),
    match p.failure with
    | some e => .error e
    | none => .ok (p.done.map Effect.outcome))

namespace Table

variable {table : Table} {path : String} {store : Store} {ids : List UInt32} {t t' : Template}

/-- The first rule is done, and the others after it. -/
theorem writeTo_cons (rule : Rule) (rules : List Rule) :
    (Progress.ofList (Rule.effect table path store ids) (rule :: rules)).writeTo t =
      match rule.step table path store ids t with
      | (t₁, .error e) => (t₁, .error e)
      | (t₁, .ok outcome) =>
        let rest := (Progress.ofList (Rule.effect table path store ids) rules).writeTo t₁
        (rest.1, (outcome :: ·) <$> rest.2) := by
  rw [Progress.ofList, Rule.step]
  cases rule.effect table path store ids with
  | error e => rfl
  | ok effect =>
    generalize Progress.ofList (Rule.effect table path store ids) rules = p
    obtain ⟨done, failure⟩ := p
    have hwrites : (effect :: done).filterMap Effect.write? =
        effect.write?.toList ++ done.filterMap Effect.write? := by
      rw [List.filterMap_cons]
      cases effect.write? <;> rfl
    dsimp only [Progress.writeTo]
    rw [hwrites, SortedMap.insertAll_append]
    cases failure <;> rfl

/-- The run: rule by rule, from the step. -/
theorem runs_iff {rules : List Rule} {answer : Except MappingError (List Outcome)} :
    table.Runs path store ids rules t t' answer ↔
      (Progress.ofList (Rule.effect table path store ids) rules).writeTo t = (t', answer) := by
  induction rules generalizing t t' answer with
  | nil =>
    constructor
    · rintro ⟨⟩
      rfl
    · intro h
      cases h
      exact .nil
  | cons rule rules ih =>
    rw [writeTo_cons]
    constructor
    · intro h
      cases h with
      | cons hrule hrules =>
        rw [Rule.applies_iff.1 hrule]
        dsimp only
        rw [ih.1 hrules]
      | failed hrule => rw [Rule.applies_iff.1 hrule]
    · intro h
      -- the first rule either ends the run or leaves a template for the others
      cases hstep : rule.step table path store ids t with
      | mk t₁ result =>
        rw [hstep] at h
        cases result with
        | error e =>
          cases h
          exact .failed (Rule.applies_iff.2 hstep)
        | ok outcome =>
          cases h
          exact .cons (Rule.applies_iff.2 hstep) (ih.2 rfl)

theorem Runs.length_eq {rules : List Rule} {outcomes : List Outcome}
    {answer : Except MappingError (List Outcome)} (h : table.Runs path store ids rules t t' answer)
    (hanswer : answer = .ok outcomes) : outcomes.length = rules.length := by
  induction h generalizing outcomes with
  | nil =>
    cases hanswer
    rfl
  | cons hrule hrules ih =>
    obtain ⟨rest, hrest, rfl⟩ := map_eq_ok_iff.1 hanswer
    exact congrArg (· + 1) (ih hrest)
  | failed hrule => cases hanswer

/-- Rules that are done are followed by the others. -/
theorem Runs.append {before rules : List Rule} {t₁ : Template} {outcomes : List Outcome}
    {answer answer' : Except MappingError (List Outcome)}
    (h : table.Runs path store ids before t t₁ answer) (hanswer : answer = .ok outcomes)
    (hrules : table.Runs path store ids rules t₁ t' answer') :
    table.Runs path store ids (before ++ rules) t t' ((outcomes ++ ·) <$> answer') := by
  induction h generalizing outcomes with
  | nil =>
    cases hanswer
    cases answer' <;> exact hrules
  | @cons rule before t t₁ t₂ outcome answer hrule hbefore ih =>
    obtain ⟨rest, hrest, rfl⟩ := map_eq_ok_iff.1 hanswer
    have hmap : ((outcome :: rest ++ ·) <$> answer' : Except MappingError (List Outcome)) =
        (outcome :: ·) <$> ((rest ++ ·) <$> answer') := by
      cases answer' <;> rfl
    rw [hmap]
    exact .cons hrule (ih hrest hrules)
  | failed hrule => cases hanswer

/-- The rules after one that failed are not looked at. -/
theorem Runs.append_of_error {before : List Rule} {e : MappingError}
    {answer : Except MappingError (List Outcome)}
    (h : table.Runs path store ids before t t' answer) (hanswer : answer = .error e)
    (rules : List Rule) : table.Runs path store ids (before ++ rules) t t' (.error e) := by
  induction h with
  | nil => cases hanswer
  | @cons rule before t t₁ t₂ outcome answer hrule hbefore ih =>
    exact .cons hrule (ih (map_eq_error_iff.1 hanswer))
  | failed hrule =>
    cases hanswer
    exact .failed hrule

theorem apply_eq_writeTo (htarget : table.targetPath = .ok path) (store : Store)
    (ids : List UInt32) (t : Template) :
    table.apply store ids t =
      (Progress.ofList (Rule.effect table path store ids) table.rules).writeTo t := by
  rw [apply, writes, effects, htarget]
  rfl

/-- A table that says where its targets lie does what its rules do in
order, and nothing else. There is one outcome for each rule, or the error
of the first rule that fails. -/
theorem outcome_of_rules {table : Table} {path : String} (htarget : table.targetPath = .ok path)
    (store : Store) (ids : List UInt32) (t t' : Template)
    (answer : Except MappingError (List Outcome)) :
    (table.apply store ids t = (t', answer) ↔
      table.Runs path store ids table.rules t t' answer) ∧
    ∀ outcomes, table.apply store ids t = (t', .ok outcomes) →
      outcomes.length = table.rules.length := by
  rw [apply_eq_writeTo htarget]
  exact ⟨runs_iff.symm, fun outcomes h => (runs_iff.2 h).length_eq rfl⟩

/-- Four rules. The first has a source that is no number before one that
is missing, and the second has a target with one marker too many. -/
def chamber : Table where
  name := "chamber"
  target := some "/ENTRY[entry*]/chamber"
  olderTarget := none
  source := some "chamber"
  rules :=
    [⟨"pressure", .combine .numbers ["gas", "gauge"]⟩,
      ⟨"shutter[*]", .read .boolean (some "open")⟩,
      ⟨"range", .combine .numbers ["high", "low"]⟩,
      ⟨"label", .combine .joined ["gas", "low"]⟩]

/-- What is known about the chamber. -/
def chamberStore : Store :=
  .ofList [("chamber/gas", .text "neon"), ("chamber/high", .text " 20 "),
    ("chamber/low", .integer 3), ("chamber/open", .text "Yes")]

theorem outcome_of_rules_chamber :
    chamber.targetPath = .ok "/ENTRY[entry*]/chamber" ∧
      chamber.Runs "/ENTRY[entry*]/chamber" chamberStore [1] chamber.rules .empty
        (.ofList [("/ENTRY[entry1]/chamber/label", .text "neon 3"),
          ("/ENTRY[entry1]/chamber/range", .integers [20, 3])])
        (.ok [.missingSource "chamber/gauge",
          .unresolvablePath "/ENTRY[entry*]/chamber/shutter[*]",
          .written "/ENTRY[entry1]/chamber/range", .written "/ENTRY[entry1]/chamber/label"]) := by
  refine ⟨rfl, (outcome_of_rules rfl chamberStore [1] .empty _ _).1.1 (Prod.ext ?_ ?_)⟩
  · exact SortedMap.toList_injective (by decide +kernel)
  · decide

/-- A source is refused before the target is looked at. -/
example :
    (chamber.apply (chamberStore.insert "chamber/open" (.text "ajar")) [1] .empty).2 =
      .error (.conversion "chamber/open" (.notABoolean "ajar")) := by
  decide

end Table

end AtomProbe
