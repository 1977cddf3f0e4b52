import Mathlib.Data.List.Forall2
import AtomProbe.Metadata.Load
import AtomProbe.Proofs.SortedMap
import AtomProbe.Proofs.Yaml.Leaves
import AtomProbe.Proofs.Yaml.Number

/-!
# `AtomProbe.Proofs.Metadata.Flatten`: the store of a document

The store is described by the leaves of the document alone
(`Metadata.Flattens`): under a key it holds the value of the last leaf
whose chain of keys, with slashes between them, is that key, and it
holds nothing else. The value of a leaf (`Metadata.Converts`) is in turn
described by the stores of the mappings among its items.

- `Metadata.ofValue_flattens`: a mapping without tags and without empty
  keys has exactly one such store, and it is the one that is made of it.

That the recursion with its growing key is nothing but a walk over the
leaves holds of every document (`flatten_eq_filterMap_leaves`). The empty
key has to be excluded only because it vanishes at the front of a chain.
-/

set_option autoImplicit false

namespace AtomProbe.Metadata

open Yaml (Value)

/-! ### What the store of a document is -/

/-- The key that a chain of keys stands for: their texts with slashes
between them. A key that is no scalar has no text. -/
def joined? (chain : List Value) : Option String :=
  (chain.mapM keyText?).map fun texts => "/".intercalate texts

/-- The last leaf of a mapping, in the order of the document, whose
chain of keys stands for the given key. -/
def lastLeaf? (pairs : List (Value × Value)) (key : String) : Option Value :=
  let leaves := (Value.mapping pairs).leaves.filter fun leaf => joined? leaf.1 = some key
  leaves.getLast?.map Prod.snd

mutual

/-- What a value without tags becomes at the end of a chain of keys or
as an item. -/
inductive Converts : Value → Metadata → Prop
  | boolean (b : Bool) : Converts (.boolean b) (.boolean b)
  | number (n : Yaml.Number) : Converts (.number n) (ofNumber n)
  | text (s : String) : Converts (.text s) (.text s)
  /-- A mapping that is an item is a single record. -/
  | record {pairs : List (Value × Value)} {store : Store} (hstore : Flattens pairs store) :
    Converts (.mapping pairs) (ofRecords [store])
  /-- A sequence of mappings holds a record for each of them. -/
  | records {rows : List (List (Value × Value))} {stores : List Store} (hne : rows ≠ [])
    (hstores : List.Forall₂ Flattens rows stores) :
    Converts (.sequence (rows.map .mapping)) (ofRecords stores)
  /-- Any other sequence is a list of its items, without the nulls. -/
  | list {items : List Value} {values : List Metadata}
    (hmixed : items = [] ∨ ∃ item ∈ items, ∀ pairs, item ≠ .mapping pairs)
    (hvalues : List.Forall₂ Converts (items.filter fun item => !item.isNull) values) :
    Converts (.sequence items) (.list values)

/-- Which store a mapping without tags becomes: it has the keys of the
leaves, and under each of them what the last leaf becomes. -/
inductive Flattens : List (Value × Value) → Store → Prop
  | intro {pairs : List (Value × Value)} {store : Store}
    (hkeys : ∀ key, store.contains key = (lastLeaf? pairs key).isSome)
    (hvalues : ∀ key leaf value, lastLeaf? pairs key = some leaf → store.get? key = some value →
      Converts leaf value) :
    Flattens pairs store

end

/-! ### The walk over the leaves -/

/-- What a value adds to a store under a key. -/
def under (key : String) : Value → List (String × Metadata)
  | .mapping nested => flatten key nested
  | value => ((ofLeaf? value).map fun converted => (key, converted)).toList

theorem flatten_cons (above : String) (key value : Value) (pairs : List (Value × Value)) :
    flatten above ((key, value) :: pairs) =
      ((keyText? key).elim [] fun text => under (joinKey above text) value) ++
        flatten above pairs := by
  cases hkey : keyText? key with
  | none => cases value <;> simp [flatten, hkey]
  | some text => cases value <;> simp [flatten, hkey, under]

/-- The key that is made on the way down a chain of keys. -/
def keyBelow? (above : String) (chain : List Value) : Option String :=
  (chain.mapM keyText?).map (List.foldl joinKey above)

/-- What a leaf adds to the store. -/
def added? (above : String) (leaf : List Value × Value) : Option (String × Metadata) :=
  (keyBelow? above leaf.1).bind fun key => (ofLeaf? leaf.2).map fun converted => (key, converted)

/-- A key that is no scalar hides what is below it; any other one is
joined to the keys above it. -/
theorem added?_cons (above : String) (key : Value) (leaf : List Value × Value) :
    added? above (key :: leaf.1, leaf.2) =
      (keyText? key).bind fun text => added? (joinKey above text) leaf := by
  rw [added?, keyBelow?, List.mapM_cons]
  cases keyText? key with
  | none => rfl
  | some text =>
    show _ = added? (joinKey above text) leaf
    rw [added?, keyBelow?]
    cases leaf.1.mapM keyText? <;> rfl

/-- A leaf is stored under the key that led to it. -/
theorem filterMap_added?_leaf (key : String) (value : Value) :
    [([], value)].filterMap (added? key) =
      ((ofLeaf? value).map fun converted => (key, converted)).toList := by
  have hadded : added? key ([], value) =
    (ofLeaf? value).map fun converted => (key, converted) := rfl
  rw [List.filterMap_cons, hadded]
  cases ofLeaf? value <;> rfl

mutual

/-- A value adds to a store what its leaves add. -/
theorem under_eq_filterMap_leaves :
    (value : Value) → ∀ key, under key value = value.leaves.filterMap (added? key)
  | .null => fun _ => rfl
  | .mapping pairs => fun key => flatten_eq_filterMap_leaves pairs key
  | .boolean b => fun key => (filterMap_added?_leaf key (.boolean b)).symm
  | .number n => fun key => (filterMap_added?_leaf key (.number n)).symm
  | .text s => fun key => (filterMap_added?_leaf key (.text s)).symm
  | .sequence items => fun key => (filterMap_added?_leaf key (.sequence items)).symm
  | .tagged tag value => fun key => (filterMap_added?_leaf key (.tagged tag value)).symm

/-- The pairs of a store are those of the leaves, in their order. -/
theorem flatten_eq_filterMap_leaves : (pairs : List (Value × Value)) → ∀ above,
    flatten above pairs = (Value.leavesOfPairs pairs).filterMap (added? above)
  | [] => fun _ => rfl
  | (key, value) :: pairs => fun above => by
    have hadded : added? above ∘ (fun leaf => (key :: leaf.1, leaf.2)) = fun leaf =>
        (keyText? key).bind fun text => added? (joinKey above text) leaf :=
      funext fun leaf => added?_cons above key leaf
    rw [flatten_cons, Value.leavesOfPairs, List.filterMap_append, List.filterMap_map, hadded,
      flatten_eq_filterMap_leaves pairs above]
    cases keyText? key with
    | none => simp
    | some text =>
      show under (joinKey above text) value ++ _ = value.leaves.filterMap (added? _) ++ _
      rw [under_eq_filterMap_leaves value]

end

/-- Of the pairs that leaves add to a store, the last one of a key is
found under it. -/
theorem get?_ofList_filterMap_added? {leaves : List (List Value × Value)}
    (h : ∀ leaf ∈ leaves, (ofLeaf? leaf.2).isSome) (above key : String) :
    (SortedMap.ofList (leaves.filterMap (added? above))).get? key =
      ((leaves.filter fun leaf => keyBelow? above leaf.1 = some key).getLast?).bind
        fun leaf => ofLeaf? leaf.2 := by
  induction leaves with
  | nil => rfl
  | cons leaf leaves ih =>
    have hrest := ih fun other hother => h other (List.mem_cons_of_mem _ hother)
    obtain ⟨converted, hconverted⟩ := Option.isSome_iff_exists.1 (h leaf List.mem_cons_self)
    rw [List.filterMap_cons, List.filter_cons, added?, hconverted]
    cases hkey : keyBelow? above leaf.1 with
    | none => simpa using hrest
    | some k =>
      show (SortedMap.ofList ((k, converted) :: _)).get? key = _
      rw [SortedMap.ofList_cons, SortedMap.get?_insertAll, hrest, SortedMap.get?_insert]
      by_cases hk : key = k
      · subst hk
        rw [if_pos rfl, if_pos (decide_eq_true rfl), List.getLast?_cons]
        cases hlast : (leaves.filter fun leaf => keyBelow? above leaf.1 = some key).getLast? with
        | none => exact hconverted.symm
        | some last =>
          -- a later leaf of the key hides the first one, as it becomes something
          have hmem := List.mem_of_mem_filter (List.mem_of_getLast? hlast)
          obtain ⟨value, hvalue⟩ :=
            Option.isSome_iff_exists.1 (h last (List.mem_cons_of_mem _ hmem))
          simp [hvalue]
      · rw [if_neg hk, if_neg (by simpa using Ne.symm hk)]
        exact Option.or_none

/-! ### Documents without tags and without empty keys -/

/-- No value in the given one has a tag. -/
def IsUntagged (value : Value) : Prop :=
  ∀ tag inner, .tagged tag inner ∉ value.parts

/-- There are no tags in a value, and no mapping in it has the empty text
as a key. -/
structure IsPlain (value : Value) : Prop where
  isUntagged : IsUntagged value
  keys : ∀ pairs, .mapping pairs ∈ value.parts → ∀ pair ∈ pairs, pair.1 ≠ .text ""

theorem IsPlain.of_subset {value part : Value} (h : IsPlain value)
    (hsubset : part.parts ⊆ value.parts) : IsPlain part :=
  ⟨fun tag inner hmem => h.isUntagged tag inner (hsubset hmem),
    fun pairs hmem => h.keys pairs (hsubset hmem)⟩

theorem IsPlain.item {items : List Value} (h : IsPlain (.sequence items)) :
    ∀ item ∈ items, IsPlain item :=
  fun _ hitem => h.of_subset (Value.parts_subset_sequence hitem)

theorem IsPlain.pair {pairs : List (Value × Value)} (h : IsPlain (.mapping pairs)) :
    ∀ pair ∈ pairs, IsPlain pair.2 ∧ pair.1 ≠ .text "" :=
  fun pair hpair => ⟨h.of_subset (Value.parts_subset_mapping hpair),
    h.keys pairs (Value.self_mem_parts _) pair hpair⟩

theorem IsPlain.not_tagged {tag : String} {value : Value} : ¬ IsPlain (.tagged tag value) :=
  fun h => h.isUntagged tag value (Value.self_mem_parts _)

theorem keyText?_ne_empty {key : Value} (h : key ≠ .text "") : keyText? key ≠ some "" := by
  cases key with
  | text s => exact fun heq => h (congrArg Value.text (Option.some.inj heq))
  | number n => exact fun heq => n.write_ne_empty (Option.some.inj heq)
  | boolean b => cases b <;> decide
  | _ => nofun

/-- Texts are joined one by one. -/
theorem foldl_joinKey {above : String} (habove : above ≠ "") (texts : List String) :
    texts.foldl joinKey above = "/".intercalate (above :: texts) := by
  induction texts generalizing above with
  | nil => rfl
  | cons text texts ih =>
    have hjoin : joinKey above text = above ++ "/" ++ text := by
      rw [joinKey, if_neg habove]
      rfl
    have hne : above ++ "/" ++ text ≠ "" := by simp
    rw [List.foldl_cons, hjoin, ih hne]
    rfl

/-- Without empty keys the key of a chain is its joined texts. -/
theorem keyBelow?_eq_joined? {chain : List Value} (h : ∀ key ∈ chain, key ≠ .text "") :
    keyBelow? "" chain = joined? chain := by
  cases chain with
  | nil => rfl
  | cons key chain =>
    rw [keyBelow?, joined?, List.mapM_cons]
    cases htext : keyText? key with
    | none => rfl
    | some text =>
      have hne : text ≠ "" := fun heq =>
        keyText?_ne_empty (h key List.mem_cons_self) (heq ▸ htext)
      cases chain.mapM keyText? with
      | none => rfl
      | some texts => exact congrArg some (foldl_joinKey hne texts)

/-- What is no null and has no tag becomes something. -/
theorem isSome_ofLeaf? {value : Value} (hnull : value.isNull = false) (h : IsUntagged value) :
    (ofLeaf? value).isSome = true := by
  cases value with
  | null => cases hnull
  | tagged tag inner => exact absurd (Value.self_mem_parts _) (h tag inner)
  | sequence items =>
    rw [ofLeaf?]
    split <;> rfl
  | _ => rfl

theorem isSome_of_mem_leaves {value : Value} (h : IsUntagged value) :
    ∀ leaf ∈ value.leaves, (ofLeaf? leaf.2).isSome = true := by
  intro leaf hleaf
  obtain ⟨hparts, hnull⟩ := Value.of_mem_leaves value leaf hleaf
  exact isSome_ofLeaf? hnull fun tag inner hmem => h tag inner (hparts hmem)

/-- Under a key stands what the last leaf of the key becomes. -/
theorem get?_flatten {pairs : List (Value × Value)} (h : IsPlain (.mapping pairs)) (key : String) :
    (SortedMap.ofList (flatten "" pairs)).get? key = (lastLeaf? pairs key).bind ofLeaf? := by
  have hchain : ∀ leaf ∈ Value.leavesOfPairs pairs, keyBelow? "" leaf.1 = joined? leaf.1 := by
    intro leaf hleaf
    refine keyBelow?_eq_joined? fun key hkey => ?_
    obtain ⟨nested, hnested, pair, hpair, rfl⟩ :=
      Value.mapping_of_mem_chain (.mapping pairs) leaf hleaf key hkey
    exact h.keys nested hnested pair hpair
  have hfilter : ((Value.leavesOfPairs pairs).filter fun leaf => keyBelow? "" leaf.1 = some key) =
      (Value.leavesOfPairs pairs).filter fun leaf => joined? leaf.1 = some key :=
    List.filter_congr fun leaf hleaf => by rw [hchain leaf hleaf]
  have hsome : ∀ leaf ∈ Value.leavesOfPairs pairs, (ofLeaf? leaf.2).isSome = true :=
    isSome_of_mem_leaves h.isUntagged
  rw [flatten_eq_filterMap_leaves, get?_ofList_filterMap_added? hsome, hfilter, lastLeaf?,
    Option.bind_map]
  rfl

/-! ### The store that is made is the one described -/

/-- A value becomes exactly what is made of it. -/
def IsConverted (value : Value) : Prop :=
  ∀ converted, Converts value converted ↔ ofLeaf? value = some converted

theorem mem_leaves_of_lastLeaf? {pairs : List (Value × Value)} {key : String} {value : Value}
    (h : lastLeaf? pairs key = some value) :
    ∃ leaf ∈ (Value.mapping pairs).leaves, leaf.2 = value := by
  obtain ⟨leaf, hlast, rfl⟩ := Option.map_eq_some_iff.1 h
  exact ⟨leaf, List.mem_of_mem_filter (List.mem_of_getLast? hlast), rfl⟩

/-- If its leaves do, then a mapping becomes the store that is made. -/
theorem flattens_iff {pairs : List (Value × Value)} (h : IsPlain (.mapping pairs))
    (hleaves : ∀ leaf ∈ (Value.mapping pairs).leaves, IsConverted leaf.2) (store : Store) :
    Flattens pairs store ↔ store = .ofList (flatten "" pairs) := by
  constructor
  · -- a store that is described has the same value under every key
    rintro ⟨hkeys, hvalues⟩
    refine SortedMap.ext_get? fun key => ?_
    rw [get?_flatten h]
    have hkey := hkeys key
    rw [SortedMap.contains] at hkey
    cases hlast : lastLeaf? pairs key with
    | none =>
      rw [hlast] at hkey
      exact Option.isNone_iff_eq_none.1 (by simpa using hkey)
    | some leaf =>
      rw [hlast] at hkey
      obtain ⟨value, hvalue⟩ := Option.isSome_iff_exists.1 hkey
      obtain ⟨_, hleaf, rfl⟩ := mem_leaves_of_lastLeaf? hlast
      rw [hvalue]
      exact ((hleaves _ hleaf value).1 (hvalues key _ value hlast hvalue)).symm
  · rintro rfl
    refine ⟨fun key => ?_, fun key leaf value hlast hvalue => ?_⟩
    · rw [SortedMap.contains, get?_flatten h]
      cases hlast : lastLeaf? pairs key with
      | none => rfl
      | some leaf =>
        obtain ⟨_, hleaf, rfl⟩ := mem_leaves_of_lastLeaf? hlast
        exact isSome_of_mem_leaves h.isUntagged _ hleaf
    · obtain ⟨_, hleaf, rfl⟩ := mem_leaves_of_lastLeaf? hlast
      rw [get?_flatten h, hlast] at hvalue
      exact (hleaves _ hleaf value).2 hvalue

/-- A value that is its own leaf. -/
theorem isConverted_leaf {value : Value} (hleaves : value.leaves = [([], value)])
    (h : IsConverted value) : IsConverted value ∧ ∀ leaf ∈ value.leaves, IsConverted leaf.2 := by
  rw [hleaves]
  exact ⟨h, by simpa using h⟩

theorem isConverted_mapping {pairs : List (Value × Value)}
    (h : ∀ store, Flattens pairs store ↔ store = .ofList (flatten "" pairs)) :
    IsConverted (.mapping pairs) := by
  intro converted
  constructor
  · intro hconverts
    cases hconverts with
    | record hstore =>
      rw [(h _).1 hstore]
      rfl
  · intro heq
    obtain rfl := Option.some.inj heq
    exact .record ((h _).2 rfl)

/-- What holds of a mapping as an item holds of its pairs. -/
theorem flattens_iff_of_isConverted {pairs : List (Value × Value)}
    (h : IsConverted (.mapping pairs)) (store : Store) :
    Flattens pairs store ↔ store = .ofList (flatten "" pairs) := by
  have hrecord {m n : Store} (heq : ofRecords [m] = ofRecords [n]) : m = n := by
    injection heq with hrows
    injection hrows with hrow
    exact SortedMap.toList_injective hrow
  have hmapping : Flattens pairs store ↔ Converts (.mapping pairs) (ofRecords [store]) := by
    refine ⟨.record, fun hconverts => ?_⟩
    generalize hstore : ofRecords [store] = converted at hconverts
    cases hconverts with
    | record hother => exact hrecord hstore ▸ hother
  rw [hmapping, h]
  constructor
  · intro heq
    exact (hrecord (Option.some.inj heq)).symm
  · rintro rfl
    rfl

/-! ### Sequences -/

/-- Without tags a mapping is known by its constructor. -/
theorem isMapping_iff {value : Value} (h : IsPlain value) :
    isMapping value = true ↔ ∃ pairs, value = .mapping pairs := by
  cases value with
  | mapping pairs => exact ⟨fun _ => ⟨pairs, rfl⟩, fun _ => rfl⟩
  | tagged => exact absurd h IsPlain.not_tagged
  | _ => exact ⟨nofun, nofun⟩

/-- Whether a sequence becomes records. -/
def isRows (items : List Value) : Bool := !items.isEmpty && items.all isMapping

theorem isRows_eq_false_iff {items : List Value} (h : ∀ item ∈ items, IsPlain item) :
    isRows items = false ↔ items = [] ∨ ∃ item ∈ items, ∀ pairs, item ≠ .mapping pairs := by
  rw [isRows, Bool.and_eq_false_iff, Bool.not_eq_false', List.isEmpty_iff, List.all_eq_false]
  refine or_congr_right (exists_congr fun item => and_congr_right fun hitem => ?_)
  rw [isMapping_iff (h item hitem), not_exists]

/-- Items that become records are the mappings of some rows. -/
theorem exists_rows {items : List Value} (h : ∀ item ∈ items, IsPlain item)
    (hrows : isRows items = true) :
    ∃ mappings : List (List (Value × Value)), mappings ≠ [] ∧ items = mappings.map .mapping := by
  obtain ⟨hne, hall⟩ := Bool.and_eq_true_iff.1 hrows
  -- each item is a mapping of some pairs
  choose! pairsOf hpairs using fun item (hitem : item ∈ items) =>
    (isMapping_iff (h item hitem)).1 (List.all_eq_true.1 hall item hitem)
  refine ⟨items.map pairsOf, ?_, ?_⟩
  · rintro hnil
    rw [List.map_eq_nil_iff.1 hnil] at hne
    cases hne
  · rw [List.map_map]
    exact (List.map_id' items).symm.trans (List.map_congr_left hpairs)

theorem isRows_map_mapping {mappings : List (List (Value × Value))} (hne : mappings ≠ []) :
    isRows (mappings.map .mapping) = true := by
  simp [isRows, hne, isMapping, untagged]

theorem ofLeaf?_rows {items : List Value} (h : isRows items = true) :
    ofLeaf? (.sequence items) = some (.records (rows items)) := by
  rw [ofLeaf?]
  exact if_pos h

theorem ofLeaf?_list {items : List Value} (h : isRows items = false) :
    ofLeaf? (.sequence items) = some (.list (ofItems items)) := by
  rw [ofLeaf?]
  exact if_neg (Bool.eq_false_iff.1 h)

theorem rows_map_mapping (mappings : List (List (Value × Value))) :
    .records (rows (mappings.map .mapping)) =
      ofRecords (mappings.map fun pairs => .ofList (flatten "" pairs)) := by
  rw [ofRecords, List.map_map]
  induction mappings with
  | nil => rfl
  | cons pairs mappings ih =>
    injection ih with ih
    rw [List.map_cons, rows, row, ih]
    rfl

/-- The records of a sequence are the stores of its mappings. -/
theorem forall₂_flattens_iff {mappings : List (List (Value × Value))}
    (h : ∀ pairs ∈ mappings, IsConverted (.mapping pairs)) (stores : List Store) :
    List.Forall₂ Flattens mappings stores ↔
      stores = mappings.map fun pairs => .ofList (flatten "" pairs) := by
  induction mappings generalizing stores with
  | nil => simp
  | cons pairs mappings ih =>
    have hpairs := flattens_iff_of_isConverted (h pairs List.mem_cons_self)
    have hrest := ih fun other hother => h other (List.mem_cons_of_mem _ hother)
    cases stores with
    | nil => simp
    | cons store stores => simp [hpairs, hrest]

/-- The items of a list are those that are no null. -/
theorem forall₂_converts_iff {items : List Value} (h : ∀ item ∈ items, IsPlain item)
    (hitems : ∀ item ∈ items, IsConverted item) (values : List Metadata) :
    List.Forall₂ Converts (items.filter fun item => !item.isNull) values ↔
      values = ofItems items := by
  induction items generalizing values with
  | nil => simp [ofItems]
  | cons item items ih =>
    have hrest := ih (fun other hother => h other (List.mem_cons_of_mem _ hother))
      fun other hother => hitems other (List.mem_cons_of_mem _ hother)
    -- a null is filtered out on one side and has no value on the other
    cases hnull : item.isNull with
    | true =>
      cases item with
      | null => simpa [hnull, ofItems, ofLeaf?] using hrest values
      | _ => cases hnull
    | false =>
      have hsome := isSome_ofLeaf? hnull (h item List.mem_cons_self).isUntagged
      obtain ⟨converted, hconverted⟩ := Option.isSome_iff_exists.1 hsome
      have hitem := hitems item List.mem_cons_self
      rw [List.filter_cons_of_pos (by simp [hnull]), ofItems, hconverted]
      cases values with
      | nil => simp
      | cons value values => simp [hitem value, hconverted, hrest, eq_comm]

theorem isConverted_sequence {items : List Value} (h : ∀ item ∈ items, IsPlain item)
    (hitems : ∀ item ∈ items, IsConverted item) : IsConverted (.sequence items) := by
  intro converted
  constructor
  · -- the two rules for sequences exclude each other by their side conditions
    intro hconverts
    cases hconverts with
    | @records mappings stores hne hstores =>
      have hmappings : ∀ pairs ∈ mappings, IsConverted (.mapping pairs) := fun pairs hpairs =>
        hitems _ (List.mem_map_of_mem hpairs)
      rw [ofLeaf?_rows (isRows_map_mapping hne), rows_map_mapping,
        (forall₂_flattens_iff hmappings stores).1 hstores]
    | list hmixed hvalues =>
      rw [ofLeaf?_list ((isRows_eq_false_iff h).2 hmixed),
        (forall₂_converts_iff h hitems _).1 hvalues]
  · intro heq
    cases hrows : isRows items with
    | true =>
      obtain ⟨mappings, hne, rfl⟩ := exists_rows h hrows
      have hmappings : ∀ pairs ∈ mappings, IsConverted (.mapping pairs) := fun pairs hpairs =>
        hitems _ (List.mem_map_of_mem hpairs)
      rw [ofLeaf?_rows hrows, rows_map_mapping] at heq
      obtain rfl := Option.some.inj heq
      exact .records hne ((forall₂_flattens_iff hmappings _).2 rfl)
    | false =>
      rw [ofLeaf?_list hrows] at heq
      obtain rfl := Option.some.inj heq
      exact .list ((isRows_eq_false_iff h).1 hrows) ((forall₂_converts_iff h hitems _).2 rfl)

/-! ### Whole documents -/

mutual

/-- A value without tags and without empty keys becomes what is made of
it, and so does each of its leaves. -/
theorem isConverted : (value : Value) → IsPlain value →
    IsConverted value ∧ ∀ leaf ∈ value.leaves, IsConverted leaf.2
  | .null, _ => ⟨fun _ => ⟨nofun, nofun⟩, nofun⟩
  | .boolean b, _ => isConverted_leaf rfl fun _ =>
    ⟨by rintro ⟨⟩; rfl, by rintro ⟨⟩; exact .boolean b⟩
  | .number n, _ => isConverted_leaf rfl fun _ =>
    ⟨by rintro ⟨⟩; rfl, by rintro ⟨⟩; exact .number n⟩
  | .text s, _ => isConverted_leaf rfl fun _ =>
    ⟨by rintro ⟨⟩; rfl, by rintro ⟨⟩; exact .text s⟩
  | .tagged _ _, h => absurd h IsPlain.not_tagged
  | .sequence items, h =>
    isConverted_leaf rfl (isConverted_sequence h.item (isConverted_items items h.item))
  | .mapping pairs, h =>
    have hleaves : ∀ leaf ∈ (Value.mapping pairs).leaves, IsConverted leaf.2 :=
      isConverted_leaves pairs fun pair hpair => (h.pair pair hpair).1
    ⟨isConverted_mapping (flattens_iff h hleaves), hleaves⟩

/-- So does each item of a sequence. -/
theorem isConverted_items : (items : List Value) → (∀ item ∈ items, IsPlain item) →
    ∀ item ∈ items, IsConverted item
  | [], _ => nofun
  | item :: items, h => List.forall_mem_cons.2
    ⟨(isConverted item (h item List.mem_cons_self)).1,
      isConverted_items items fun other hother => h other (List.mem_cons_of_mem _ hother)⟩

/-- So does each leaf of a mapping. -/
theorem isConverted_leaves : (pairs : List (Value × Value)) → (∀ pair ∈ pairs, IsPlain pair.2) →
    ∀ leaf ∈ Value.leavesOfPairs pairs, IsConverted leaf.2
  | [], _ => nofun
  | (_, value) :: pairs, h => by
    intro leaf hleaf
    rcases List.mem_append.1 hleaf with hleaf | hleaf
    · obtain ⟨below, hbelow, rfl⟩ := List.mem_map.1 hleaf
      exact (isConverted value (h _ List.mem_cons_self)).2 below hbelow
    · exact isConverted_leaves pairs (fun pair hpair => h pair (List.mem_cons_of_mem _ hpair))
        leaf hleaf

end

/-- A mapping without tags and without empty keys has one store that is
described by its leaves, and this store is made of it. -/
theorem ofValue_flattens {pairs : List (Value × Value)} (h : IsPlain (.mapping pairs)) :
    ∃ store, Store.ofValue (.mapping pairs) = .ok store ∧
      ∀ other, Flattens pairs other ↔ other = store :=
  ⟨.ofList (flatten "" pairs), rfl, flattens_iff h (isConverted (.mapping pairs) h).2⟩

/-- A document with a nested chain and a text key that reads like it,
with records, with an item that is nothing, and with a key that is no
scalar. -/
def survey : List (Value × Value) :=
  [(.text "a", .mapping [(.text "b", .number (.natural 1)), (.number (.natural 7), .boolean true)]),
    (.text "a/b", .text "last"),
    (.text "user", .sequence [.mapping [(.text "name", .text "Jane")], .mapping []]),
    (.text "mixed", .sequence [.null, .mapping [(.text "c", .number (.negative (-2)))], .text "d"]),
    (.sequence [], .text "lost"), (.text "gone", .null)]

/-- The later of two leaves under one key is the one that stays. -/
theorem ofValue_flattens_survey :
    IsPlain (.mapping survey) ∧ ∃ store, Store.ofValue (.mapping survey) = .ok store ∧
      Flattens survey store ∧ store.get? "a/b" = some (.text "last") ∧
      store.toList.map Prod.fst = ["a/7", "a/b", "mixed", "user"] := by
  have hplain : IsPlain (.mapping survey) := by
    constructor <;>
      simp [IsUntagged, survey, Value.parts, Value.partsOfPairs, Value.partsOfItems, or_imp,
        forall_and]
  obtain ⟨store, hstore, hiff⟩ := ofValue_flattens hplain
  refine ⟨hplain, store, hstore, (hiff store).2 rfl, ?_⟩
  obtain rfl := Except.ok.inj hstore
  exact ⟨rfl, by decide⟩

end AtomProbe.Metadata
