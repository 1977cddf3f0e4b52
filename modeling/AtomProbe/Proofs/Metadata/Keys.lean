import AtomProbe.Proofs.Metadata.Flatten

/-!
# `AtomProbe.Proofs.Metadata.Keys`: which leaves share a key

A leaf is stored under the texts of its chain of keys with slashes
between them. Where no text has a slash of its own, the texts are found
again in the key, all but the empty ones in front, which leave no trace.

- `Metadata.keeps_leaves`: leaves whose chains have different texts, the
  empty ones in front not counted, are stored under different keys. If
  this holds of all leaves, none is lost. It does if no mapping has two
  keys of one text or an empty key.
- `Metadata.exists_lost`: a number and a text can have the same text, and
  then one of two leaves is lost. So can a leaf below an empty key.
-/

set_option autoImplicit false

namespace AtomProbe.Metadata

open Yaml (Value)

/-! ### Texts and keys of chains -/

/-- The texts of the keys of a chain. -/
def texts (chain : List Value) : List String := chain.filterMap keyText?

/-- The texts of a chain without the empty ones in front. -/
def bareTexts (chain : List Value) : List String := (texts chain).dropWhile (· = "")

/-- The key that the leaf at the end of a chain is stored under. -/
def storageKey (chain : List Value) : String := (texts chain).foldl joinKey ""

/-- Empty texts in front leave no trace. -/
theorem storageKey_eq_intercalate (chain : List Value) :
    storageKey chain = "/".intercalate (bareTexts chain) := by
  rw [storageKey, bareTexts]
  induction texts chain with
  | nil => rfl
  | cons text texts ih =>
    by_cases htext : text = ""
    · subst htext
      exact ih
    · rw [List.dropWhile_cons_of_neg (by simpa using htext)]
      exact foldl_joinKey htext texts

/-- The texts that are joined in a key. -/
def split (key : String) : List String :=
  if key = "" then [] else (key.toList.splitOn '/').map String.ofList

theorem split_intercalate {texts : List String} (hslash : ∀ text ∈ texts, '/' ∉ text.toList)
    (hhead : texts.head? ≠ some "") : split ("/".intercalate texts) = texts := by
  cases texts with
  | nil => rfl
  | cons text texts =>
    have hne : "/".intercalate (text :: texts) ≠ "" := by
      have htext : text ≠ "" := fun h => hhead (congrArg some h)
      cases texts with
      | nil => exact htext
      | cons => simp [String.intercalate_cons_cons]
    have hlist : ("/".intercalate (text :: texts)).toList =
        ['/'].intercalate ((text :: texts).map String.toList) := String.toList_intercalate
    have hsplit : (['/'].intercalate ((text :: texts).map String.toList)).splitOn '/' =
        (text :: texts).map String.toList :=
      List.splitOn_intercalate '/' (by simpa using hslash) (by simp)
    rw [split, if_neg hne, hlist, hsplit, List.map_map]
    simp

/-- The texts of a chain are found again in its key. -/
theorem split_storageKey {chain : List Value} (hslash : ∀ text ∈ texts chain, '/' ∉ text.toList) :
    split (storageKey chain) = bareTexts chain := by
  rw [storageKey_eq_intercalate]
  refine split_intercalate (fun text htext => hslash text ?_) fun hhead => ?_
  · exact (List.dropWhile_suffix _).subset htext
  · have hfirst := List.head?_dropWhile_not (· = "") (texts chain)
    rw [bareTexts] at hhead
    rw [hhead] at hfirst
    simp at hfirst

/-! ### The keys of a document -/

/-- Every key of a mapping in the value has a text, and no such text has
a slash. -/
def HasPlainTexts (value : Value) : Prop :=
  ∀ pairs, .mapping pairs ∈ value.parts →
    ∀ pair ∈ pairs, ∃ text, keyText? pair.1 = some text ∧ '/' ∉ text.toList

/-- No mapping in the value has two keys of the same text or an empty
key. -/
def HasDistinctTexts (value : Value) : Prop :=
  ∀ pairs, .mapping pairs ∈ value.parts →
    (pairs.filterMap fun pair => keyText? pair.1).Nodup ∧ ∀ pair ∈ pairs, pair.1 ≠ .text ""

theorem HasPlainTexts.chain {value : Value} (h : HasPlainTexts value) :
    ∀ leaf ∈ value.leaves, ∀ key ∈ leaf.1,
      ∃ text, keyText? key = some text ∧ '/' ∉ text.toList := by
  intro leaf hleaf key hkey
  obtain ⟨pairs, hpairs, pair, hpair, rfl⟩ := Value.mapping_of_mem_chain value leaf hleaf key hkey
  exact h pairs hpairs pair hpair

theorem HasPlainTexts.texts {value : Value} (h : HasPlainTexts value) :
    ∀ leaf ∈ value.leaves, ∀ text ∈ texts leaf.1, '/' ∉ text.toList := by
  intro leaf hleaf text htext
  obtain ⟨key, hkey, hkeyText⟩ := List.mem_filterMap.1 htext
  obtain ⟨other, hother, hplain⟩ := h.chain leaf hleaf key hkey
  obtain rfl : other = text := Option.some.inj (hother.symm.trans hkeyText)
  exact hplain

theorem HasDistinctTexts.texts {value : Value} (h : HasDistinctTexts value) :
    ∀ leaf ∈ value.leaves, ∀ text ∈ texts leaf.1, text ≠ "" := by
  rintro leaf hleaf _ htext rfl
  obtain ⟨key, hkey, hempty⟩ := List.mem_filterMap.1 htext
  obtain ⟨pairs, hpairs, pair, hpair, rfl⟩ :=
    Value.mapping_of_mem_chain value leaf hleaf key hkey
  exact keyText?_ne_empty ((h pairs hpairs).2 pair hpair) hempty

/-- If all keys have texts, then a leaf is stored under its key. -/
theorem keyBelow?_eq_storageKey {chain : List Value}
    (h : ∀ key ∈ chain, ∃ text, keyText? key = some text) :
    keyBelow? "" chain = some (storageKey chain) := by
  have htexts : chain.mapM keyText? = some (texts chain) := by
    induction chain with
    | nil => rfl
    | cons key chain ih =>
      obtain ⟨text, htext⟩ := h key List.mem_cons_self
      rw [List.mapM_cons, htext, ih fun other hother => h other (List.mem_cons_of_mem _ hother),
        texts, texts, List.filterMap_cons_some htext]
      rfl
  rw [keyBelow?, htexts]
  rfl

/-- What a leaf adds to the store, if it adds anything. -/
def added (leaf : List Value × Value) : String × Metadata :=
  (storageKey leaf.1, (ofLeaf? leaf.2).getD default)

/-- Each leaf adds one pair to the store. -/
theorem flatten_eq_map_leaves {pairs : List (Value × Value)}
    (htags : IsUntagged (.mapping pairs))
    (hkeys : HasPlainTexts (.mapping pairs)) :
    flatten "" pairs = (Value.mapping pairs).leaves.map added := by
  rw [flatten_eq_filterMap_leaves, ← List.filterMap_eq_map]
  refine List.filterMap_congr fun leaf hleaf => ?_
  have hkey := keyBelow?_eq_storageKey fun key hkey =>
    (hkeys.chain leaf hleaf key hkey).imp fun _ => And.left
  obtain ⟨converted, hconverted⟩ :=
    Option.isSome_iff_exists.1 (isSome_of_mem_leaves htags leaf hleaf)
  rw [added?, hkey, hconverted, Function.comp_apply, added, hconverted]
  rfl

/-! ### Distinct texts -/

/-- The chain of a leaf below a mapping begins with a key of the mapping. -/
theorem exists_cons_of_mem_leavesOfPairs {pairs : List (Value × Value)}
    {leaf : List Value × Value} (h : leaf ∈ Value.leavesOfPairs pairs) :
    ∃ pair ∈ pairs, ∃ chain, leaf.1 = pair.1 :: chain := by
  induction pairs with
  | nil => cases h
  | cons pair pairs ih =>
    rcases List.mem_append.1 h with h | h
    · obtain ⟨below, -, rfl⟩ := List.mem_map.1 h
      exact ⟨pair, List.mem_cons_self, below.1, rfl⟩
    · obtain ⟨other, hother, hchain⟩ := ih h
      exact ⟨other, List.mem_cons_of_mem _ hother, hchain⟩

mutual

/-- If keys of one mapping have different texts, then so have chains of
different leaves. -/
theorem nodup_texts : (value : Value) → HasPlainTexts value → HasDistinctTexts value →
    (value.leaves.map fun leaf => texts leaf.1).Nodup
  | .null, _, _ => List.nodup_nil
  | .mapping pairs, hkeys, hdistinct =>
    have hmapping := Value.self_mem_parts (.mapping pairs)
    nodup_texts_pairs pairs
      (fun _ hpair => ⟨fun _ hnested => hkeys _ (Value.parts_subset_mapping hpair hnested),
        fun _ hnested => hdistinct _ (Value.parts_subset_mapping hpair hnested)⟩)
      (fun pair hpair => (hkeys pairs hmapping pair hpair).imp fun _ => And.left)
      (hdistinct pairs hmapping).1
  | .boolean _, _, _ | .number _, _, _ | .text _, _, _ | .sequence _, _, _ | .tagged _ _, _, _ =>
    List.nodup_singleton _

/-- The same for the leaves of a mapping, told apart by its own keys or
further down. -/
theorem nodup_texts_pairs : (pairs : List (Value × Value)) →
    (∀ pair ∈ pairs, HasPlainTexts pair.2 ∧ HasDistinctTexts pair.2) →
    (∀ pair ∈ pairs, ∃ text, keyText? pair.1 = some text) →
    (pairs.filterMap fun pair => keyText? pair.1).Nodup →
    ((Value.leavesOfPairs pairs).map fun leaf => texts leaf.1).Nodup
  | [], _, _, _ => List.nodup_nil
  | (key, value) :: pairs, hvalues, hkeys, hnodup => by
    obtain ⟨text, htext⟩ : ∃ text, keyText? key = some text := hkeys _ List.mem_cons_self
    have htexts : ((key, value) :: pairs).filterMap (fun pair => keyText? pair.1) =
        text :: pairs.filterMap fun pair => keyText? pair.1 := List.filterMap_cons_some htext
    rw [htexts, List.nodup_cons] at hnodup
    have hvalue := hvalues _ List.mem_cons_self
    have hfirst := nodup_texts value hvalue.1 hvalue.2
    have hrest := nodup_texts_pairs pairs
      (fun pair hpair => hvalues pair (List.mem_cons_of_mem _ hpair))
      (fun pair hpair => hkeys pair (List.mem_cons_of_mem _ hpair)) hnodup.2
    have hmap : (value.leaves.map fun leaf => (key :: leaf.1, leaf.2)).map
          (fun leaf => texts leaf.1) =
        (value.leaves.map fun leaf => texts leaf.1).map (text :: ·) := by
      simp [texts, htext]
    rw [Value.leavesOfPairs, List.map_append, hmap]
    refine List.nodup_append.2 ⟨hfirst.map fun _ _ => List.tail_eq_of_cons_eq, hrest, ?_⟩
    -- a chain that begins with another key begins with another text
    rintro _ hhere _ hthere rfl
    obtain ⟨below, -, hbelow⟩ := List.mem_map.1 hhere
    obtain ⟨leaf, hleaf, hchain⟩ := List.mem_map.1 hthere
    obtain ⟨pair, hpair, chain, heq⟩ := exists_cons_of_mem_leavesOfPairs hleaf
    obtain ⟨other, hother⟩ := hkeys pair (List.mem_cons_of_mem _ hpair)
    rw [texts, heq, List.filterMap_cons_some hother, ← hbelow] at hchain
    obtain rfl : other = text := (List.cons.inj hchain).1
    exact hnodup.1 (List.mem_filterMap.2 ⟨pair, hpair, hother⟩)

end

/-- Where there are no empty keys, nothing is dropped in front. -/
theorem nodup_bareTexts {value : Value} (hkeys : HasPlainTexts value)
    (hdistinct : HasDistinctTexts value) :
    (value.leaves.map fun leaf => bareTexts leaf.1).Nodup := by
  have hbare : ∀ leaf ∈ value.leaves, bareTexts leaf.1 = texts leaf.1 := by
    intro leaf hleaf
    have hne := hdistinct.texts leaf hleaf
    rw [bareTexts]
    cases htexts : texts leaf.1 with
    | nil => rfl
    | cons text texts =>
      exact List.dropWhile_cons_of_neg (by simpa using hne text (htexts ▸ List.mem_cons_self))
  rw [List.map_congr_left hbare]
  exact nodup_texts value hkeys hdistinct

/-! ### No leaf is lost -/

/-- A store has as many keys as there are leaves, and what each of them
becomes stands under its key. -/
structure KeepsAll (leaves : List (List Value × Value)) (store : Store) : Prop where
  size : store.size = leaves.length
  get? : ∀ leaf ∈ leaves, ∃ converted,
    ofLeaf? leaf.2 = some converted ∧ store.get? (storageKey leaf.1) = some converted

/-- Leaves are stored under different keys if the texts of their chains
differ, where empty ones in front do not count. If no two leaves are
alike in this respect, then there is a key for each of them. -/
theorem keeps_leaves {pairs : List (Value × Value)}
    (htags : IsUntagged (.mapping pairs))
    (hkeys : HasPlainTexts (.mapping pairs)) :
    ∃ store, Store.ofValue (.mapping pairs) = .ok store ∧
      (∀ key, store.contains key = true ↔
        ∃ leaf ∈ (Value.mapping pairs).leaves, storageKey leaf.1 = key) ∧
      (∀ leaf ∈ (Value.mapping pairs).leaves, ∀ other ∈ (Value.mapping pairs).leaves,
        bareTexts leaf.1 ≠ bareTexts other.1 → storageKey leaf.1 ≠ storageKey other.1) ∧
      (((Value.mapping pairs).leaves.map fun leaf => bareTexts leaf.1).Nodup ∨
          HasDistinctTexts (.mapping pairs) → KeepsAll (Value.mapping pairs).leaves store) := by
  have hflatten := flatten_eq_map_leaves htags hkeys
  have hslash := hkeys.texts
  refine ⟨.ofList (flatten "" pairs), rfl, fun key => ?_, fun leaf hleaf other hother => ?_, ?_⟩
  · rw [SortedMap.contains_ofList, hflatten, List.map_map, List.mem_map]
    rfl
  · -- the texts can be read from the key
    refine mt fun hkey => ?_
    rw [← split_storageKey (hslash leaf hleaf), hkey, split_storageKey (hslash other hother)]
  · intro hdistinct
    have hbare : ((Value.mapping pairs).leaves.map fun leaf => bareTexts leaf.1).Nodup :=
      hdistinct.elim id (nodup_bareTexts hkeys)
    -- the keys differ because what is read from them does
    have hnodup : ((flatten "" pairs).map Prod.fst).Nodup := by
      rw [hflatten, List.map_map]
      refine List.Nodup.of_map split ?_
      rw [List.map_map]
      show ((Value.mapping pairs).leaves.map fun leaf => split (storageKey leaf.1)).Nodup
      rw [List.map_congr_left fun leaf hleaf => split_storageKey (hslash leaf hleaf)]
      exact hbare
    refine ⟨?_, fun leaf hleaf => ?_⟩
    · rw [SortedMap.size_ofList hnodup, hflatten, List.length_map]
    · obtain ⟨converted, hconverted⟩ :=
        Option.isSome_iff_exists.1 (isSome_of_mem_leaves htags leaf hleaf)
      have hentry : added leaf ∈ flatten "" pairs := hflatten ▸ List.mem_map_of_mem hleaf
      have hget := SortedMap.get?_insertAll_of_mem hnodup .empty hentry
      refine ⟨converted, hconverted, ?_⟩
      rw [added, hconverted] at hget
      exact hget

/-- A document whose keys could be those of files and folders. -/
def folders : List (Value × Value) :=
  [(.text "a", .mapping [(.text "b", .number (.natural 1)), (.number (.natural 1), .text "x")]),
    (.boolean true, .sequence [.mapping []]), (.text "b", .mapping [(.text "b", .boolean false)])]

/-- All four leaves have keys of their own. -/
theorem keeps_leaves_folders :
    IsUntagged (.mapping folders) ∧
      HasPlainTexts (.mapping folders) ∧ HasDistinctTexts (.mapping folders) ∧
      ∃ store, Store.ofValue (.mapping folders) = .ok store ∧ store.size = 4 := by
  have htags : IsUntagged (.mapping folders) := by
    simp [IsUntagged, folders, Value.parts, Value.partsOfPairs, Value.partsOfItems]
  have hkeys : HasPlainTexts (.mapping folders) := by
    simp [HasPlainTexts, folders, Value.parts, Value.partsOfPairs, Value.partsOfItems, or_imp,
      forall_and, keyText?]
    decide
  have hdistinct : HasDistinctTexts (.mapping folders) := by
    simp [HasDistinctTexts, folders, Value.parts, Value.partsOfPairs, Value.partsOfItems, or_imp,
      forall_and, keyText?]
    decide
  obtain ⟨store, hstore, -, -, hkeeps⟩ := keeps_leaves htags hkeys
  exact ⟨htags, hkeys, hdistinct, store, hstore, (hkeeps (.inr hdistinct)).size⟩

/-- Two leaves with chains of their own leave one value behind. -/
structure IsLost (pairs : List (Value × Value)) : Prop where
  isUntagged : IsUntagged (.mapping pairs)
  plain : HasPlainTexts (.mapping pairs)
  noDuplicate : Value.hasDuplicate pairs = false
  chains : ((Value.mapping pairs).leaves.map Prod.fst).Nodup
  leaves : (Value.mapping pairs).leaves.length = 2
  size : (SortedMap.ofList (flatten "" pairs)).size = 1

/-- A leaf is lost beside another one whose key has the same text, and
beside one below an empty key. -/
theorem exists_lost :
    IsLost [(.number (.natural 1), .text "a"), (.text "1", .text "b")] ∧
      IsLost [(.text "", .mapping [(.text "a", .number (.natural 1))]),
        (.text "a", .number (.natural 2))] := by
  constructor
  · refine ⟨?_, ?_, by decide, ?_, rfl, by decide⟩
    · simp [IsUntagged, Value.parts, Value.partsOfPairs]
    · simp [HasPlainTexts, Value.parts, Value.partsOfPairs, or_imp, forall_and, keyText?]
      decide
    · simp [Value.leaves, Value.leavesOfPairs]
  · refine ⟨?_, ?_, by decide, ?_, rfl, by decide⟩
    · simp [IsUntagged, Value.parts, Value.partsOfPairs]
    · simp [HasPlainTexts, Value.parts, Value.partsOfPairs, or_imp, forall_and, keyText?]
    · simp [Value.leaves, Value.leavesOfPairs]

end AtomProbe.Metadata
