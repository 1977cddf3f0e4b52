import AtomProbe.Yaml.Value

/-!
# `AtomProbe.Proofs.Yaml.Leaves`: the parts and the leaves of a value

What is said of a whole document is said of its parts: the values at
any depth, below the keys of its mappings and among the items of its
sequences. Its leaves are the parts that are reached through keys
alone, and each has the chain of keys that leads to it. Nothing here
looks into a key.
-/

set_option autoImplicit false

namespace AtomProbe.Yaml.Value

/-- Whether a value is a null. -/
def isNull : Value → Bool
  | .null => true
  | _ => false

/-! ### Parts -/

mutual

/-- A value and all values in it. -/
def parts : Value → List Value
  | .sequence items => .sequence items :: partsOfItems items
  | .mapping pairs => .mapping pairs :: partsOfPairs pairs
  | .tagged tag value => .tagged tag value :: parts value
  | value => [value]

/-- The parts of the items of a sequence. -/
def partsOfItems : List Value → List Value
  | [] => []
  | item :: items => parts item ++ partsOfItems items

/-- The parts of the values of a mapping. -/
def partsOfPairs : List (Value × Value) → List Value
  | [] => []
  | (_, value) :: pairs => parts value ++ partsOfPairs pairs

end

theorem self_mem_parts (value : Value) : value ∈ value.parts := by
  cases value <;> simp [parts]

theorem partsOfItems_eq_flatMap (items : List Value) :
    partsOfItems items = items.flatMap parts := by
  induction items with
  | nil => rfl
  | cons item items ih => rw [partsOfItems, ih, List.flatMap_cons]

theorem partsOfPairs_eq_flatMap (pairs : List (Value × Value)) :
    partsOfPairs pairs = pairs.flatMap fun pair => pair.2.parts := by
  induction pairs with
  | nil => rfl
  | cons pair pairs ih => rw [partsOfPairs, ih, List.flatMap_cons]

theorem parts_subset_sequence {items : List Value} {item : Value} (h : item ∈ items) :
    item.parts ⊆ (Value.sequence items).parts := by
  intro part hpart
  rw [parts, partsOfItems_eq_flatMap]
  exact List.mem_cons_of_mem _ (List.mem_flatMap_of_mem h hpart)

theorem parts_subset_mapping {pairs : List (Value × Value)} {pair : Value × Value}
    (h : pair ∈ pairs) : pair.2.parts ⊆ (Value.mapping pairs).parts := by
  intro part hpart
  rw [parts, partsOfPairs_eq_flatMap]
  exact List.mem_cons_of_mem _ (List.mem_flatMap_of_mem h hpart)

theorem parts_subset_tagged (tag : String) (value : Value) :
    value.parts ⊆ (Value.tagged tag value).parts :=
  fun _ => List.mem_cons_of_mem _

/-! ### Leaves -/

mutual

/-- The leaves of a value in the order of the document, each with the
chain of keys that leads to it. All but mappings and nulls are leaves. -/
def leaves : Value → List (List Value × Value)
  | .null => []
  | .mapping pairs => leavesOfPairs pairs
  | value => [([], value)]

/-- The leaves of the values of a mapping. -/
def leavesOfPairs : List (Value × Value) → List (List Value × Value)
  | [] => []
  | (key, value) :: pairs =>
    (leaves value).map (fun leaf => (key :: leaf.1, leaf.2)) ++ leavesOfPairs pairs

end

mutual

/-- A leaf is no null, and its parts are parts of the value. -/
theorem of_mem_leaves : (value : Value) →
    ∀ leaf ∈ value.leaves, leaf.2.parts ⊆ value.parts ∧ leaf.2.isNull = false
  | .null => nofun
  | .mapping pairs => fun leaf hleaf =>
    (of_mem_leavesOfPairs pairs leaf hleaf).imp_left fun hparts _ hpart =>
      List.mem_cons_of_mem _ (hparts hpart)
  | .boolean _ | .number _ | .text _ | .sequence _ | .tagged _ _ => by
    simp [leaves, isNull]

/-- The same for the leaves of a mapping. -/
theorem of_mem_leavesOfPairs : (pairs : List (Value × Value)) →
    ∀ leaf ∈ leavesOfPairs pairs, leaf.2.parts ⊆ partsOfPairs pairs ∧ leaf.2.isNull = false
  | [] => nofun
  | (_, value) :: pairs => by
    intro leaf hleaf
    rw [partsOfPairs]
    rcases List.mem_append.1 hleaf with hleaf | hleaf
    · obtain ⟨below, hbelow, rfl⟩ := List.mem_map.1 hleaf
      exact (of_mem_leaves value below hbelow).imp_left fun hparts _ hpart =>
        List.mem_append_left _ (hparts hpart)
    · exact (of_mem_leavesOfPairs pairs leaf hleaf).imp_left fun hparts _ hpart =>
        List.mem_append_right _ (hparts hpart)

end

mutual

/-- The keys on the way to a leaf are keys of mappings among the parts. -/
theorem mapping_of_mem_chain : (value : Value) → ∀ leaf ∈ value.leaves, ∀ key ∈ leaf.1,
    ∃ pairs, .mapping pairs ∈ value.parts ∧ ∃ pair ∈ pairs, pair.1 = key
  | .null => nofun
  | .mapping pairs => by
    intro leaf hleaf key hkey
    rcases mapping_of_mem_chain_pairs pairs leaf hleaf key hkey with hpair | ⟨nested, hnested⟩
    · exact ⟨pairs, self_mem_parts _, hpair⟩
    · exact ⟨nested, hnested.imp_left (List.mem_cons_of_mem _)⟩
  | .boolean _ | .number _ | .text _ | .sequence _ | .tagged _ _ => by simp [leaves]

/-- The same for the leaves of a mapping, whose own keys come first. -/
theorem mapping_of_mem_chain_pairs : (pairs : List (Value × Value)) →
    ∀ leaf ∈ leavesOfPairs pairs, ∀ key ∈ leaf.1, (∃ pair ∈ pairs, pair.1 = key) ∨
      ∃ nested, .mapping nested ∈ partsOfPairs pairs ∧ ∃ pair ∈ nested, pair.1 = key
  | [] => nofun
  | (first, value) :: pairs => by
    intro leaf hleaf key hkey
    simp only [partsOfPairs, List.mem_append]
    rcases List.mem_append.1 hleaf with hleaf | hleaf
    · obtain ⟨below, hbelow, rfl⟩ := List.mem_map.1 hleaf
      -- either the first key of the chain or one further down
      rcases List.mem_cons.1 hkey with rfl | hkey
      · exact .inl ⟨_, List.mem_cons_self, rfl⟩
      · obtain ⟨nested, hnested, hpair⟩ := mapping_of_mem_chain value below hbelow key hkey
        exact .inr ⟨nested, .inl hnested, hpair⟩
    · rcases mapping_of_mem_chain_pairs pairs leaf hleaf key hkey with ⟨pair, hpair, rfl⟩ | hnested
      · exact .inl ⟨pair, List.mem_cons_of_mem _ hpair, rfl⟩
      · obtain ⟨nested, hnested, hpair⟩ := hnested
        exact .inr ⟨nested, .inr hnested, hpair⟩

end

end AtomProbe.Yaml.Value
