import AtomProbe.SortedMap

/-!
# `AtomProbe.Proofs.SortedMap`: maps that are written in one go

A run writes many pairs into a map. What it leaves behind depends on
the pairs alone, up to the keys that no pair has:

- `SortedMap.get?_insertAll`: the written pairs, taken as a map of
  their own, come before the map they were written into;
- `SortedMap.get?_ofList_append`: of two runs the later one counts;
- `SortedMap.size_ofList`: pairs with distinct keys are all counted;
- `SortedMap.ofList_toList`: the pairs of a map, written in order,
  are the map again;
- `SortedMap.get?_erase`: without a key the others are as they were;
- `SortedMap.insertAll_eq_override`: to write pairs is to lay the map
  that they make over the one that is there.
-/

set_option autoImplicit false

namespace AtomProbe.SortedMap

variable {α : Type}

/-! ### The value under a key -/

theorem ofList_cons (p : String × α) (ps : List (String × α)) :
    ofList (p :: ps) = (empty.insert p.1 p.2).insertAll ps := rfl

/-- What was written comes before what was there. -/
theorem get?_insertAll (m : SortedMap α) (pairs : List (String × α)) (key : String) :
    (m.insertAll pairs).get? key = ((ofList pairs).get? key).or (m.get? key) := by
  induction pairs generalizing m with
  | nil => rfl
  | cons p ps ih =>
    have hm := ih (m.insert p.1 p.2)
    have he := ih (empty.insert p.1 p.2)
    rw [insertAll_cons, hm, get?_insert]
    rw [ofList_cons, he, get?_insert]
    by_cases h : key = p.1
    · simp [h]
    · simp [h]

/-- Of two lists of pairs the later one counts. -/
theorem get?_ofList_append (ps qs : List (String × α)) (key : String) :
    (ofList (ps ++ qs)).get? key = ((ofList qs).get? key).or ((ofList ps).get? key) := by
  rw [ofList, insertAll_append, get?_insertAll]
  rfl

/-- Only the keys of the pairs are in the map. -/
theorem get?_ofList_eq_none {pairs : List (String × α)} {key : String}
    (h : ∀ p ∈ pairs, p.1 ≠ key) : (ofList pairs).get? key = none := by
  induction pairs with
  | nil => rfl
  | cons p ps ih =>
    have hp : key ≠ p.1 := Ne.symm (h p List.mem_cons_self)
    have hps := ih fun q hq => h q (List.mem_cons_of_mem _ hq)
    rw [ofList_cons, get?_insertAll, hps, get?_insert, if_neg hp]
    rfl

/-- Where pairs come in groups, and only one of them has a key, that one
counts. -/
theorem get?_ofList_flatMap {β : Type} {f : β → List (String × α)} {xs : List β}
    (hnodup : xs.Nodup) {x : β} (hx : x ∈ xs) {key : String}
    (h : ∀ y ∈ xs, y ≠ x → ∀ p ∈ f y, p.1 ≠ key) :
    (ofList (xs.flatMap f)).get? key = (ofList (f x)).get? key := by
  obtain ⟨before, after, rfl⟩ := List.append_of_mem hx
  have hothers (ys : List β) (hys : ∀ y ∈ ys, y ∈ before ++ x :: after ∧ y ≠ x) :
      (ofList (ys.flatMap f)).get? key = none := by
    refine get?_ofList_eq_none fun p hp => ?_
    obtain ⟨y, hy, hp⟩ := List.mem_flatMap.1 hp
    exact h y (hys y hy).1 (hys y hy).2 p hp
  obtain ⟨-, hafter, hbefore⟩ := List.nodup_append.1 hnodup
  have hx' : x ∉ after := (List.nodup_cons.1 hafter).1
  rw [List.flatMap_append, List.flatMap_cons, get?_ofList_append, get?_ofList_append,
    hothers after fun y hy => ⟨by simp [hy], fun heq => hx' (heq ▸ hy)⟩,
    hothers before fun y hy => ⟨by simp [hy], hbefore y hy x List.mem_cons_self⟩,
    Option.none_or, Option.or_none]

/-- A value of the map stands in one of the pairs. -/
theorem mem_of_get?_ofList {pairs : List (String × α)} {key : String} {value : α}
    (h : (ofList pairs).get? key = some value) : (key, value) ∈ pairs := by
  induction pairs with
  | nil => cases h
  | cons p ps ih =>
    rw [ofList_cons, get?_insertAll] at h
    -- a later pair with the key counts before the first one
    cases hps : (ofList ps).get? key with
    | some v =>
      rw [hps] at h
      cases h
      exact List.mem_cons_of_mem _ (ih hps)
    | none =>
      rw [hps, Option.none_or, get?_insert] at h
      split at h
      · next hkey =>
        cases h
        exact hkey ▸ List.mem_cons_self
      · cases h

/-- The keys of the map are those of the pairs. -/
theorem contains_ofList {pairs : List (String × α)} {key : String} :
    (ofList pairs).contains key = true ↔ key ∈ pairs.map Prod.fst := by
  induction pairs with
  | nil => exact ⟨nofun, nofun⟩
  | cons p ps ih =>
    rw [contains] at ih
    rw [contains, ofList_cons, get?_insertAll, Option.isSome_or, Bool.or_eq_true, ih, get?_insert,
      List.map_cons, List.mem_cons, or_comm]
    by_cases hkey : key = p.1 <;> simp [hkey]

/-- If no key is written twice, each pair is read back. -/
theorem get?_insertAll_of_mem {pairs : List (String × α)} (h : (pairs.map Prod.fst).Nodup)
    (m : SortedMap α) {p : String × α} (hp : p ∈ pairs) :
    (m.insertAll pairs).get? p.1 = some p.2 := by
  induction pairs generalizing m with
  | nil => cases hp
  | cons q qs ih =>
    rw [List.map_cons, List.nodup_cons] at h
    rw [insertAll_cons]
    rcases List.mem_cons.1 hp with rfl | hp
    · have hfree : ∀ q ∈ qs, q.1 ≠ p.1 := fun q hq he => h.1 (he ▸ List.mem_map_of_mem hq)
      rw [get?_insertAll, get?_ofList_eq_none hfree, get?_insert, if_pos rfl]
      rfl
    · exact ih h.2 _ hp

/-! ### The number of keys -/

/-- A new key adds one to the size. -/
theorem size_insert_of_get?_eq_none {m : SortedMap α} {key : String} (value : α)
    (h : m.get? key = none) : (m.insert key value).size = m.size + 1 := by
  -- the order of the entries does not matter here
  suffices hlen : ∀ entries : List (String × α), Entries.find? key entries = none →
      (Entries.insert key value entries).length = entries.length + 1 from hlen m.entries h
  intro entries
  induction entries with
  | nil => intro _; rfl
  | cons p ps ih =>
    obtain ⟨k, v⟩ := p
    intro hfind
    rw [Entries.find?] at hfind
    split at hfind
    · cases hfind
    · next hne =>
      rw [Entries.insert]
      split
      · rfl
      · simp [ih hfind]

/-- Pairs with distinct keys are all counted. -/
theorem size_ofList {pairs : List (String × α)} (h : (pairs.map Prod.fst).Nodup) :
    (ofList pairs).size = pairs.length := by
  suffices hsize : ∀ (ps : List (String × α)) (m : SortedMap α), (ps.map Prod.fst).Nodup →
      (∀ p ∈ ps, m.get? p.1 = none) → (m.insertAll ps).size = m.size + ps.length by
    have := hsize pairs empty h fun _ _ => rfl
    rw [ofList, this]
    exact Nat.zero_add _
  intro ps
  induction ps with
  | nil => intro m _ _; rfl
  | cons p ps ih =>
    intro m hnodup hfree
    rw [List.map_cons, List.nodup_cons] at hnodup
    -- the keys behind `p` are still free once `p` is written
    have hfree' : ∀ q ∈ ps, (m.insert p.1 p.2).get? q.1 = none := by
      intro q hq
      have hne : q.1 ≠ p.1 := fun he => hnodup.1 (he ▸ List.mem_map_of_mem hq)
      rw [get?_insert, if_neg hne]
      exact hfree q (List.mem_cons_of_mem _ hq)
    rw [insertAll_cons, ih _ hnodup.2 hfree',
      size_insert_of_get?_eq_none _ (hfree p List.mem_cons_self), List.length_cons]
    omega

/-! ### The values of a map -/

variable {β : Type}

/-- The map with `f` applied to each value. -/
def map (f : α → β) (m : SortedMap α) : SortedMap β where
  entries := m.entries.map fun p => (p.1, f p.2)
  ascending := by
    rw [Entries.Ascending, List.pairwise_map]
    exact m.ascending

theorem get?_map (f : α → β) (m : SortedMap α) (key : String) :
    (m.map f).get? key = (m.get? key).map f := by
  show Entries.find? key (m.entries.map fun p => (p.1, f p.2)) =
    (Entries.find? key m.entries).map f
  induction m.entries with
  | nil => rfl
  | cons p ps ih =>
    rw [List.map_cons, Entries.find?, Entries.find?, ih]
    split <;> rfl

/-- No key of a map occurs twice. -/
theorem nodup_keys (m : SortedMap α) : (m.toList.map Prod.fst).Nodup := by
  rw [List.nodup_iff_pairwise_ne, List.pairwise_map]
  refine List.Pairwise.imp ?_ m.ascending
  intro p q hlt heq
  exact String.lt_irrefl p.1 (heq ▸ hlt)

/-- The pairs of a map are read back from the map that they make. -/
theorem ofList_toList (m : SortedMap α) : ofList m.toList = m := by
  refine ext_get? fun key => ?_
  show (ofList m.entries).get? key = Entries.find? key m.entries
  have hnodup : (m.entries.map Prod.fst).Nodup := m.nodup_keys
  generalize m.entries = entries at hnodup
  induction entries with
  | nil => rfl
  | cons p ps ih =>
    rw [List.map_cons, List.nodup_cons] at hnodup
    rw [ofList_cons, get?_insertAll, ih hnodup.2, get?_insert, Entries.find?]
    split
    · next hkey =>
      -- the key of `p` occurs in no later pair
      have hfree : (ofList ps).get? key = none :=
        get?_ofList_eq_none fun q hq he => hnodup.1 (hkey ▸ he ▸ List.mem_map_of_mem hq)
      rw [← ih hnodup.2, hfree]
      rfl
    · simp

/-- The pairs of a map are all there is to it. -/
theorem toList_injective {m n : SortedMap α} (h : m.toList = n.toList) : m = n := by
  rw [← ofList_toList m, h, ofList_toList]

theorem eq_empty_of_isEmpty {m : SortedMap α} (h : m.isEmpty = true) : m = .empty :=
  toList_injective (List.isEmpty_iff.1 h)

/-! ### One key less -/

/-- The map without a key. -/
def erase (m : SortedMap α) (key : String) : SortedMap α where
  entries := m.entries.filter fun p => p.1 != key
  ascending := m.ascending.filter _

theorem get?_erase (m : SortedMap α) (key k : String) :
    (m.erase key).get? k = if k = key then none else m.get? k := by
  show Entries.find? k (m.entries.filter fun p => p.1 != key) =
    if k = key then none else Entries.find? k m.entries
  induction m.entries with
  | nil => simp [Entries.find?]
  | cons p ps ih =>
    by_cases hp : p.1 = key
    · rw [List.filter_cons_of_neg (by simpa using hp), ih, Entries.find?, hp]
      split
      · rfl
      · rfl
    · rw [List.filter_cons_of_pos (by simpa using hp), Entries.find?, Entries.find?, ih]
      by_cases hk : k = key
      · simp [hk, Ne.symm hp]
      · simp [hk]

/-! ### One map over another -/

/-- The map with the values of `d`, and with its own under all other
keys. -/
def override (m d : SortedMap α) : SortedMap α := m.insertAll d.toList

theorem get?_override (m d : SortedMap α) (key : String) :
    (m.override d).get? key = (d.get? key).or (m.get? key) := by
  rw [override, get?_insertAll, ofList_toList]

/-- What is laid over nothing is found there as it is. -/
theorem get?_empty_override (d : SortedMap α) (key : String) :
    ((empty : SortedMap α).override d).get? key = d.get? key := by
  rw [get?_override]
  exact Option.or_none

/-- Of the pairs that are written only the map that they make counts. -/
theorem insertAll_eq_override (m : SortedMap α) (pairs : List (String × α)) :
    m.insertAll pairs = m.override (ofList pairs) :=
  ext_get? fun key => by rw [get?_insertAll, get?_override]

theorem ofList_append (ps qs : List (String × α)) :
    ofList (ps ++ qs) = (ofList ps).override (ofList qs) := by
  rw [ofList, insertAll_append, insertAll_eq_override]
  rfl

/-- To lay the same map over another one twice changes nothing. -/
theorem override_override_self (m d : SortedMap α) :
    (m.override d).override d = m.override d := by
  refine ext_get? fun key => ?_
  rw [get?_override, get?_override]
  cases d.get? key <;> rfl

end AtomProbe.SortedMap
