/-!
# `AtomProbe.SortedMap`: values under text keys, in the order of the keys

Both sides of a conversion are tables of this kind: the flattened
metadata of a document, and the template that is handed on. A key is
held once, a later insertion under it replaces the value, and the
entries stand in ascending order of their keys. The order of `String`
is that of the code points, which is also the order of the UTF-8
bytes, so a listing does not depend on the order of the insertions.

Main statements:

- `SortedMap.get?_insert`: the last value written under a key is the
  one that is read, and no other key is touched;
- `SortedMap.ext_get?`: two maps that answer alike are equal.
-/

set_option autoImplicit false

namespace AtomProbe

/-! ### Insertion into an ascending list of pairs -/

namespace Entries

variable {α : Type}

/-- Put `value` under `key` before the first larger key, in place of
the pair that has the same key. -/
def insert (key : String) (value : α) : List (String × α) → List (String × α)
  | [] => [(key, value)]
  | (k, v) :: rest =>
    if key < k then (key, value) :: (k, v) :: rest
    else if key = k then (key, value) :: rest
    else (k, v) :: insert key value rest

/-- Strictly ascending keys: no key occurs twice. -/
def Ascending (entries : List (String × α)) : Prop :=
  entries.Pairwise fun a b => a.1 < b.1

theorem mem_of_mem_insert {key : String} {value : α} {p : String × α}
    {entries : List (String × α)} (h : p ∈ insert key value entries) :
    p = (key, value) ∨ p ∈ entries := by
  induction entries with
  | nil => simpa [insert] using h
  | cons hd tl ih =>
    obtain ⟨k, v⟩ := hd
    rw [insert] at h
    split at h
    · simpa using h
    · split at h
      · rcases List.mem_cons.1 h with h | h
        · exact .inl h
        · exact .inr (List.mem_cons_of_mem _ h)
      · rcases List.mem_cons.1 h with h | h
        · exact .inr (h ▸ List.mem_cons_self)
        · exact (ih h).imp_right (List.mem_cons_of_mem _)

theorem lt_of_not_lt_of_ne {a b : String} (h : ¬ a < b) (hne : a ≠ b) : b < a := by
  rcases String.le_total a b with hab | hba
  · refine String.not_le.1 fun hba => hne (String.le_antisymm hab ?_)
    exact fun h' => h h'
  · exact String.not_le.1 fun hab => hne (String.le_antisymm hab hba)

theorem ascending_insert (key : String) (value : α) {entries : List (String × α)}
    (h : Ascending entries) : Ascending (insert key value entries) := by
  induction entries with
  | nil => simp [insert, Ascending]
  | cons hd tl ih =>
    obtain ⟨k, v⟩ := hd
    have ⟨hk, htl⟩ := List.pairwise_cons.1 h
    rw [insert]
    split
    · next hlt =>
      refine List.pairwise_cons.2 ⟨fun p hp => ?_, h⟩
      rcases List.mem_cons.1 hp with rfl | hp
      · exact hlt
      · exact String.lt_trans hlt (hk p hp)
    · next hlt =>
      split
      · next heq => exact List.pairwise_cons.2 ⟨fun p hp => heq ▸ hk p hp, htl⟩
      · next hne =>
        refine List.pairwise_cons.2 ⟨fun p hp => ?_, ih htl⟩
        rcases mem_of_mem_insert hp with rfl | hp
        · exact lt_of_not_lt_of_ne hlt hne
        · exact hk p hp

/-- The value of the first pair with the key. -/
def find? (key : String) : List (String × α) → Option α
  | [] => none
  | (k, v) :: rest => if key = k then some v else find? key rest

theorem find?_insert (key : String) (value : α) (entries : List (String × α))
    (k : String) :
    find? k (insert key value entries) = if k = key then some value else find? k entries := by
  induction entries with
  | nil => simp [insert, find?]
  | cons hd tl ih =>
    obtain ⟨k', v'⟩ := hd
    rw [insert]
    split
    · simp [find?]
    · split
      · next heq => subst heq; by_cases hk : k = key <;> simp [find?, hk]
      · next hne =>
        by_cases hk : k = k'
        · subst hk; simp [find?, Ne.symm hne]
        · simp [find?, hk, ih]

theorem find?_eq_none_of_lt {key : String} {entries : List (String × α)}
    (h : ∀ p ∈ entries, key < p.1) : find? key entries = none := by
  induction entries with
  | nil => rfl
  | cons hd tl ih =>
    have hne : key ≠ hd.1 := fun he =>
      String.lt_irrefl key (he ▸ h hd List.mem_cons_self : key < key)
    simp [find?, hne, ih fun p hp => h p (List.mem_cons_of_mem _ hp)]

theorem ext_find? {xs ys : List (String × α)} (hx : Ascending xs) (hy : Ascending ys)
    (h : ∀ k, find? k xs = find? k ys) : xs = ys := by
  induction xs generalizing ys with
  | nil =>
    cases ys with
    | nil => rfl
    | cons p ys => simpa [find?] using h p.1
  | cons p xs ih =>
    obtain ⟨k, v⟩ := p
    have ⟨hk, hxs⟩ := List.pairwise_cons.1 hx
    cases ys with
    | nil => simpa [find?] using h k
    | cons q ys =>
      obtain ⟨l, w⟩ := q
      have ⟨hl, hys⟩ := List.pairwise_cons.1 hy
      -- the smaller of two first keys would be a key of one list alone
      have hkl : k = l := by
        apply Decidable.byContradiction
        intro hne
        have h1 : find? k ys = some v := by simpa [find?, hne] using (h k).symm
        have h2 : find? l xs = some w := by simpa [find?, Ne.symm hne] using h l
        by_cases hlt : k < l
        · have := find?_eq_none_of_lt (fun p hp => String.lt_trans hlt (hl p hp))
          simp [h1] at this
        · have hlt := lt_of_not_lt_of_ne hlt hne
          have := find?_eq_none_of_lt (fun p hp => String.lt_trans hlt (hk p hp))
          simp [h2] at this
      subst hkl
      have hvw : v = w := by simpa [find?] using h k
      subst hvw
      have : xs = ys := by
        refine ih hxs hys fun m => ?_
        by_cases hm : m = k
        · subst hm
          rw [find?_eq_none_of_lt hk, find?_eq_none_of_lt hl]
        · simpa [find?, hm] using h m
      rw [this]

end Entries

/-- Values under text keys, each key once, in ascending order. -/
structure SortedMap (α : Type) where
  /-- The keys and their values. -/
  entries : List (String × α)
  /-- The keys ascend strictly. -/
  ascending : Entries.Ascending entries

namespace SortedMap

variable {α : Type}

/-- The map without keys. -/
def empty : SortedMap α := ⟨[], .nil⟩

instance : EmptyCollection (SortedMap α) := ⟨empty⟩
instance : Inhabited (SortedMap α) := ⟨empty⟩

/-- Write `value` under `key`. An earlier value of the key is replaced. -/
def insert (m : SortedMap α) (key : String) (value : α) : SortedMap α :=
  ⟨Entries.insert key value m.entries, Entries.ascending_insert key value m.ascending⟩

/-- The value under `key`. -/
def get? (m : SortedMap α) (key : String) : Option α :=
  Entries.find? key m.entries

/-- Whether a value is held under `key`. -/
def contains (m : SortedMap α) (key : String) : Bool :=
  (m.get? key).isSome

/-- The number of keys. -/
def size (m : SortedMap α) : Nat := m.entries.length

/-- Whether the map has no keys. -/
def isEmpty (m : SortedMap α) : Bool := m.entries.isEmpty

/-- The keys and values in ascending order of the keys. -/
def toList (m : SortedMap α) : List (String × α) := m.entries

/-- Write pairs in order; of two pairs with one key the later stays. -/
def insertAll (m : SortedMap α) (pairs : List (String × α)) : SortedMap α :=
  pairs.foldl (fun m p => m.insert p.1 p.2) m

/-- The map written by a list of pairs, in order. -/
def ofList (pairs : List (String × α)) : SortedMap α := insertAll empty pairs

@[simp] theorem get?_empty (key : String) : (empty : SortedMap α).get? key = none := rfl

/-- The last value written under a key is read back, and no other key
is touched. -/
theorem get?_insert (m : SortedMap α) (key : String) (value : α) (k : String) :
    (m.insert key value).get? k = if k = key then some value else m.get? k :=
  Entries.find?_insert key value m.entries k

@[simp] theorem insertAll_nil (m : SortedMap α) : m.insertAll [] = m := rfl

@[simp] theorem insertAll_cons (m : SortedMap α) (p : String × α) (ps : List (String × α)) :
    m.insertAll (p :: ps) = (m.insert p.1 p.2).insertAll ps := rfl

theorem insertAll_append (m : SortedMap α) (ps qs : List (String × α)) :
    m.insertAll (ps ++ qs) = (m.insertAll ps).insertAll qs := by
  simp [insertAll]

/-- Maps that answer alike are equal. -/
theorem ext_get? {m n : SortedMap α} (h : ∀ k, m.get? k = n.get? k) : m = n := by
  obtain ⟨xs, hx⟩ := m
  obtain ⟨ys, hy⟩ := n
  have : xs = ys := Entries.ext_find? hx hy h
  subst this
  rfl

end SortedMap

end AtomProbe
