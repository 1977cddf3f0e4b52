import Mathlib.Data.List.Dedup
import Mathlib.Data.List.Induction
import AtomProbe.Proofs.SortedMap
import AtomProbe.Proofs.Text.Bytes

/-!
# `AtomProbe.Proofs.SortedMap.Listing`: what a history of writes leaves

A map is filled by one write after another, and what is there in the end
depends on the last write under each key alone (`IsLastWrite`). One
write puts its own pair in the place of the pair with its key and leaves
the others (`mem_toList_insert`); a write at the end of a history does
the same to the last writes (`isLastWrite_concat`). So along the whole
history the map holds the last writes (`mem_toList_ofList`).

The rest of `IsListing` follows from the order of the keys, which is
that of their bytes: no key occurs twice, and the size is the number of
different keys. Nothing else of the history can be told from the map
(`ofList_eq_of_isLastWrite_iff`).
-/

set_option autoImplicit false

namespace AtomProbe.SortedMap

variable {α : Type}

/-! ### Last writes -/

/-- The value was written under the key, and behind it nothing else was. -/
def IsLastWrite (writes : List (String × α)) (key : String) (value : α) : Prop :=
  ∃ before after, writes = before ++ (key, value) :: after ∧ ∀ p ∈ after, p.1 ≠ key

theorem not_isLastWrite_nil (key : String) (value : α) : ¬ IsLastWrite [] key value := by
  rintro ⟨before, after, h, -⟩
  exact absurd h (by simp)

/-- A write at the end counts for its key. For the others it is as if it
were not there. -/
theorem isLastWrite_concat {writes : List (String × α)} {p : String × α} {key : String}
    {value : α} : IsLastWrite (writes ++ [p]) key value ↔
      p = (key, value) ∨ p.1 ≠ key ∧ IsLastWrite writes key value := by
  constructor
  · rintro ⟨before, after, h, hafter⟩
    -- the last write is `p`, or else it stands before `p`
    rcases List.eq_nil_or_concat after with rfl | ⟨after, q, rfl⟩
    · exact .inl (List.singleton_inj.1 (List.append_inj_right' h rfl))
    · rw [List.concat_eq_append] at h hafter
      rw [← List.cons_append, ← List.append_assoc] at h
      obtain ⟨hwrites, hq⟩ := List.append_inj' h rfl
      cases List.singleton_inj.1 hq
      exact .inr ⟨hafter p (by simp), before, after, hwrites,
        fun r hr => hafter r (List.mem_append_left _ hr)⟩
  · rintro (rfl | ⟨hne, before, after, rfl, hafter⟩)
    · exact ⟨writes, [], rfl, nofun⟩
    · refine ⟨before, after ++ [p], by simp, fun r hr => ?_⟩
      rcases List.mem_append.1 hr with hr | hr
      · exact hafter r hr
      · exact List.mem_singleton.1 hr ▸ hne

/-- Each key that is written has a last write. -/
theorem exists_isLastWrite_iff {writes : List (String × α)} {key : String} :
    (∃ value, IsLastWrite writes key value) ↔ key ∈ writes.map Prod.fst := by
  constructor
  · rintro ⟨value, before, after, rfl, -⟩
    simp
  · induction writes using List.reverseRecOn with
    | nil => nofun
    | append_singleton writes p ih =>
      intro h
      -- the write at the end is the last one of its key
      by_cases hkey : p.1 = key
      · exact ⟨p.2, isLastWrite_concat.2 (.inl (hkey ▸ rfl))⟩
      · have hbefore : key ∈ writes.map Prod.fst := by
          simpa [Ne.symm hkey] using h
        obtain ⟨value, hlast⟩ := ih hbefore
        exact ⟨value, isLastWrite_concat.2 (.inr ⟨hkey, hlast⟩)⟩

/-! ### What a map holds -/

/-- A pair is listed if its value is the one under its key. -/
theorem mem_toList_iff {m : SortedMap α} {key : String} {value : α} :
    (key, value) ∈ m.toList ↔ m.get? key = some value := by
  constructor
  · intro h
    have hget := get?_insertAll_of_mem m.nodup_keys empty h
    exact ofList_toList m ▸ hget
  · intro h
    rw [← ofList_toList m] at h
    exact mem_of_get?_ofList h

/-- One write replaces the pair with its key and leaves the others. -/
theorem mem_toList_insert {m : SortedMap α} {p : String × α} {key : String} {value : α} :
    (key, value) ∈ (m.insert p.1 p.2).toList ↔
      p = (key, value) ∨ p.1 ≠ key ∧ (key, value) ∈ m.toList := by
  rw [mem_toList_iff, mem_toList_iff, get?_insert]
  obtain ⟨k, v⟩ := p
  by_cases hkey : key = k
  · simp [hkey]
  · simp [hkey, Ne.symm hkey]

/-- A map holds the last writes of its history. By induction from the
last write, which comes before all others on both sides. -/
theorem mem_toList_ofList {writes : List (String × α)} {key : String} {value : α} :
    (key, value) ∈ (ofList writes).toList ↔ IsLastWrite writes key value := by
  induction writes using List.reverseRecOn with
  | nil => exact iff_of_false (List.not_mem_nil) (not_isLastWrite_nil key value)
  | append_singleton writes p ih =>
    have hstep : ofList (writes ++ [p]) = (ofList writes).insert p.1 p.2 :=
      insertAll_append empty writes [p]
    rw [hstep, mem_toList_insert, isLastWrite_concat, ih]

/-- Two histories with the same last writes fill the same map. -/
theorem ofList_eq_of_isLastWrite_iff {writes writes' : List (String × α)}
    (h : ∀ key value, IsLastWrite writes key value ↔ IsLastWrite writes' key value) :
    ofList writes = ofList writes' := by
  refine ext_get? fun key => Option.ext fun value => ?_
  rw [← mem_toList_iff, ← mem_toList_iff, mem_toList_ofList, mem_toList_ofList]
  exact h key value

/-! ### Listings -/

/-- The map is the listing of a history of writes. -/
structure IsListing (writes : List (String × α)) (m : SortedMap α) : Prop where
  /-- The bytes of the keys ascend strictly. -/
  ascending : m.toList.Pairwise fun p q => Text.bytes p.1 < Text.bytes q.1
  /-- Exactly the last writes are listed. -/
  last : ∀ key value, (key, value) ∈ m.toList ↔ IsLastWrite writes key value
  /-- Each key that was written is listed once. -/
  once : ∀ key ∈ writes.map Prod.fst, (m.toList.map Prod.fst).count key = 1
  /-- The size counts the different keys. -/
  size : m.size = (writes.map Prod.fst).dedup.length

/-- The keys of the last writes are those of all writes, and in a map
none of them occurs twice. -/
theorem isListing_of_last {writes : List (String × α)} {m : SortedMap α}
    (h : ∀ key value, (key, value) ∈ m.toList ↔ IsLastWrite writes key value) :
    IsListing writes m := by
  -- a key is listed exactly if it was written
  have hkeys (key : String) : key ∈ m.toList.map Prod.fst ↔ key ∈ writes.map Prod.fst := by
    have hwritten : (∃ value, IsLastWrite writes key value) ↔ key ∈ writes.map Prod.fst :=
      exists_isLastWrite_iff
    rw [← hwritten, List.mem_map]
    simp [← h]
  refine ⟨m.ascending.imp Text.bytes_lt_iff.2, h, fun key hkey => ?_, ?_⟩
  · exact List.count_eq_one_of_mem m.nodup_keys ((hkeys key).2 hkey)
  · -- neither list has a key twice, so with the same keys they are as long
    have hperm : (m.toList.map Prod.fst).Perm (writes.map Prod.fst).dedup :=
      (List.perm_ext_iff_of_nodup m.nodup_keys (List.nodup_dedup _)).2 fun key => by
        rw [hkeys, List.mem_dedup]
    rw [← hperm.length_eq, List.length_map]
    rfl

theorem isListing_ofList (writes : List (String × α)) : IsListing writes (ofList writes) :=
  isListing_of_last fun _ _ => mem_toList_ofList

end AtomProbe.SortedMap
