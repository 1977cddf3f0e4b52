import AtomProbe.Proofs.Config
import AtomProbe.Proofs.Files.Path
import Mathlib.Data.List.Nodup
import Mathlib.Data.Nat.Find

/-!
# `AtomProbe.Proofs.Config.Validity`: which configurations are refused

The identifiers are checked in order, and the first that cannot be used
is the one that is reported, whatever is wrong behind it.

* `checkIds_append`: the check goes on behind identifiers that pass, with
  all of them seen.
* `checkIds_of_isFirstUnusable`: what is reported of the first identifier
  that cannot be used.
* `validate_exact`: a configuration is refused for one of three causes,
  and otherwise its templates have different names.
-/

set_option autoImplicit false

namespace AtomProbe.Config

/-! ### The first identifier that cannot be used -/

/-- The identifier at a position is zero, or is that of an earlier
position as well. -/
def IsUnusable (ids : List UInt32) (i : Nat) (id : UInt32) : Prop :=
  ids[i]? = some id ∧ (id = 0 ∨ ∃ j < i, ids[j]? = some id)

/-- The identifier at a position cannot be used, and those in front of it
can. -/
def IsFirstUnusable (ids : List UInt32) (i : Nat) (id : UInt32) : Prop :=
  IsUnusable ids i id ∧ ∀ j < i, ∀ id', ¬ IsUnusable ids j id'

/-- What is reported of an identifier that cannot be used. -/
def refusal (id : UInt32) : ConfigError :=
  if id = 0 then .invalidId 0 else .duplicateId id

/-- Behind identifiers that pass, the check goes on with all of them
seen. -/
theorem checkIds_append (seen before after : List UInt32) :
    checkIds seen (before ++ after) =
      (checkIds seen before >>= fun _ => checkIds (before.reverse ++ seen) after) := by
  induction before generalizing seen with
  | nil => rfl
  | cons id before ih =>
    rw [List.cons_append, checkIds, checkIds]
    split
    · rfl
    · split
      · rfl
      · rw [ih, List.reverse_cons, List.append_assoc, List.singleton_append]

/-- Identifiers pass the check if all of them can be used. -/
theorem checkIds_eq_ok_iff_usable {ids : List UInt32} :
    checkIds [] ids = .ok () ↔ ∀ i id, ¬ IsUnusable ids i id := by
  rw [checkIds_eq_ok_iff, List.nodup_iff_getElem?_ne_getElem?]
  constructor
  · rintro ⟨hnodup, hids⟩ i id ⟨hi, rfl | ⟨j, hj, hsame⟩⟩
    · exact (hids 0 (List.mem_of_getElem? hi)).1 rfl
    · exact hnodup j i hj (List.getElem?_eq_some_iff.1 hi).1 (hsame.trans hi.symm)
  · intro husable
    refine ⟨fun j i hj hi hsame => ?_, fun id hid => ⟨?_, List.not_mem_nil⟩⟩
    · have hget := List.getElem?_eq_getElem hi
      exact husable i ids[i] ⟨hget, .inr ⟨j, hj, hsame.trans hget⟩⟩
    · rintro rfl
      obtain ⟨i, hi⟩ := List.getElem?_of_mem hid
      exact husable i 0 ⟨hi, .inl rfl⟩

theorem getElem?_take_eq_some_iff {ids : List UInt32} {i j : Nat} {id : UInt32} :
    (ids.take i)[j]? = some id ↔ j < i ∧ ids[j]? = some id := by
  rw [List.getElem?_take, Option.ite_none_right_eq_some]

/-- What stands behind a position does not matter to those in front of
it. -/
theorem IsUnusable.of_take {ids : List UInt32} {i j : Nat} {id : UInt32}
    (h : IsUnusable (ids.take i) j id) : j < i ∧ IsUnusable ids j id := by
  obtain ⟨hget, hcause⟩ := h
  obtain ⟨hj, hget⟩ := getElem?_take_eq_some_iff.1 hget
  refine ⟨hj, hget, hcause.imp_right ?_⟩
  rintro ⟨k, hk, hsame⟩
  exact ⟨k, hk, (getElem?_take_eq_some_iff.1 hsame).2⟩

/-- The first identifier that cannot be used is reported. -/
theorem checkIds_of_isFirstUnusable {ids : List UInt32} {i : Nat} {id : UInt32}
    (h : IsFirstUnusable ids i id) : checkIds [] ids = .error (refusal id) := by
  obtain ⟨⟨hget, hcause⟩, hfirst⟩ := h
  have hbefore : checkIds [] (ids.take i) = .ok () := by
    refine checkIds_eq_ok_iff_usable.2 fun j id' hunusable => ?_
    obtain ⟨hj, hunusable⟩ := hunusable.of_take
    exact hfirst j hj id' hunusable
  obtain ⟨hi, hid⟩ := List.getElem?_eq_some_iff.1 hget
  have hsplit : ids = ids.take i ++ id :: ids.drop (i + 1) := by
    rw [← hid, ← List.drop_eq_getElem_cons hi, List.take_append_drop]
  -- the identifiers before it pass, and it is the next to be checked
  rw [hsplit, checkIds_append, hbefore]
  show checkIds ((ids.take i).reverse ++ []) (id :: ids.drop (i + 1)) = _
  rw [checkIds, refusal]
  split
  · next hzero => rw [hzero]
  · next hzero =>
    obtain ⟨j, hj, hsame⟩ := hcause.resolve_left hzero
    have hseen : id ∈ (ids.take i).reverse ++ [] := by
      rw [List.append_nil, List.mem_reverse]
      exact List.mem_of_getElem? (getElem?_take_eq_some_iff.2 ⟨hj, hsame⟩)
    rw [if_pos hseen]

/-- If not all identifiers pass, there is a first that cannot be used. -/
theorem exists_isFirstUnusable {ids : List UInt32} (h : checkIds [] ids ≠ .ok ()) :
    ∃ i id, IsFirstUnusable ids i id := by
  classical
  rw [ne_eq, checkIds_eq_ok_iff_usable] at h
  push Not at h
  obtain ⟨id, hid⟩ := Nat.find_spec h
  exact ⟨Nat.find h, id, hid, fun j hj id' hunusable => Nat.find_min h hj ⟨id', hunusable⟩⟩

/-! ### The last name of a path -/

theorem isName_fileName (id : UInt32) : Path.IsName (fileName id) where
  nonempty := fun h => not_isDots_fileName id (.inl h)
  slash := slash_notMem_fileName id
  dot := fun h => not_isDots_fileName id (.inr (.inl h))

theorem fileName?_fileName (id : UInt32) : Path.fileName? (fileName id) = some (fileName id) :=
  Path.fileName?_name (isName_fileName id) fun hdots => not_isDots_fileName id (.inr (.inr hdots))

/-- Whatever the directory is called, the path of a template ends with
its name. -/
theorem fileName?_templatePath (config : Config) (id : UInt32) :
    Path.fileName? (config.templatePath id) = some (fileName id) := by
  change Path.fileName? (Path.join config.output (fileName id)) = _
  rw [Path.join]
  split
  · exact fileName?_fileName id
  · split
    · next hslash =>
      -- the slash at the end of the directory is the one before the name
      obtain ⟨before, hbefore⟩ := List.getLast?_eq_some_iff.1 hslash
      have houtput : config.output = String.ofList before ++ "/" := by
        rw [← String.toList_inj, hbefore, String.toList_append, String.toList_ofList]
        rfl
      rw [houtput, Path.fileName?_below (isName_fileName id), fileName?_fileName]
    · rw [Path.fileName?_below (isName_fileName id), fileName?_fileName]

/-! ### Configurations -/

/-- A configuration passes exactly if it has entries, and their
identifiers begin at one and differ. Otherwise it has no entries, or it is
refused for the first identifier that is zero or has been seen. If it
passes, the paths of the templates end with different names. -/
theorem validate_exact (config : Config) :
    let ids := config.entries.map (·.id)
    (config.validate = .ok () ↔ config.entries ≠ [] ∧ (∀ id ∈ ids, 1 ≤ id) ∧ ids.Nodup) ∧
    (config.entries = [] → config.validate = .error .noEntries) ∧
    (config.entries ≠ [] → config.validate ≠ .ok () → ∃ i id, IsFirstUnusable ids i id) ∧
    (∀ i id, IsFirstUnusable ids i id →
      config.validate = .error (if id = 0 then .invalidId 0 else .duplicateId id)) ∧
    (config.validate = .ok () →
      (config.entries.map fun entry => Path.fileName? (config.templatePath entry.id)).Nodup) := by
  intro ids
  refine ⟨?_, fun hempty => ?_, fun hentries hrefused => ?_, fun i id hfirst => ?_, fun hvalid => ?_⟩
  · have hzero (id : UInt32) : id ≠ 0 ↔ 1 ≤ id := by
      rw [UInt32.le_iff_toNat_le, ne_eq, ← UInt32.toNat_inj]
      show id.toNat ≠ 0 ↔ 1 ≤ id.toNat
      omega
    simp only [validate_eq_ok_iff, hzero]
    exact and_congr_right fun _ => and_comm
  · rw [validate, hempty]
    rfl
  · rw [validate, if_neg (by simpa using hentries)] at hrefused
    exact exists_isFirstUnusable hrefused
  · have hentries : config.entries ≠ [] := by
      rintro hempty
      have hget : ids[i]? = some id := hfirst.1.1
      simp [ids, hempty] at hget
    rw [validate, if_neg (by simpa using hentries)]
    exact checkIds_of_isFirstUnusable hfirst
  · simp only [fileName?_templatePath]
    -- different identifiers give different file names
    have hinjective : Function.Injective fun id => some (fileName id) := fun _ _ h =>
      fileName_injective (Option.some.inj h)
    have hnodup := (nodup_ids_of_validate hvalid).map hinjective
    rw [List.map_map] at hnodup
    exact hnodup

/-- Entries without inputs. -/
def bare (ids : List UInt32) : Config := ⟨"out", false, ids.map fun id => ⟨id, none, none, none⟩⟩

/-- Of a repeated identifier and a zero behind it the former is reported;
and a name of five digits is not that of one with four. -/
theorem validate_exact_repeated :
    (IsFirstUnusable [3, 12345, 3, 0] 2 3 ∧
      (bare [3, 12345, 3, 0]).validate = .error (.duplicateId 3)) ∧
    (bare [1234, 12345]).validate = .ok () ∧
      ((bare [1234, 12345]).entries.map fun entry =>
        Path.fileName? ((bare [1234, 12345]).templatePath entry.id)).Nodup := by
  have hfirst : IsFirstUnusable [3, 12345, 3, 0] 2 3 := by
    refine ⟨⟨rfl, .inr ⟨0, by decide, rfl⟩⟩, fun j hj id hunusable => ?_⟩
    obtain ⟨hget, hcause⟩ := hunusable
    match j, hj with
    | 0, _ =>
      cases hget
      simp at hcause
    | 1, _ =>
      cases hget
      simp at hcause
  exact ⟨⟨hfirst, (validate_exact (bare [3, 12345, 3, 0])).2.2.2.1 2 3 hfirst⟩, rfl,
    (validate_exact (bare [1234, 12345])).2.2.2.2 rfl⟩

end AtomProbe.Config
