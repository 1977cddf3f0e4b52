import AtomProbe.Metadata.Load
import AtomProbe.Proofs.SortedMap
import AtomProbe.Proofs.Template.Value
import AtomProbe.Proofs.Yaml.Number
import AtomProbe.Proofs.Yaml.Tree.Value
import AtomProbe.Template.Document

/-!
# `AtomProbe.Proofs.Template.Document`: the hand-off loses nothing

The text of a template is read back as the store of its values
(`Template.store_ofText_document`): each path is a key, a scalar keeps its
kind and an array becomes the list of its items. From such a list the
array is found again, but for an empty one, which says nothing of the
kind of its items.

The paths are joined keys already. They stay in one piece, since the
reader goes into mappings only, and a template has none.
-/

set_option autoImplicit false

namespace AtomProbe

open Yaml (Tree Value)

namespace TemplateValue

/-! ### What a value comes back as -/

/-- The metadata value that is read from the text of a value. -/
def metadata : TemplateValue → Metadata
  | .text s => .text s
  | .boolean b => .boolean b
  | .integer n => .integer n
  | .real x => .real x
  | .texts items => .list (items.map .text)
  | .integers items => .list (items.map .integer)
  | .reals items => .list (items.map .real)

/-- A value without the kind of the items, where there are none. -/
def withoutKind : TemplateValue → TemplateValue
  | .integers [] => .texts []
  | .reals [] => .texts []
  | value => value

/-- An array is found again in the list of its items. -/
theorem ofMetadata?_metadata (value : TemplateValue) :
    ofMetadata? value.metadata = some value.withoutKind := by
  -- an empty array of numbers is found again as an empty array of texts
  cases value with
  | text | boolean | integer | real => rfl
  | texts items => exact ofItems?_texts items
  | integers items =>
    cases items with
    | nil => rfl
    | cons n items =>
      have hread := ofItems?_numbers (f := .integer) (g := .integer) (fun _ => ⟨rfl, rfl⟩)
        (List.cons_ne_nil n items)
      rw [ofNumbers_integers] at hread
      exact hread
  | reals items =>
    cases items with
    | nil => rfl
    | cons x items =>
      have hread := ofItems?_numbers (f := .real) (g := .real) (fun _ => ⟨rfl, rfl⟩)
        (List.cons_ne_nil x items)
      rw [ofNumbers_reals (List.cons_ne_nil x items)] at hread
      exact hread

/-! ### Values as trees -/

/-- The text of an integer is read as the integer. -/
theorem spells_integer (n : Int64) :
    ∃ m, Tree.Spells (toString n.toInt) (.number m) ∧ Metadata.ofNumber m = .integer n := by
  by_cases hn : n.toInt < 0
  · exact ⟨_, Tree.spells_negative hn, rfl⟩
  · -- an integer that is not negative is written as a natural number
    have hlt : n.toInt < Int.pow 2 63 := n.toInt_lt
    have hpow : Int.pow 2 63 = ((Nat.pow 2 63 : Nat) : Int) := by decide
    have hnat : n.toInt.toNat < Nat.pow 2 63 := by omega
    have hsize : Nat.pow 2 63 < UInt64.size := by decide
    have hword : (UInt64.ofNat n.toInt.toNat).toNat = n.toInt.toNat :=
      UInt64.toNat_ofNat_of_lt' (by omega)
    have hint : ((n.toInt.toNat : Nat) : Int) = n.toInt := by omega
    refine ⟨.natural (UInt64.ofNat n.toInt.toNat), ?_, ?_⟩
    · have hspells := Tree.spells_natural (UInt64.ofNat n.toInt.toNat)
      have htext : toString n.toInt.toNat = toString n.toInt := by
        conv => rhs; rw [← hint]
        rfl
      rw [hword, htext] at hspells
      exact hspells
    · rw [Metadata.ofNumber, hword, if_pos hnat]
      rw [← Int64.ofInt_eq_ofNat, hint, Int64.ofInt_toInt]

/-- A word that spells a scalar, and what is read from it. -/
theorem wordValue_of_spells {s : String} {v : Yaml.Scalar} (h : Tree.Spells s v) :
    Tree.wordValue s = .ofScalar v := by
  rw [Tree.wordValue, h.resolve]

/-- The items of a sequence without mappings become a list. -/
theorem ofLeaf?_sequence {α : Type} {f : α → Value} {g : α → Metadata} {items : List α}
    (h : ∀ a ∈ items, Metadata.isMapping (f a) = false ∧ Metadata.ofLeaf? (f a) = some (g a)) :
    Metadata.ofLeaf? (.sequence (items.map f)) = some (.list (items.map g)) := by
  have hmapping : (!(items.map f).isEmpty && (items.map f).all Metadata.isMapping) = false := by
    cases items with
    | nil => rfl
    | cons a items => simp [(h a List.mem_cons_self).1]
  have hitems : Metadata.ofItems (items.map f) = items.map g := by
    clear hmapping
    induction items with
    | nil => rfl
    | cons a items ih =>
      rw [List.map_cons, Metadata.ofItems, (h a List.mem_cons_self).2,
        ih fun b hb => h b (List.mem_cons_of_mem _ hb)]
      rfl
  rw [Metadata.ofLeaf?, hmapping, hitems]
  rfl

/-- What is asked of the text of a value: it can be written, and its
value is read as metadata. -/
structure IsLeaf (depth : Nat) (tree : Tree) (metadata : Metadata) : Prop where
  isProper : tree.IsProper depth
  isMapping : Metadata.isMapping tree.value = false
  ofLeaf : Metadata.ofLeaf? tree.value = some metadata

theorem isLeaf_text (depth : Nat) (s : String) : IsLeaf depth (.text s) (.text s) :=
  ⟨.text depth s, rfl, rfl⟩

theorem isLeaf_word {depth : Nat} {s : String} {v : Yaml.Scalar} (h : Tree.Spells s v)
    {metadata : Metadata} (hread : Metadata.isMapping (.ofScalar v) = false ∧
      Metadata.ofLeaf? (.ofScalar v) = some metadata) : IsLeaf depth (.word s) metadata := by
  have hvalue : Tree.value (.word s) = .ofScalar v := wordValue_of_spells h
  refine ⟨.word depth h.ne_empty h.admitsPlain h.resolve, ?_, ?_⟩
  · rw [hvalue]
    exact hread.1
  · rw [hvalue]
    exact hread.2

theorem isLeaf_integer (depth : Nat) (n : Int64) : IsLeaf depth (integerWord n) (.integer n) := by
  obtain ⟨m, hspells, hnumber⟩ := spells_integer n
  refine isLeaf_word hspells ⟨rfl, ?_⟩
  rw [Value.ofScalar, Metadata.ofLeaf?, hnumber]

theorem isLeaf_real (depth : Nat) (x : Float) : IsLeaf depth (realWord x) (.real x) :=
  isLeaf_word (Tree.spells_real x) ⟨rfl, rfl⟩

theorem isLeaf_sequence {depth : Nat} {α : Type} {f : α → Tree} {g : α → Metadata} {items : List α}
    (h : ∀ a ∈ items, IsLeaf depth (f a) (g a)) :
    IsLeaf (depth + 1) (.sequence (items.map f)) (.list (items.map g)) := by
  have hvalue : Tree.value (.sequence (items.map f)) =
      .sequence (items.map fun a => (f a).value) := by
    rw [Tree.value, Tree.itemValues_eq_map, List.map_map]
    rfl
  refine ⟨.sequence ?_, ?_, ?_⟩
  · simpa using fun a ha => (h a ha).isProper
  · rfl
  · rw [hvalue]
    exact ofLeaf?_sequence fun a ha => ⟨(h a ha).isMapping, (h a ha).ofLeaf⟩

/-- The text of a value is read as its metadata. -/
theorem isLeaf_tree (depth : Nat) (value : TemplateValue) :
    IsLeaf (depth + 1) value.tree value.metadata := by
  cases value with
  | text s => exact isLeaf_text _ s
  | boolean b => exact isLeaf_word (Tree.spells_boolean b) ⟨rfl, rfl⟩
  | integer n => exact isLeaf_integer _ n
  | real x => exact isLeaf_real _ x
  | texts items => exact isLeaf_sequence fun s _ => isLeaf_text depth s
  | integers items => exact isLeaf_sequence fun n _ => isLeaf_integer depth n
  | reals items => exact isLeaf_sequence fun x _ => isLeaf_real depth x

end TemplateValue

/-! ### Whole templates -/

namespace Template

open TemplateValue (IsLeaf)

/-- A value that is no mapping stays under its key. -/
theorem flatten_cons {key : String} {value : Value} {metadata : Metadata}
    (hmapping : Metadata.isMapping value = false) (hleaf : Metadata.ofLeaf? value = some metadata)
    (pairs : List (Value × Value)) :
    Metadata.flatten "" ((.text key, value) :: pairs) =
      (key, metadata) :: Metadata.flatten "" pairs := by
  cases value with
  | mapping => cases hmapping
  | _ => simp [Metadata.flatten, Metadata.keyText?, Metadata.joinKey, hleaf]

/-- Pairs of texts and leaves stay as they are. -/
theorem flatten_pairValues {α : Type} {f : α → Tree} {g : α → Metadata} {pairs : List (String × α)}
    {depth : Nat} (h : ∀ p ∈ pairs, IsLeaf depth (f p.2) (g p.2)) :
    Metadata.flatten "" (Tree.pairValues (pairs.map fun p => (p.1, f p.2))) =
      pairs.map fun p => (p.1, g p.2) := by
  induction pairs with
  | nil => rfl
  | cons p pairs ih =>
    have hleaf := h p List.mem_cons_self
    rw [List.map_cons, Tree.pairValues, flatten_cons hleaf.isMapping hleaf.ofLeaf,
      ih fun q hq => h q (List.mem_cons_of_mem _ hq), List.map_cons]

/-- The text of a template is read back as the store of its values, and
each value is found again in what is stored. -/
theorem store_ofText_document (template : Template) :
    Store.ofText template.document = .ok (template.map TemplateValue.metadata) ∧
      ∀ path, ((template.map TemplateValue.metadata).get? path).bind TemplateValue.ofMetadata? =
        (template.get? path).map TemplateValue.withoutKind := by
  refine ⟨?_, fun path => ?_⟩
  · -- one level is left below the mapping of the paths
    have hleaves : ∀ p ∈ template.toList, IsLeaf 127 p.2.tree p.2.metadata := fun p _ =>
      p.2.isLeaf_tree 126
    have hproper : Tree.IsProper Value.maximalDepth
        (.mapping (template.toList.map fun p => (p.1, p.2.tree))) := by
      refine .mapping ?_ ?_
      · rw [List.map_map]
        exact template.nodup_keys
      · intro pair hpair
        obtain ⟨p, hp, rfl⟩ := List.mem_map.1 hpair
        exact (hleaves p hp).isProper
    have hdocument : template.document =
        Tree.document (template.toList.map fun p => (p.1, p.2.tree)) := rfl
    rw [Store.ofText, Store.parse, hdocument, Value.ofText_document hproper]
    show Store.ofValue (.mapping (Tree.pairValues _)) = _
    have hstore : SortedMap.ofList (Metadata.flatten ""
        (Tree.pairValues (template.toList.map fun p => (p.1, p.2.tree)))) =
          template.map TemplateValue.metadata := by
      rw [flatten_pairValues hleaves]
      exact (template.map TemplateValue.metadata).ofList_toList
    rw [← hstore]
    rfl
  · rw [SortedMap.get?_map, Option.bind_map]
    cases template.get? path with
    | none => rfl
    | some value => exact value.ofMetadata?_metadata

/-- Real numbers and texts that look like something else, under paths of
several words. -/
theorem store_ofText_document_measurement :
    Store.ofText (document (.ofList [("ion/charge", .text "1e3"), ("ion/mass", .reals [0.1, -2.5]),
        ("note", .text " null\n"), ("rows", .integers [])])) =
      .ok (.ofList [("ion/charge", .text "1e3"), ("ion/mass", .list [.real 0.1, .real (-2.5)]),
        ("note", .text " null\n"), ("rows", .list [])]) :=
  (store_ofText_document (.ofList [("ion/charge", .text "1e3"), ("ion/mass", .reals [0.1, -2.5]),
    ("note", .text " null\n"), ("rows", .integers [])])).1.trans rfl

end Template

end AtomProbe
