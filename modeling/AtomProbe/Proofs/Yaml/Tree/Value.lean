import AtomProbe.Proofs.Yaml.Tree.Node
import AtomProbe.Yaml.Value

/-!
# `AtomProbe.Proofs.Yaml.Tree.Value`: a document that is written is read back

The document of a mapping stands for the value of the mapping
(`Value.ofText_document`). Its texts are read as texts in every style,
since a text that a reader would take for something else is never
written without quotes; its words are read by the schema.
-/

set_option autoImplicit false

namespace AtomProbe.Yaml

namespace Tree

/-! ### The value of a tree -/

/-- What a word stands for. -/
def wordValue (s : String) : Value :=
  match Schema.resolve s with
  | .ok v => .ofScalar v
  | .error _ => .null

mutual

/-- The value of a tree. -/
def value : Tree → Value
  | .word s => wordValue s
  | .text s => .text s
  | .sequence items => .sequence (itemValues items)
  | .mapping pairs => .mapping (pairValues pairs)

/-- The values of the entries of a sequence. -/
def itemValues : List Tree → List Value
  | [] => []
  | item :: items => value item :: itemValues items

/-- The values of the pairs of a mapping. -/
def pairValues : List (String × Tree) → List (Value × Value)
  | [] => []
  | (key, value) :: pairs => (.text key, value.value) :: pairValues pairs

end

theorem itemValues_eq_map (items : List Tree) : itemValues items = items.map value := by
  induction items with
  | nil => rfl
  | cons item items ih => rw [itemValues, ih, List.map_cons]

theorem pairValues_eq_map (pairs : List (String × Tree)) :
    pairValues pairs = pairs.map fun p => (.text p.1, p.2.value) := by
  induction pairs with
  | nil => rfl
  | cons pair pairs ih => rw [pairValues, ih, List.map_cons]

end Tree

open Yaml.Tree (itemNodes pairNodes itemValues pairValues)

/-! ### Anchors -/

namespace Document

/-- A tree without anchors keeps its node. -/
def IsUnnumbered (tree : Tree) : Prop :=
  ∀ names : Names, number names tree.node = .ok (tree.node, [], names)

theorem numberItems_itemNodes {items : List Tree} (h : ∀ item ∈ items, IsUnnumbered item)
    (names : Names) : numberItems names (itemNodes items) = .ok (itemNodes items, [], names) := by
  induction items with
  | nil => rfl
  | cons item items ih =>
    rw [itemNodes, numberItems, h item List.mem_cons_self names]
    show numberItems names (itemNodes items) >>= _ = _
    rw [ih fun t ht => h t (List.mem_cons_of_mem _ ht)]
    rfl

theorem numberPairs_pairNodes {pairs : List (String × Tree)}
    (h : ∀ pair ∈ pairs, IsUnnumbered pair.2) (names : Names) :
    numberPairs names (pairNodes pairs) = .ok (pairNodes pairs, [], names) := by
  induction pairs with
  | nil => rfl
  | cons pair pairs ih =>
    obtain ⟨key, value⟩ := pair
    have hvalue : number names value.node = .ok (value.node, [], names) :=
      h _ List.mem_cons_self names
    rw [pairNodes, numberPairs]
    show number names value.node >>= _ = _
    rw [hvalue]
    show numberPairs names (pairNodes pairs) >>= _ = _
    rw [ih fun t ht => h t (List.mem_cons_of_mem _ ht)]
    rfl

/-- What is written has no anchors. -/
theorem isUnnumbered_of_isProper {depth : Nat} {tree : Tree} (h : tree.IsProper depth) :
    IsUnnumbered tree := by
  intro names
  induction h generalizing names with
  | text | word => rfl
  | @sequence depth items _ ih =>
    show numberItems names (itemNodes items) >>= _ = _
    rw [numberItems_itemNodes ih]
    rfl
  | @mapping depth pairs _ _ ih =>
    show numberPairs names (pairNodes pairs) >>= _ = _
    rw [numberPairs_pairNodes ih]
    rfl

/-- The document of a mapping holds the node of the mapping, and nothing
that an alias could refer to. -/
theorem ofText_node {depth : Nat} {pairs : List (String × Tree)}
    (h : Tree.IsProper depth (.mapping pairs)) :
    ofText (Tree.document pairs) = .ok ⟨Tree.node (.mapping pairs), []⟩ := by
  unfold ofText
  rw [Tree.tokens_of_document h]
  show Node.ofTokens _ >>= _ = _
  rw [Node.ofTokens_mapping h]
  show number [] _ >>= _ = _
  rw [isUnnumbered_of_isProper h]
  rfl

end Document

/-! ### Values -/

namespace Value

/-- The value of a node is that of its tree, and no alias is followed. -/
def IsRead (d : Document) (depth : Nat) (tree : Tree) : Prop :=
  read d depth tree.node = pure tree.value

theorem mapM_itemNodes {d : Document} {depth : Nat} {items : List Tree}
    (h : ∀ item ∈ items, IsRead d depth item) :
    (itemNodes items).mapM (read d depth) = pure (itemValues items) := by
  induction items with
  | nil => rfl
  | cons item items ih =>
    have hitem : read d depth item.node = pure item.value := h item List.mem_cons_self
    rw [itemNodes, List.mapM_cons, hitem, ih fun t ht => h t (List.mem_cons_of_mem _ ht)]
    rfl

/-- Distinct keys are no duplicates. -/
theorem hasDuplicate_pairValues {pairs : List (String × Tree)}
    (h : (pairs.map Prod.fst).Nodup) : hasDuplicate (pairValues pairs) = false := by
  induction pairs with
  | nil => rfl
  | cons pair pairs ih =>
    obtain ⟨key, value⟩ := pair
    rw [List.map_cons, List.nodup_cons] at h
    rw [pairValues, hasDuplicate, ih h.2, Tree.pairValues_eq_map, Bool.or_false, List.any_eq_false]
    rintro p hp
    obtain ⟨q, hq, rfl⟩ := List.mem_map.1 hp
    have hmem : q.1 ∈ pairs.map Prod.fst := List.mem_map_of_mem hq
    have hne : key ≠ q.1 := fun heq => h.1 (heq ▸ hmem)
    simpa [same] using hne

theorem ofNode_scalar (style : ScalarStyle) (s : String) :
    ofNode none style s =
      if style = .plain then ofScalar <$> Schema.resolve s else .ok (.text s) := rfl

/-- A scalar that stands for a text stands for its own. -/
theorem eq_of_resolve_text {s t : String} (h : Schema.resolve s = .ok (.text t)) : t = s := by
  unfold Schema.resolve at h
  -- null, booleans and numbers stand for something else
  split at h
  · cases h
  · split at h
    · cases h
    · cases hwhole : Schema.wholeNumber? s.toList with
      | error e => rw [hwhole] at h; cases h
      | ok n =>
        rw [hwhole] at h
        cases n with
        | some n => cases h
        | none =>
          simp only [bind, Except.bind] at h
          split at h
          · split at h
            · cases h
            · cases h; rfl
          · cases h; rfl

/-- A text is read as a text in the style that it is written in. -/
theorem ofNode_text (s : String) : ofNode none (Tree.styleOf s.toList) s = .ok (.text s) := by
  have hstyled := Tree.styled s.toList
  rw [ofNode_scalar]
  generalize Tree.styleOf s.toList = style at hstyled ⊢
  cases hstyled with
  | plain hne hadmits htext =>
    rw [Tree.readsAsText, String.ofList_toList, Bool.and_eq_true] at htext
    obtain ⟨t, ht⟩ : ∃ t, Schema.resolve s = .ok (.text t) := by
      have hmatches := htext.2
      split at hmatches
      · next t heq => exact ⟨t, heq⟩
      · cases hmatches
    rw [if_pos rfl, ht, eq_of_resolve_text ht]
    rfl
  | singleQuoted | doubleQuoted | literal => rfl

theorem ofNode_word {s : String} {v : Scalar} (h : Schema.resolve s = .ok v) :
    ofNode none .plain s = .ok (Tree.wordValue s) := by
  rw [ofNode_scalar, if_pos rfl, h, Tree.wordValue, h]
  rfl

theorem read_scalar (d : Document) (depth : Nat) {style : ScalarStyle} {s : String} {v : Value}
    (h : ofNode none style s = .ok v) : read d depth (.scalar .none style s) = pure v := by
  have hread : read d depth (.scalar .none style s) =
      (liftM (ofNode none style s) : Reading Value) := by
    cases depth <;> rfl
  rw [hread, h]
  rfl

theorem mapM_pairNodes {d : Document} {depth : Nat} {pairs : List (String × Tree)}
    (h : ∀ pair ∈ pairs, IsRead d depth pair.2) :
    ((pairNodes pairs).mapM fun p => do return (← read d depth p.1, ← read d depth p.2)) =
      pure (pairValues pairs) := by
  induction pairs with
  | nil => rfl
  | cons pair pairs ih =>
    obtain ⟨key, value⟩ := pair
    have hvalue : read d depth value.node = pure value.value := h _ List.mem_cons_self
    rw [pairNodes, List.mapM_cons, ih fun t ht => h t (List.mem_cons_of_mem _ ht), hvalue,
      read_scalar d depth (ofNode_text key)]
    rfl

/-- Every proper tree is read. -/
theorem isRead_of_isProper (d : Document) {depth : Nat} {tree : Tree} (h : tree.IsProper depth) :
    IsRead d depth tree := by
  induction h with
  | text depth s => exact read_scalar d depth (ofNode_text s)
  | word depth hne hadmits hresolve => exact read_scalar d depth (ofNode_word hresolve)
  | @sequence depth items _ ih =>
    have hread : read d (depth + 1) (Tree.node (.sequence items)) =
        ((itemNodes items).mapM (read d depth) >>= fun values =>
          pure (withTag none (.sequence values))) := rfl
    rw [IsRead, hread, mapM_itemNodes ih]
    rfl
  | @mapping depth pairs hkeys _ ih =>
    have hread : read d (depth + 1) (Tree.node (.mapping pairs)) =
        (((pairNodes pairs).mapM fun p => do return (← read d depth p.1, ← read d depth p.2)) >>=
          fun values => do
            if hasDuplicate values then throw .duplicateKey
            return withTag none (.mapping values)) := rfl
    rw [IsRead, hread, mapM_pairNodes ih, pure_bind, hasDuplicate_pairValues hkeys]
    rfl

/-- The document of a mapping stands for the value of the mapping. -/
theorem ofText_document {pairs : List (String × Tree)}
    (h : Tree.IsProper maximalDepth (.mapping pairs)) :
    ofText (Tree.document pairs) = .ok (Tree.value (.mapping pairs)) := by
  rw [ofText, Document.ofText_node h]
  show (read _ maximalDepth (Tree.node (.mapping pairs))).run' _ = _
  rw [isRead_of_isProper _ h]
  rfl

end Value

end AtomProbe.Yaml
