import AtomProbe.Proofs.Yaml.Tree.Lexer
import AtomProbe.Yaml.Node.Grammar

/-!
# `AtomProbe.Proofs.Yaml.Tree.Node`: the nodes of a document that is written

The tokens of a tree form its node (`Tree.node`), whatever tokens
follow them; only behind the entries of a sequence below a key there
must not stand another entry. A node takes at most three steps for each
token and two more.
-/

set_option autoImplicit false

namespace AtomProbe.Yaml

namespace Tree

mutual

/-- The node of a tree. -/
def node {ρ : Type} : Tree → Node ρ
  | .word s => .scalar .none .plain s
  | .text s => .scalar .none (styleOf s.toList) s
  | .sequence items => .sequence .none (itemNodes items)
  | .mapping pairs => .mapping .none (pairNodes pairs)

/-- The nodes of the entries of a sequence. -/
def itemNodes {ρ : Type} : List Tree → List (Node ρ)
  | [] => []
  | item :: items => node item :: itemNodes items

/-- The nodes of the pairs of a mapping. -/
def pairNodes {ρ : Type} : List (String × Tree) → List (Node ρ × Node ρ)
  | [] => []
  | (key, value) :: pairs =>
    (.scalar .none (styleOf key.toList) key, node value) :: pairNodes pairs

end

end Tree

namespace Grammar

open Yaml.Tree (tokens itemTokens pairTokens itemNodes pairNodes)

/-- The tokens of a tree form its node, in a block and with enough
steps. -/
def IsFormed (tree : Tree) : Prop :=
  ∀ (handles : Handles) (behindKey : Bool) {place : Place} {steps : Nat} {ts : List Token},
    place ≠ .flow → (behindKey = true → place = .blockPair ∧ ts.head? ≠ some .entry) →
    3 * (tree.tokens behindKey).length + 2 ≤ steps →
    node handles place steps (tree.tokens behindKey ++ ts) = .ok (tree.node, ts)

/-- The first token of a node ends no part of a collection around it. -/
theorem exists_head?_tokens (behindKey : Bool) (tree : Tree) :
    ∃ t, (tree.tokens behindKey).head? = some t ∧ endsBlockPart t = false ∧
      (behindKey = false → endsEntry t = false ∧ endsBareEntry t = false) := by
  cases tree with
  | text s => exact ⟨_, rfl, rfl, fun _ => ⟨rfl, rfl⟩⟩
  | word s => exact ⟨_, rfl, rfl, fun _ => ⟨rfl, rfl⟩⟩
  | sequence items =>
    cases items with
    | nil => exact ⟨_, rfl, rfl, fun _ => ⟨rfl, rfl⟩⟩
    | cons item items =>
      cases behindKey with
      | true => exact ⟨.entry, rfl, rfl, by simp⟩
      | false => exact ⟨_, rfl, rfl, fun _ => ⟨rfl, rfl⟩⟩
  | mapping pairs =>
    cases pairs with
    | nil => exact ⟨_, rfl, rfl, fun _ => ⟨rfl, rfl⟩⟩
    | cons pair pairs => exact ⟨_, rfl, rfl, fun _ => ⟨rfl, rfl⟩⟩

theorem ends_of_head? {behindKey : Bool} {tree : Tree} {t : Token}
    (h : (tree.tokens behindKey).head? = some t) :
    endsBlockPart t = false ∧ (behindKey = false → endsEntry t = false) ∧
      (behindKey = false → endsBareEntry t = false) := by
  obtain ⟨u, hu, hpart, hends⟩ := exists_head?_tokens behindKey tree
  rw [h] at hu
  cases hu
  exact ⟨hpart, fun hb => (hends hb).1, fun hb => (hends hb).2⟩

section

variable (handles : Handles) {steps : Nat} {ts : List Token}

/-- A node that may be left out, but is not. -/
theorem optional_of_isFormed {tree : Tree} (h : IsFormed tree) (behindKey : Bool) {place : Place}
    (hplace : place ≠ .flow)
    (hbehind : behindKey = true → place = .blockPair ∧ ts.head? ≠ some .entry)
    {ends : Token → Bool}
    (hends : ∀ t, (tree.tokens behindKey).head? = some t → ends t = false)
    (hsteps : 3 * (tree.tokens behindKey).length + 3 ≤ steps) :
    optional handles place ends steps (tree.tokens behindKey ++ ts) = .ok (tree.node, ts) := by
  obtain ⟨t, ht, -⟩ := exists_head?_tokens behindKey tree
  obtain ⟨steps, rfl⟩ := Nat.exists_eq_add_of_le' (by omega : 1 ≤ steps)
  rw [optional, List.head?_append, ht, Option.some_or, Option.any_some, hends t ht,
    if_neg Bool.false_ne_true]
  exact h handles behindKey hplace hbehind (by omega)

/-- The entries of an indented sequence. -/
theorem entries_itemTokens {items : List Tree} (hitems : ∀ item ∈ items, IsFormed item)
    (hsteps : 3 * (itemTokens items).length + 1 ≤ steps) :
    entries handles steps (itemTokens items ++ .blockEnd :: ts) = .ok (itemNodes items, ts) := by
  induction items generalizing steps with
  | nil =>
    obtain ⟨steps, rfl⟩ := Nat.exists_eq_add_of_le' hsteps
    rfl
  | cons item items ih =>
    simp only [itemTokens, List.length_append, List.length_cons] at hsteps
    obtain ⟨steps, rfl⟩ := Nat.exists_eq_add_of_le' (by omega : 1 ≤ steps)
    have hitem : optional handles .block endsEntry steps
        (item.tokens false ++ (itemTokens items ++ .blockEnd :: ts)) = _ :=
      optional_of_isFormed handles (hitems item List.mem_cons_self) false (by decide) (by simp)
        (fun t ht => (ends_of_head? ht).2.1 rfl) (by omega)
    have hrest := ih (fun t ht => hitems t (List.mem_cons_of_mem _ ht)) (by omega : _ ≤ steps)
    -- one step for the dash, and the rest for the item and the entries behind it
    rw [itemTokens, List.cons_append, List.cons_append, List.append_assoc, entries, hitem]
    show entries handles steps _ >>= _ = _
    rw [hrest]
    rfl

/-- The entries of a sequence below a key. -/
theorem bareEntries_itemTokens {items : List Tree} (hitems : ∀ item ∈ items, IsFormed item)
    (hts : ts.head? ≠ some .entry) (hsteps : 3 * (itemTokens items).length + 1 ≤ steps) :
    bareEntries handles steps (itemTokens items ++ ts) = .ok (itemNodes items, ts) := by
  induction items generalizing steps with
  | nil =>
    obtain ⟨steps, rfl⟩ := Nat.exists_eq_add_of_le' hsteps
    cases ts with
    | nil => rfl
    | cons t ts => cases t <;> first | rfl | exact absurd rfl hts
  | cons item items ih =>
    simp only [itemTokens, List.length_append, List.length_cons] at hsteps
    obtain ⟨steps, rfl⟩ := Nat.exists_eq_add_of_le' (by omega : 1 ≤ steps)
    have hitem : optional handles .block endsBareEntry steps
        (item.tokens false ++ (itemTokens items ++ ts)) = _ :=
      optional_of_isFormed handles (hitems item List.mem_cons_self) false (by decide) (by simp)
        (fun t ht => (ends_of_head? ht).2.2 rfl) (by omega)
    have hrest := ih (fun t ht => hitems t (List.mem_cons_of_mem _ ht)) (by omega : _ ≤ steps)
    -- one step for the dash, and the rest for the item and the entries behind it
    rw [itemTokens, List.cons_append, List.cons_append, List.append_assoc, bareEntries, hitem]
    show bareEntries handles steps _ >>= _ = _
    rw [hrest]
    rfl

/-- The pairs of a mapping. -/
theorem blockPairs_pairTokens {pairs : List (String × Tree)}
    (hpairs : ∀ pair ∈ pairs, IsFormed pair.2)
    (hsteps : 3 * (pairTokens pairs).length + 1 ≤ steps) :
    blockPairs handles steps (pairTokens pairs ++ .blockEnd :: ts) =
      .ok (pairNodes pairs, ts) := by
  induction pairs generalizing steps with
  | nil =>
    obtain ⟨steps, rfl⟩ := Nat.exists_eq_add_of_le' hsteps
    rfl
  | cons pair pairs ih =>
    obtain ⟨key, value⟩ := pair
    simp only [pairTokens, List.length_append, List.length_cons] at hsteps
    obtain ⟨steps, rfl⟩ := Nat.exists_eq_add_of_le' (by omega : 3 ≤ steps)
    -- below a simple key a sequence has no tokens around it, and ends with the pair
    have hbehind : Tree.isSimpleKey key = true → Place.blockPair = .blockPair ∧
        (pairTokens pairs ++ .blockEnd :: ts).head? ≠ some .entry := by
      refine fun _ => ⟨rfl, ?_⟩
      cases pairs <;> simp [pairTokens]
    have hformed : IsFormed value := hpairs _ List.mem_cons_self
    have hvalue : optional handles .blockPair endsBlockPart (steps + 1)
        (value.tokens (Tree.isSimpleKey key) ++ (pairTokens pairs ++ .blockEnd :: ts)) = _ :=
      optional_of_isFormed handles hformed (Tree.isSimpleKey key) (by decide) hbehind
        (fun t ht => (ends_of_head? ht).1) (by omega)
    have hrest := ih (fun t ht => hpairs t (List.mem_cons_of_mem _ ht)) (by omega : _ ≤ steps + 2)
    rw [pairTokens]
    simp only [List.cons_append, List.append_assoc]
    rw [blockPairs]
    show optional handles .blockPair endsBlockPart (steps + 1) _ >>= _ = _
    rw [hvalue]
    show blockPairs handles (steps + 2) _ >>= _ = _
    rw [hrest]
    rfl

end

/-! ### Whole trees -/

/-- Every tree is formed by its tokens. -/
theorem isFormed_of_isProper {depth : Nat} {tree : Tree} (h : tree.IsProper depth) :
    IsFormed tree := by
  induction h with
  | text | word =>
    intro handles behindKey place steps ts _ _ hsteps
    obtain ⟨steps, rfl⟩ := Nat.exists_eq_add_of_le' (by omega : 1 ≤ steps)
    rfl
  | @sequence depth items _ ih =>
    intro handles behindKey place steps ts hplace hbehind hsteps
    cases items with
    | nil =>
      obtain ⟨steps, rfl⟩ := Nat.exists_eq_add_of_le' (by omega : 2 ≤ steps)
      rfl
    | cons item items =>
      obtain ⟨steps, rfl⟩ := Nat.exists_eq_add_of_le' (by omega : 1 ≤ steps)
      -- below a key the entries have no token that opens the sequence
      cases behindKey with
      | true =>
        obtain ⟨rfl, hts⟩ := hbehind rfl
        have hlength : 3 * (itemTokens (item :: items)).length + 2 ≤ steps + 1 := hsteps
        have hitems := bareEntries_itemTokens handles ih hts (Nat.le_of_succ_le_succ hlength)
        show bareEntries handles steps (itemTokens (item :: items) ++ ts) >>= _ = _
        rw [hitems]
        rfl
      | false =>
        have htokens : Tree.tokens false (.sequence (item :: items)) ++ ts =
            .sequenceStart :: (itemTokens (item :: items) ++ .blockEnd :: ts) := by
          simp [tokens]
        have hitems : entries handles steps (itemTokens (item :: items) ++ .blockEnd :: ts) = _ :=
          entries_itemTokens handles ih (by simp [tokens] at hsteps; omega)
        rw [htokens]
        show (if place = .flow then _ else entries handles steps _ >>= _) = _
        rw [if_neg hplace, hitems]
        rfl
  | @mapping depth pairs _ _ ih =>
    intro handles behindKey place steps ts hplace _ hsteps
    cases pairs with
    | nil =>
      obtain ⟨steps, rfl⟩ := Nat.exists_eq_add_of_le' (by omega : 2 ≤ steps)
      rfl
    | cons pair pairs =>
      obtain ⟨steps, rfl⟩ := Nat.exists_eq_add_of_le' (by omega : 1 ≤ steps)
      have htokens : Tree.tokens behindKey (.mapping (pair :: pairs)) ++ ts =
          .mappingStart :: (pairTokens (pair :: pairs) ++ .blockEnd :: ts) := by
        simp [tokens]
      have hpairs : blockPairs handles steps (pairTokens (pair :: pairs) ++ .blockEnd :: ts) = _ :=
        blockPairs_pairTokens handles ih (by simp [tokens] at hsteps; omega)
      rw [htokens]
      show (if place = .flow then _ else blockPairs handles steps _ >>= _) = _
      rw [if_neg hplace, hpairs]
      rfl

end Grammar

/-- The tokens of a mapping form its node. -/
theorem Node.ofTokens_mapping {depth : Nat} {pairs : List (String × Tree)}
    (h : Tree.IsProper depth (.mapping pairs)) :
    Node.ofTokens (Tree.tokens false (.mapping pairs)) = .ok (Tree.node (.mapping pairs)) := by
  have hnode : Grammar.node Grammar.defaultHandles .block
      (3 * (Tree.tokens false (.mapping pairs)).length + 3)
      (Tree.tokens false (.mapping pairs) ++ []) = .ok (Tree.node (.mapping pairs), []) :=
    Grammar.isFormed_of_isProper h _ false (by decide) (by simp) (by omega)
  rw [List.append_nil] at hnode
  obtain ⟨t, ts, htokens, hbegins⟩ : ∃ t ts, Tree.tokens false (.mapping pairs) = t :: ts ∧
      Grammar.beginsDocument t = false := by
    cases pairs with
    | nil => exact ⟨_, _, rfl, rfl⟩
    | cons pair pairs => exact ⟨_, _, rfl, rfl⟩
  rw [htokens] at hnode ⊢
  unfold ofTokens
  simp only [List.isEmpty_cons, List.head?_cons, Option.any_some, hbegins, Bool.false_eq_true,
    if_false, hnode]
  rfl

end AtomProbe.Yaml
