import AtomProbe.Proofs.Metadata.Flatten

/-!
# `AtomProbe.Proofs.Metadata.Traces`: what tags and nulls leave behind

A store knows nothing of tags and nulls, so a document could do without
them. Almost always it could:

- `Metadata.ofValue_boxed`: all tags can be taken away from the values of
  a document, but a tagged mapping under a key is a record of its own,
  as if it were the only item of a sequence. If there is none, then tags
  mean nothing at all.
- `Metadata.ofValue_withoutNulls`: all nulls can be taken away from a
  document, but a null among mappings makes a list of what would be
  records. If there is none, then nulls mean nothing at all.
- `Metadata.ofValue_withoutTags_ne`, `Metadata.ofValue_withoutNulls_ne`: a
  document with such a tag, and one with such a null, whose stores differ
  from those without.

Both proofs compare items by what a sequence asks of them (`Alike`) and
the values of a mapping by what they add under their key.
-/

set_option autoImplicit false

namespace AtomProbe.Metadata

open Yaml (Value)

/-! ### Items that are alike -/

/-- A sequence cannot tell the two values apart. -/
structure Alike (value other : Value) : Prop where
  isMapping : isMapping value = isMapping other
  ofLeaf : ofLeaf? value = ofLeaf? other

theorem Alike.refl (value : Value) : Alike value value := ⟨rfl, rfl⟩

/-- The record of a mapping, with tags or without. -/
theorem ofLeaf?_of_isMapping : (value : Value) → isMapping value = true →
    ofLeaf? value = some (.records (row value))
  | .mapping _, _ => rfl
  | .tagged _ value, h => ofLeaf?_of_isMapping value h

/-- All but mappings are no record. -/
theorem row_of_not_isMapping : (value : Value) → isMapping value = false → row value = []
  | .tagged _ value, h => row_of_not_isMapping value h
  | .null, _ | .boolean _, _ | .number _, _ | .text _, _ | .sequence _, _ => rfl

/-- Alike items are the same record, if they are one. -/
theorem Alike.row_eq {value other : Value} (h : Alike value other) : row value = row other := by
  cases hother : Metadata.isMapping other with
  | false =>
    have hvalue := h.isMapping.trans hother
    rw [row_of_not_isMapping other hother, row_of_not_isMapping value hvalue]
  | true =>
    have hvalue := h.isMapping.trans hother
    have heq := h.ofLeaf
    rw [ofLeaf?_of_isMapping other hother, ofLeaf?_of_isMapping value hvalue] at heq
    injection Option.some.inj heq

/-- A sequence of alike items becomes the same. -/
theorem ofLeaf?_sequence_congr {items others : List Value} (h : List.Forall₂ Alike items others) :
    ofLeaf? (.sequence items) = ofLeaf? (.sequence others) := by
  -- only whether all are mappings, the rows and the items count
  have hparts : items.all isMapping = others.all isMapping ∧ rows items = rows others ∧
      ofItems items = ofItems others := by
    induction h with
    | nil => exact ⟨rfl, rfl, rfl⟩
    | cons hitem _ ih =>
      obtain ⟨hall, hrows, hitems⟩ := ih
      refine ⟨?_, ?_, ?_⟩
      · rw [List.all_cons, List.all_cons, hitem.isMapping, hall]
      · rw [rows, rows, hitem.row_eq, hrows]
      · rw [ofItems, ofItems, hitem.ofLeaf, hitems]
  obtain ⟨hall, hrows, hitems⟩ := hparts
  rw [ofLeaf?, ofLeaf?, hall, hrows, hitems]
  cases h <;> rfl

/-- All but mappings are stored under the key that led to them. -/
theorem under_of_not_isMapping (key : String) {value : Value} (h : isMapping value = false) :
    under key value = ((ofLeaf? value).map fun converted => (key, converted)).toList := by
  cases value with
  | mapping => cases h
  | _ => rfl

/-! ### Tags -/

/-- Whether a value is a mapping with a tag. -/
def isTaggedMapping : Value → Bool
  | .tagged _ value => isMapping value
  | _ => false

mutual

/-- A value without the tags on it and on the values in it. -/
def withoutTags : Value → Value
  | .sequence items => .sequence (itemsWithoutTags items)
  | .mapping pairs => .mapping (pairsWithoutTags pairs)
  | .tagged _ value => withoutTags value
  | value => value

/-- The items of a sequence without tags. -/
def itemsWithoutTags : List Value → List Value
  | [] => []
  | item :: items => withoutTags item :: itemsWithoutTags items

/-- The pairs of a mapping without tags on the values. -/
def pairsWithoutTags : List (Value × Value) → List (Value × Value)
  | [] => []
  | (key, value) :: pairs => (key, withoutTags value) :: pairsWithoutTags pairs

end

mutual

/-- A value without tags, where a tagged mapping under a key becomes a
sequence of this one mapping. -/
def boxed : Value → Value
  | .sequence items => .sequence (boxedItems items)
  | .mapping pairs => .mapping (boxedPairs pairs)
  | .tagged _ value => boxed value
  | value => value

/-- The items of a sequence without tags. -/
def boxedItems : List Value → List Value
  | [] => []
  | item :: items => boxed item :: boxedItems items

/-- The pairs of a mapping without tags on the values, with a sequence in
place of a tagged mapping. -/
def boxedPairs : List (Value × Value) → List (Value × Value)
  | [] => []
  | (key, value) :: pairs =>
    (key, if isTaggedMapping value then .sequence [boxed value] else boxed value) ::
      boxedPairs pairs

end

/-- One mapping as a sequence is one record. -/
theorem under_singleton (key : String) {value : Value} (h : isMapping value = true) :
    under key (.sequence [value]) =
      ((ofLeaf? value).map fun converted => (key, converted)).toList := by
  have hrows : isRows [value] = true := by simpa [isRows] using h
  rw [under_of_not_isMapping key rfl, ofLeaf?_rows hrows, ofLeaf?_of_isMapping value h, rows, rows,
    List.append_nil]

theorem under_of_isTaggedMapping (key : String) : {value : Value} → isTaggedMapping value = true →
    under key value = ((ofLeaf? value).map fun converted => (key, converted)).toList
  | .tagged _ _, _ => rfl

theorem isMapping_of_isTaggedMapping : {value : Value} → isTaggedMapping value = true →
    isMapping value = true
  | .tagged _ _, h => h

mutual

/-- Without tags a value is still the same item, and if it is no tagged
mapping, then it adds the same to a store. -/
theorem alike_boxed : (value : Value) → Alike (boxed value) value ∧
    (isTaggedMapping value = false → ∀ key, under key (boxed value) = under key value)
  | .null | .boolean _ | .number _ | .text _ => ⟨.refl _, fun _ _ => rfl⟩
  | .sequence items => by
    have hitems := ofLeaf?_sequence_congr (alike_boxedItems items)
    refine ⟨⟨rfl, hitems⟩, fun _ key => ?_⟩
    rw [boxed, under_of_not_isMapping key rfl, hitems, under_of_not_isMapping key rfl]
  | .mapping pairs => by
    have hpairs := flatten_boxedPairs pairs
    refine ⟨⟨rfl, ?_⟩, fun _ key => hpairs key⟩
    rw [boxed, ofLeaf?, hpairs, ofLeaf?]
  | .tagged tag value => by
    obtain ⟨halike, -⟩ := alike_boxed value
    refine ⟨⟨halike.isMapping, halike.ofLeaf⟩, fun hmapping key => ?_⟩
    -- below the tags there is no mapping, so nothing is gone into on either side
    have hno : isMapping (boxed value) = false := halike.isMapping.trans hmapping
    rw [boxed, under_of_not_isMapping key hno, halike.ofLeaf]
    rfl

/-- Without tags a sequence still has alike items. -/
theorem alike_boxedItems : (items : List Value) → List.Forall₂ Alike (boxedItems items) items
  | [] => .nil
  | item :: items => .cons (alike_boxed item).1 (alike_boxedItems items)

/-- With the sequences in place of its tagged mappings, a mapping adds the
same to a store. -/
theorem flatten_boxedPairs : (pairs : List (Value × Value)) → ∀ above,
    flatten above (boxedPairs pairs) = flatten above pairs
  | [] => fun _ => rfl
  | (key, value) :: pairs => fun above => by
    obtain ⟨halike, hunder⟩ := alike_boxed value
    have hvalue (text : String) :
        under text (if isTaggedMapping value then .sequence [boxed value] else boxed value) =
          under text value := by
      cases htagged : isTaggedMapping value with
      | false => exact hunder htagged text
      | true =>
        -- a tagged mapping is one record, and so is a sequence of one mapping
        have hmapping := halike.isMapping.trans (isMapping_of_isTaggedMapping htagged)
        rw [if_pos rfl, under_singleton text hmapping, halike.ofLeaf,
          under_of_isTaggedMapping text htagged]
    simp only [boxedPairs, flatten_cons, hvalue, flatten_boxedPairs pairs]

end

/-- No mapping in the value has a tagged mapping under a key. -/
def HasNoTaggedMapping (value : Value) : Prop :=
  ∀ pairs, .mapping pairs ∈ value.parts → ∀ pair ∈ pairs, isTaggedMapping pair.2 = false

theorem HasNoTaggedMapping.of_subset {value part : Value} (h : HasNoTaggedMapping value)
    (hsubset : part.parts ⊆ value.parts) : HasNoTaggedMapping part :=
  fun pairs hpairs => h pairs (hsubset hpairs)

mutual

/-- Without tagged mappings under keys there is nothing to put into a
sequence. -/
theorem boxed_eq_withoutTags : (value : Value) → HasNoTaggedMapping value →
    boxed value = withoutTags value
  | .null, _ | .boolean _, _ | .number _, _ | .text _, _ => rfl
  | .sequence items, h => congrArg Value.sequence <| boxedItems_eq_withoutTags items
    fun _ hitem => h.of_subset (Value.parts_subset_sequence hitem)
  | .mapping pairs, h => congrArg Value.mapping <| boxedPairs_eq_withoutTags pairs fun pair hpair =>
    ⟨h.of_subset (Value.parts_subset_mapping hpair), h pairs (Value.self_mem_parts _) pair hpair⟩
  | .tagged tag value, h =>
    boxed_eq_withoutTags value (h.of_subset (Value.parts_subset_tagged tag value))

theorem boxedItems_eq_withoutTags : (items : List Value) →
    (∀ item ∈ items, HasNoTaggedMapping item) → boxedItems items = itemsWithoutTags items
  | [], _ => rfl
  | item :: items, h => by
    rw [boxedItems, itemsWithoutTags, boxed_eq_withoutTags item (h item List.mem_cons_self),
      boxedItems_eq_withoutTags items fun other hother => h other (List.mem_cons_of_mem _ hother)]

theorem boxedPairs_eq_withoutTags : (pairs : List (Value × Value)) →
    (∀ pair ∈ pairs, HasNoTaggedMapping pair.2 ∧ isTaggedMapping pair.2 = false) →
      boxedPairs pairs = pairsWithoutTags pairs
  | [], _ => rfl
  | (_, value) :: pairs, h => by
    obtain ⟨hvalue, hmapping⟩ : HasNoTaggedMapping value ∧ isTaggedMapping value = false :=
      h _ List.mem_cons_self
    rw [boxedPairs, pairsWithoutTags, hmapping, boxed_eq_withoutTags value hvalue,
      boxedPairs_eq_withoutTags pairs fun pair hpair => h pair (List.mem_cons_of_mem _ hpair)]
    rfl

end

theorem ofValue?_boxed : (value : Value) → Store.ofValue? (boxed value) = Store.ofValue? value
  | .null | .boolean _ | .number _ | .text _ | .sequence _ => rfl
  | .tagged _ value => ofValue?_boxed value
  | .mapping pairs => by
    show some (SortedMap.ofList (flatten "" (boxedPairs pairs))) = _
    rw [flatten_boxedPairs]
    rfl

/-- The store of a document, or its refusal, is that of the document
without tags, a tagged mapping under a key being a sequence of one. If
there is no such mapping, then the tags can be taken away as they are. -/
theorem ofValue_boxed (value : Value) :
    Store.ofValue (boxed value) = Store.ofValue value ∧
      (HasNoTaggedMapping value → Store.ofValue (withoutTags value) = Store.ofValue value) := by
  have hboxed : Store.ofValue (boxed value) = Store.ofValue value := by
    rw [Store.ofValue, ofValue?_boxed, Store.ofValue]
  exact ⟨hboxed, fun h => boxed_eq_withoutTags value h ▸ hboxed⟩

/-- A document with tags on its root, on scalars, on a sequence and on an
item. -/
def tags : Value :=
  .tagged "doc" (.mapping [(.text "a", .tagged "t" (.text "x")),
    (.text "b", .mapping [(.text "c", .tagged "t" .null)]),
    (.text "d", .tagged "list" (.sequence [.tagged "row" (.mapping
      [(.text "e", .tagged "n" (.tagged "m" (.boolean true)))]), .mapping []]))])

/-- These tags mean nothing. -/
theorem ofValue_boxed_tags :
    HasNoTaggedMapping tags ∧ Store.ofValue (withoutTags tags) = Store.ofValue tags := by
  have hmappings : HasNoTaggedMapping tags := by
    simp only [HasNoTaggedMapping, tags, Value.parts, Value.partsOfPairs, Value.partsOfItems]
    simp [or_imp, forall_and, isTaggedMapping, isMapping, untagged]
  exact ⟨hmappings, (ofValue_boxed tags).2 hmappings⟩

/-- A mapping with a tag is not gone into. -/
theorem ofValue_withoutTags_ne :
    Store.ofValue (withoutTags (.mapping
        [(.text "grain", .tagged "size" (.mapping [(.text "value", .number (.natural 1))]))])) ≠
      Store.ofValue (.mapping
        [(.text "grain", .tagged "size" (.mapping [(.text "value", .number (.natural 1))]))]) := by
  intro h
  have hkeys := congrArg
    (fun result => result.toOption.map fun store => store.contains "grain/value") h
  exact absurd hkeys (by decide)

/-! ### Nulls -/

mutual

/-- A value without the nulls among the items and under the keys in it. -/
def withoutNulls : Value → Value
  | .sequence items => .sequence (itemsWithoutNulls items)
  | .mapping pairs => .mapping (pairsWithoutNulls pairs)
  | .tagged tag value => .tagged tag (withoutNulls value)
  | value => value

/-- The items of a sequence that are no nulls. -/
def itemsWithoutNulls : List Value → List Value
  | [] => []
  | item :: items =>
    if item.isNull then itemsWithoutNulls items else withoutNulls item :: itemsWithoutNulls items

/-- The pairs of a mapping whose values are no nulls. -/
def pairsWithoutNulls : List (Value × Value) → List (Value × Value)
  | [] => []
  | (key, value) :: pairs =>
    if value.isNull then pairsWithoutNulls pairs
    else (key, withoutNulls value) :: pairsWithoutNulls pairs

end

/-- Whether there is a null among mappings only. -/
def isBlankedRows (items : List Value) : Bool :=
  items.any Value.isNull && isRows (items.filter fun item => !item.isNull)

/-- No sequence in the value has a null among mappings only. -/
def HasNoBlankedRows (value : Value) : Prop :=
  ∀ items, .sequence items ∈ value.parts → isBlankedRows items = false

/-- The list of a sequence has no nulls. -/
theorem ofItems_filter (items : List Value) :
    ofItems (items.filter fun item => !item.isNull) = ofItems items := by
  induction items with
  | nil => rfl
  | cons item items ih =>
    cases item with
    | null => exact ih
    | _ => exact congrArg (_ ++ ·) ih

/-- A null is no mapping. -/
theorem isRows_of_isNull {items : List Value} (h : items.any Value.isNull = true) :
    isRows items = false := by
  obtain ⟨item, hitem, hnull⟩ := List.any_eq_true.1 h
  have hmapping : isMapping item = false := by
    cases item with
    | null => rfl
    | _ => cases hnull
  rw [isRows, List.all_eq_false.2 ⟨item, hitem, by simp [hmapping]⟩, Bool.and_false]

/-- Nulls among other things than mappings can be left out. -/
theorem ofLeaf?_filter {items : List Value} (h : isBlankedRows items = false) :
    ofLeaf? (.sequence (items.filter fun item => !item.isNull)) = ofLeaf? (.sequence items) := by
  cases hnull : items.any Value.isNull with
  | false =>
    -- nothing is left out
    have hall : ∀ item ∈ items, (!item.isNull) = true := by simpa using hnull
    rw [List.filter_eq_self.2 hall]
  | true =>
    -- a list on both sides, as the null makes one in any case
    rw [isBlankedRows, hnull, Bool.true_and] at h
    rw [ofLeaf?_list h, ofItems_filter, ofLeaf?_list (isRows_of_isNull hnull)]

/-- A null adds nothing to a store. -/
theorem flatten_isNull (above : String) (key : Value) {value : Value} (h : value.isNull = true) :
    ((keyText? key).elim [] fun text => under (joinKey above text) value) = [] := by
  cases value with
  | null => cases keyText? key <;> rfl
  | _ => cases h

theorem HasNoBlankedRows.of_subset {value part : Value} (h : HasNoBlankedRows value)
    (hsubset : part.parts ⊆ value.parts) : HasNoBlankedRows part :=
  fun items hitems => h items (hsubset hitems)

mutual

/-- Without nulls a value is still the same item and adds the same to a
store. -/
theorem alike_withoutNulls : (value : Value) → HasNoBlankedRows value →
    Alike (withoutNulls value) value ∧ ∀ key, under key (withoutNulls value) = under key value
  | .null, _ | .boolean _, _ | .number _, _ | .text _, _ => ⟨.refl _, fun _ => rfl⟩
  | .sequence items, h => by
    -- first the nulls in the other items, then those among them
    have hitems := ofLeaf?_sequence_congr <| alike_itemsWithoutNulls items
      fun _ hitem => h.of_subset (Value.parts_subset_sequence hitem)
    rw [ofLeaf?_filter (h items (Value.self_mem_parts _))] at hitems
    refine ⟨⟨rfl, hitems⟩, fun key => ?_⟩
    rw [withoutNulls, under_of_not_isMapping key rfl, hitems, under_of_not_isMapping key rfl]
  | .mapping pairs, h => by
    have hpairs := flatten_pairsWithoutNulls pairs
      fun _ hpair => h.of_subset (Value.parts_subset_mapping hpair)
    refine ⟨⟨rfl, ?_⟩, hpairs⟩
    rw [withoutNulls, ofLeaf?, hpairs, ofLeaf?]
  | .tagged tag value, h => by
    obtain ⟨halike, -⟩ := alike_withoutNulls value <|
      h.of_subset (Value.parts_subset_tagged tag value)
    refine ⟨⟨halike.isMapping, halike.ofLeaf⟩, fun key => ?_⟩
    show ((ofLeaf? (withoutNulls value)).map _).toList = _
    rw [halike.ofLeaf]
    rfl

/-- Without nulls in them, the other items of a sequence are still alike. -/
theorem alike_itemsWithoutNulls : (items : List Value) →
    (∀ item ∈ items, HasNoBlankedRows item) →
    List.Forall₂ Alike (itemsWithoutNulls items) (items.filter fun item => !item.isNull)
  | [], _ => .nil
  | item :: items, h => by
    have hitem := (alike_withoutNulls item (h item List.mem_cons_self)).1
    have hrest := alike_itemsWithoutNulls items fun other hother =>
      h other (List.mem_cons_of_mem _ hother)
    cases hnull : item.isNull with
    | true => rwa [itemsWithoutNulls, if_pos hnull, List.filter_cons_of_neg (by simp [hnull])]
    | false =>
      rw [itemsWithoutNulls, if_neg (by simp [hnull]), List.filter_cons_of_pos (by simp [hnull])]
      exact .cons hitem hrest

/-- Without nulls a mapping adds the same to a store. -/
theorem flatten_pairsWithoutNulls : (pairs : List (Value × Value)) →
    (∀ pair ∈ pairs, HasNoBlankedRows pair.2) → ∀ above,
      flatten above (pairsWithoutNulls pairs) = flatten above pairs
  | [], _ => fun _ => rfl
  | (key, value) :: pairs, h => fun above => by
    have hvalue := (alike_withoutNulls value (h _ List.mem_cons_self)).2
    have hrest := flatten_pairsWithoutNulls pairs
      (fun pair hpair => h pair (List.mem_cons_of_mem _ hpair)) above
    cases hnull : value.isNull with
    | true =>
      rw [pairsWithoutNulls, if_pos hnull, hrest, flatten_cons, flatten_isNull above key hnull,
        List.nil_append]
    | false =>
      rw [pairsWithoutNulls, if_neg (by simp [hnull]), flatten_cons, flatten_cons, hrest]
      simp only [hvalue]

end

theorem ofValue?_withoutNulls : (value : Value) → HasNoBlankedRows value →
    Store.ofValue? (withoutNulls value) = Store.ofValue? value
  | .null, _ | .boolean _, _ | .number _, _ | .text _, _ | .sequence _, _ => rfl
  | .tagged tag value, h =>
    ofValue?_withoutNulls value (h.of_subset (Value.parts_subset_tagged tag value))
  | .mapping pairs, h => by
    have hpairs := flatten_pairsWithoutNulls pairs
      fun _ hpair => h.of_subset (Value.parts_subset_mapping hpair)
    show some (SortedMap.ofList (flatten "" (pairsWithoutNulls pairs))) = _
    rw [hpairs]
    rfl

/-- If no sequence has a null among mappings only, then the store of a
document, or its refusal, is that of the document without nulls. -/
theorem ofValue_withoutNulls (value : Value) (h : HasNoBlankedRows value) :
    Store.ofValue (withoutNulls value) = Store.ofValue value := by
  rw [Store.ofValue, ofValue?_withoutNulls value h, Store.ofValue]

/-- A document with nulls under keys, among items that are no mappings,
and in records. -/
def blanks : Value :=
  .mapping [(.text "a", .null), (.text "b", .sequence [.null, .text "x", .mapping [], .null]),
    (.text "c", .sequence [.mapping [(.text "d", .null), (.text "e", .sequence [.null])]])]

/-- These nulls mean nothing. -/
theorem ofValue_withoutNulls_blanks :
    HasNoBlankedRows blanks ∧ Store.ofValue (withoutNulls blanks) = Store.ofValue blanks := by
  have hrows : HasNoBlankedRows blanks := by
    simp only [HasNoBlankedRows, blanks, Value.parts, Value.partsOfPairs, Value.partsOfItems]
    simp [or_imp, forall_and]
    decide
  exact ⟨hrows, ofValue_withoutNulls blanks hrows⟩

theorem itemsWithoutNulls_eq_map (items : List Value) :
    itemsWithoutNulls items = (items.filter fun item => !item.isNull).map withoutNulls := by
  induction items with
  | nil => rfl
  | cons item items ih =>
    cases hnull : item.isNull <;> simp [itemsWithoutNulls, hnull, ih]

/-- A mapping stays one without its nulls. -/
theorem isMapping_withoutNulls : (value : Value) →
    isMapping (withoutNulls value) = isMapping value
  | .tagged _ value => isMapping_withoutNulls value
  | .null | .boolean _ | .number _ | .text _ | .sequence _ | .mapping _ => rfl

/-- A null among mappings only makes a list of what would be records. -/
theorem ofLeaf?_of_isBlankedRows {items : List Value} (h : isBlankedRows items = true) :
    ofLeaf? (.sequence items) = some (.list (ofItems items)) ∧
      ofLeaf? (withoutNulls (.sequence items)) =
        some (.records (rows (itemsWithoutNulls items))) := by
  obtain ⟨hnull, hrows⟩ := Bool.and_eq_true_iff.1 h
  refine ⟨ofLeaf?_list (isRows_of_isNull hnull), ofLeaf?_rows ?_⟩
  rw [← hrows, itemsWithoutNulls_eq_map, isRows, isRows, List.all_map, List.isEmpty_map]
  congr 2
  exact funext isMapping_withoutNulls

/-- What is found in the store of a mapping with a single key. -/
theorem get?_flatten_singleton (key : String) {value : Value} (h : isMapping value = false) :
    (SortedMap.ofList (flatten "" [(.text key, value)])).get? key = ofLeaf? value := by
  rw [flatten_cons, flatten, List.append_nil]
  show (SortedMap.ofList (under (joinKey "" key) value)).get? key = _
  rw [joinKey, if_pos rfl, under_of_not_isMapping key h]
  cases ofLeaf? value with
  | none => rfl
  | some converted => exact (SortedMap.get?_insert _ key converted key).trans (if_pos rfl)

/-- Such a null is never without meaning. -/
theorem ofValue_withoutNulls_ne_of_isBlankedRows (key : String) {items : List Value}
    (h : isBlankedRows items = true) :
    Store.ofValue (withoutNulls (.mapping [(.text key, .sequence items)])) ≠
      Store.ofValue (.mapping [(.text key, .sequence items)]) := by
  intro heq
  have hstores := congrArg (SortedMap.get? · key) (Except.ok.inj heq)
  have hsame : ofLeaf? (withoutNulls (.sequence items)) = ofLeaf? (.sequence items) :=
    (get?_flatten_singleton key rfl).symm.trans (hstores.trans (get?_flatten_singleton key rfl))
  obtain ⟨hlist, hrows⟩ := ofLeaf?_of_isBlankedRows h
  -- records on the one side, a list on the other
  rw [hlist, hrows] at hsame
  cases hsame

/-- A list of users with a blank item is no list of records any more. -/
theorem ofValue_withoutNulls_ne :
    Store.ofValue (withoutNulls (.mapping
        [(.text "user", .sequence [.mapping [(.text "name", .text "Jane")], .null])])) ≠
      Store.ofValue (.mapping
        [(.text "user", .sequence [.mapping [(.text "name", .text "Jane")], .null])]) :=
  ofValue_withoutNulls_ne_of_isBlankedRows "user" (by decide)

end AtomProbe.Metadata
