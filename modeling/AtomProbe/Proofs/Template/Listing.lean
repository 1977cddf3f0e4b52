import AtomProbe.Proofs.SortedMap.Listing
import AtomProbe.Proofs.Template.Document
import AtomProbe.Proofs.Text.Bytes

/-!
# `AtomProbe.Proofs.Template.Listing`: the dump of a template is canonical

A template, like a store of metadata, lists what was written into it in
the order of the bytes of the paths, each path once and with its last
value. The text of the template is written from that listing, so of the
history of the template it tells the last values and nothing else
(`Template.document_canonical`). It is read back as the mapping of the
same paths in the same order (`Template.ofText_document`).
-/

set_option autoImplicit false

namespace AtomProbe.Template

open SortedMap (IsLastWrite IsListing)
open Yaml (Tree Value)

/-- The pairs of a template as the pairs of its document. -/
theorem isProper_document (template : Template) :
    Tree.IsProper Value.maximalDepth
      (.mapping (template.toList.map fun p => (p.1, p.2.tree))) := by
  refine .mapping ?_ fun pair hpair => ?_
  · rw [List.map_map]
    exact template.nodup_keys
  · obtain ⟨p, -, rfl⟩ := List.mem_map.1 hpair
    exact (p.2.isLeaf_tree 126).isProper

/-- The text of a template is a mapping with its paths in order. -/
theorem ofText_document (template : Template) :
    Value.ofText template.document =
      .ok (.mapping (template.toList.map fun p => (.text p.1, p.2.tree.value))) := by
  have hdocument : template.document =
      Tree.document (template.toList.map fun p => (p.1, p.2.tree)) := rfl
  rw [hdocument, Value.ofText_document template.isProper_document, Tree.value,
    Tree.pairValues_eq_map, List.map_map]
  rfl

/-- The dump is canonical. Whatever was written into a template, it lists
the last value of each path, in the order of the bytes of the paths; its
text reads as a mapping of these paths in this order; and any other
history with the same last values has the same text, byte for byte. What
is written into a store of metadata is listed in the same way. -/
theorem document_canonical (writes : List (String × TemplateValue))
    (records : List (String × Metadata)) :
    IsListing writes (.ofList writes) ∧
      (∃ pairs, Value.ofText (document (.ofList writes)) = .ok (.mapping pairs) ∧
        pairs.map Prod.fst = (SortedMap.ofList writes).toList.map fun p => .text p.1) ∧
      (∀ writes' : List (String × TemplateValue),
        (∀ path value, IsLastWrite writes path value ↔ IsLastWrite writes' path value) →
          Text.bytes (document (.ofList writes)) = Text.bytes (document (.ofList writes'))) ∧
      IsListing records (.ofList records) := by
  refine ⟨SortedMap.isListing_ofList writes, ⟨_, ofText_document _, ?_⟩, fun writes' h => ?_,
    SortedMap.isListing_ofList records⟩
  · rw [List.map_map]
    rfl
  · rw [SortedMap.ofList_eq_of_isLastWrite_iff h]

/-- A path with a character above `U+FFFF` comes last by its bytes. By its
surrogates it would come first. -/
theorem document_canonical_surrogates :
    IsListing [("/😀", .integer 1), ("/\uffff", .boolean true), ("/😀", .integer 2)]
        (.ofList [("/\uffff", TemplateValue.boolean true), ("/😀", .integer 2)]) ∧
      Text.bytes (document (.ofList
          [("/😀", .integer 1), ("/\uffff", .boolean true), ("/😀", .integer 2)])) =
        Text.bytes (document (.ofList [("/😀", .integer 2), ("/\uffff", .boolean true)])) := by
  have hlisting := document_canonical
    [("/😀", .integer 1), ("/\uffff", .boolean true), ("/😀", .integer 2)] []
  refine ⟨hlisting.1, hlisting.2.2.1 _ fun path value => ?_⟩
  rw [← SortedMap.mem_toList_ofList, ← SortedMap.mem_toList_ofList]
  exact Iff.rfl

end AtomProbe.Template
