import AtomProbe.Proofs.Mapping.Dependence
import AtomProbe.Proofs.Vocabulary.Units

/-!
# `AtomProbe.Proofs.VariadicPath.Identifiers`: identifiers are told apart

A resolved path holds its identifiers as decimal numbers of no fixed
length, between pieces of text that may have digits of their own. Still
no two choices of identifiers lead to the same place, if from each marker
to the next one there is a character that is no digit. That what is
written for different entries, users, laser sources and citations stays
apart rests on this.

* `isSeparated_of_mem_targets`: all targets of the tables are such paths.
* `resolved_eq_iff_take_eq`: two resolved paths of such a path are the
  same if and only if the identifiers in its places are.
-/

set_option autoImplicit false

namespace AtomProbe.VariadicPath

open Vocabulary (applicationDefinition targets targetsOf areWellFormed_targets isRegular_iff
  isRegular_of_areWellFormed)

/-- In all targets of the tables the markers are kept apart. -/
theorem isSeparated_of_mem_targets {input : Source.Input} {pattern : String}
    (h : pattern ∈ applicationDefinition.patterns ++ targetsOf input) :
    IsSeparated pattern.toList := by
  have hmem : pattern ∈ ((1, applicationDefinition.patterns) :: targets input).flatMap Prod.snd := h
  obtain ⟨group, hgroup, hpattern⟩ := List.mem_flatMap.1 hmem
  have hregular := isRegular_of_areWellFormed (areWellFormed_targets input) hgroup hpattern
  obtain ⟨-, -, hdelimited, -⟩ := isRegular_iff.1 hregular
  exact isSeparated_of_isDelimited hdelimited

/-- Where from each marker of a path to the next one there is a character
that is no digit, as in all targets of the tables, two lists of
identifiers that resolve the path do so in the same way if and only if
they agree on as many identifiers as the path has markers. -/
theorem resolved_eq_iff_take_eq :
    (∀ (input : Source.Input), ∀ pattern ∈ applicationDefinition.patterns ++ targetsOf input,
      IsSeparated pattern.toList) ∧
    ∀ (path : String) (ids ids' : List UInt32) (resolved resolved' : String),
      IsSeparated path.toList →
      resolve? path ids = some resolved → resolve? path ids' = some resolved' →
        (resolved = resolved' ↔
          ids.take (markerCount path) = ids'.take (markerCount path)) := by
  refine ⟨fun input pattern => isSeparated_of_mem_targets, ?_⟩
  intro path ids ids' resolved resolved' hseparated h h'
  constructor
  · rintro rfl
    exact take_eq_of_fill_eq hseparated (fill_of_resolve? h) (fill_of_resolve? h')
  · intro hids
    rw [resolve?_congr hids (Nat.le_refl _), h'] at h
    exact (Option.some.inj h).symm

/-- Digits on both sides of both markers, and one identifier too many. -/
theorem resolved_eq_iff_take_eq_digits :
    IsSeparated "/TIP[1*07µ2*3]".toList ∧
      resolve? "/TIP[1*07µ2*3]" [2, 11, 5] = some "/TIP[1207µ2113]" ∧
      resolve? "/TIP[1*07µ2*3]" [21, 1] = some "/TIP[12107µ213]" ∧
      ("/TIP[1207µ2113]" = "/TIP[12107µ213]" ↔
        [2, 11, (5 : UInt32)].take (markerCount "/TIP[1*07µ2*3]") =
          [21, 1].take (markerCount "/TIP[1*07µ2*3]")) := by
  have hseparated : IsSeparated "/TIP[1*07µ2*3]".toList := by decide
  have h : resolve? "/TIP[1*07µ2*3]" [2, 11, 5] = some "/TIP[1207µ2113]" := by decide
  have h' : resolve? "/TIP[1*07µ2*3]" [21, 1] = some "/TIP[12107µ213]" := by decide
  exact ⟨hseparated, h, h', resolved_eq_iff_take_eq.2 _ _ _ _ _ hseparated h h'⟩

-- digits alone do not keep two markers apart
example : resolve? "*1*" [1, 11] = resolve? "*1*" [11, 1] := by decide

end AtomProbe.VariadicPath
