import AtomProbe.Proofs.Entry.Sources

/-!
# `AtomProbe.Proofs.World.Verdict`: what a run says in the end

Among the records of a run, its verdicts are those that are no remarks:
each error, and the report of a batch that has come to its end.

Whether details are kept only matters to the journal. `Concludes w c d P`
says so of a program `d` that may be asked to keep details, of which `c`
is watched: from the world `w` it does the same in both cases, but for
that decision, and `P` holds of the files that it leaves and the verdicts
that it gives. `Concludes.exists_records` says what this means for the
world that is left.

* `Concludes.read`, `Concludes.remark`: what is read and remarked before
  makes no difference.
* `Concludes.keepDetails`: nor does the decision to keep details.
-/

set_option autoImplicit false

namespace AtomProbe

/-! ### Verdicts -/

/-- Whether a record says how a run has ended: with an error, or with the
end of the batch. -/
def Record.isVerdict (r : Record) : Bool := r.level == .error || r == .success

theorem Record.IsRemark.isVerdict_eq_false {r : Record} (h : r.IsRemark) : r.isVerdict = false := by
  rw [isVerdict, beq_false_of_ne h.1, beq_false_of_ne h.2, Bool.or_false]

theorem Record.level_ne_detail_of_isVerdict {r : Record} (h : r.isVerdict = true) :
    r.level ≠ .detail := by
  intro hdetail
  rw [isVerdict, Bool.or_eq_true, beq_iff_eq, beq_iff_eq] at h
  rcases h with herror | rfl
  · rw [hdetail] at herror
    cases herror
  · cases hdetail

/-- The verdicts among the records that are reported with operations in
order. -/
def verdicts (trace : List Operation) : List Record := (reported trace).filter Record.isVerdict

theorem verdicts_append (trace more : List Operation) :
    verdicts (trace ++ more) = verdicts trace ++ verdicts more := by
  rw [verdicts, reported_append, List.filter_append]
  rfl

theorem verdicts_of_isRemark {trace : List Operation} (h : ∀ r ∈ reported trace, r.IsRemark) :
    verdicts trace = [] :=
  List.filter_eq_nil_iff.2 <| by
    intro r hr
    rw [(h r hr).isVerdict_eq_false]
    exact Bool.false_ne_true

/-! ### The decision to keep details -/

/-- Operations in order, without the decision to keep details. -/
def essence (trace : List Operation) : List Operation :=
  trace.filter fun
    | .keepDetails => false
    | _ => true

theorem essence_append (trace more : List Operation) :
    essence (trace ++ more) = essence trace ++ essence more :=
  List.filter_append ..

theorem reported_essence (trace : List Operation) : reported (essence trace) = reported trace := by
  rw [essence, reported, List.filterMap_filter]
  refine congrArg (trace.filterMap ·) (funext fun operation => ?_)
  cases operation <;> rfl

theorem verdicts_essence (trace : List Operation) : verdicts (essence trace) = verdicts trace := by
  rw [verdicts, reported_essence, verdicts]

/-- A run cannot tell whether details are kept. -/
theorem World.alike_replay_essence (w : World) (trace : List Operation) :
    (w.replay (essence trace)).Alike (w.replay trace) := by
  induction trace generalizing w with
  | nil => exact .refl w
  | cons operation trace ih =>
    cases operation with
    | keepDetails =>
      -- it changes neither the files nor the receiver, so the rest is done alike behind it
      have hkeep : w.Alike (w.act .keepDetails) := ⟨rfl, rfl⟩
      exact (ih w).trans (hkeep.replay trace)
    | _ => exact ih _

/-! ### Runs that may keep details -/

/-- Whether two runs of a program, which may be asked to keep details, do
the same operations in both cases, but for the decision, and leave files
and give verdicts of which `P` holds. -/
def Concludes (w : World) (c : Bool → StateM Observed Unit) (d : Bool → StateM World Unit)
    (P : FileTree → List Record → Prop) : Prop :=
  ∃ ops, (∀ isVerbose, ∃ trace, essence trace = ops ∧
      Does w (c isVerbose) (d isVerbose) trace ()) ∧
    P (w.replay ops).files (verdicts ops)

/-- Records without the details. -/
def withoutDetails (journal : List Record) : List Record := journal.filter (·.level != .detail)

theorem filter_isVerdict_withoutDetails (journal : List Record) :
    (withoutDetails journal).filter Record.isVerdict = journal.filter Record.isVerdict := by
  rw [withoutDetails, List.filter_filter]
  refine List.filter_congr ?_
  intro r _
  cases hr : r.isVerdict with
  | false => rfl
  | true => exact bne_iff_ne.2 (Record.level_ne_detail_of_isVerdict hr)

namespace Concludes

variable {w w' : World} {P : FileTree → List Record → Prop}

theorem of_does {c : StateM Observed Unit} {d : StateM World Unit} {trace : List Operation}
    (h : Does w c d trace ()) (hP : P (w.replay trace).files (verdicts trace)) :
    Concludes w (fun _ => c) (fun _ => d) P := by
  refine ⟨essence trace, ?_, ?_⟩
  · intro _
    exact ⟨trace, rfl, h⟩
  · rw [verdicts_essence, (w.alike_replay_essence trace).files]
    exact hP

/-- What is read and remarked before makes no difference. -/
theorem read {α : Type} {paths : List String} {c : StateM Observed α} {d : StateM World α}
    {f : α → Bool → StateM Observed Unit} {g : α → Bool → StateM World Unit}
    (h : Reads w paths c d)
    (hnext : ∀ x, (d.run w).1 = x → Concludes w (f x) (g x) P) :
    Concludes w (fun isVerbose => c >>= (f · isVerbose)) (fun isVerbose => d >>= (g · isVerbose))
      P := by
  obtain ⟨trace, x, htrace, hdoes⟩ := h
  obtain ⟨ops, hops, hP⟩ := hnext x (congrArg Prod.fst (hdoes.plain w (.refl w)))
  -- the next program is run in a world that is no other to it
  have halike := World.alike_replay htrace w
  refine ⟨essence trace ++ ops, ?_, ?_⟩
  · intro isVerbose
    obtain ⟨more, hmore, hdoes'⟩ := hops isVerbose
    exact ⟨trace ++ more, by rw [essence_append, hmore], hdoes.bind (hdoes'.congr halike)⟩
  · rw [verdicts_append, verdicts_essence,
      verdicts_of_isRemark (isRemark_of_isReading htrace), World.replay_append,
      (((w.alike_replay_essence trace).trans halike).replay ops).files]
    exact hP

theorem remark {text : String} {c : Bool → StateM Observed Unit} {d : Bool → StateM World Unit}
    (htext : text.toList.head? ≠ some 'S') (h : Concludes w c d P) :
    Concludes w (fun isVerbose => do Journal.info text; c isVerbose)
      (fun isVerbose => do Journal.info text; d isVerbose) P := by
  have hreads : Reads w [] (Journal.info text) (Journal.info text) :=
    Reads.report (Record.isRemark_info htext)
  exact read hreads fun _ _ => h

/-- Whether details are kept makes no difference. -/
theorem keepDetails {c : StateM Observed Unit} {d : StateM World Unit} (isKept : Bool → Bool)
    (h : Concludes w (fun _ => c) (fun _ => d) P) :
    Concludes w
      (fun isVerbose => do
        if isKept isVerbose then Journal.keepDetails
        c)
      (fun isVerbose => do
        if isKept isVerbose then Journal.keepDetails
        d) P := by
  obtain ⟨ops, hops, hP⟩ := h
  refine ⟨ops, ?_, hP⟩
  intro isVerbose
  obtain ⟨trace, htrace, hdoes⟩ := hops isVerbose
  dsimp only
  cases isKept isVerbose with
  | false => exact ⟨trace, htrace, hdoes⟩
  | true =>
    have hkeep : (w.replay [.keepDetails]).Alike w := ⟨rfl, rfl⟩
    exact ⟨.keepDetails :: trace, htrace, (Does.keepDetails w).bind (hdoes.congr hkeep)⟩

/-- The files that are left, and the records other than details, are the
same in both cases. -/
theorem exists_records {c : Bool → StateM Observed Unit} {d : Bool → StateM World Unit}
    (h : Concludes w c d P) :
    ∃ files records, P files (records.filter Record.isVerdict) ∧
      ∀ isVerbose, ((d isVerbose).run w).2.files = files ∧
        withoutDetails ((d isVerbose).run w).2.journal = withoutDetails w.journal ++ records := by
  obtain ⟨ops, hops, hP⟩ := h
  refine ⟨(w.replay ops).files, withoutDetails (reported ops), ?_, ?_⟩
  · -- no verdict is a detail
    rw [filter_isVerdict_withoutDetails]
    exact hP
  · intro isVerbose
    obtain ⟨trace, rfl, hdoes⟩ := hops isVerbose
    rw [hdoes.plain w (.refl w)]
    refine ⟨((w.alike_replay_essence trace).files).symm, ?_⟩
    rw [reported_essence]
    exact World.journal_replay_filter (fun r hr => bne_iff_ne.1 hr) w trace

end Concludes

end AtomProbe
