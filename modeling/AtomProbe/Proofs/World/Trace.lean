import AtomProbe.Proofs.Metadata.Load

/-!
# `AtomProbe.Proofs.World.Trace`: runs that are watched

What a run leaves behind does not say in which order it was done, nor
which files were only read. So the same programs are run on an
`Observed` world, which notes each operation.

`Does w c d trace x` says of the two runs `c` and `d` of one program,
the first one watched, that they come to the same: from the world `w`
both give `x`, and all that changes is what the operations of the `trace`
change. They do so from any other world with the same files and the same
receiver. Nothing in a program depends on the records, so what is
reported is the same whether details are kept or not.

`Reads w paths c d` is the case of a run that only looks at some files,
and remarks on them.

* `Does.bind`, `Does.bind_ok`, `Does.bind_error`: one program after
  another one, also where the first one may fail.
* `Reads.bind`, `Reads.bind_run`: the same for runs that only read.
-/

set_option autoImplicit false

namespace AtomProbe

/-- An operation of a run, with what came of it for the run to know. -/
inductive Operation
  | look (path : String)
  | read (path : String)
  | write (path : String) (content : ByteArray) (isDone : Bool)
  | send (status : Status) (isReceived : Bool)
  | report (r : Record)
  | keepDetails

/-- The report of a batch that has come to its end. -/
def Record.success : Record := ⟨.info, "Successfully mapped all entries!"⟩

/-- Whether a record is a remark on the way, which says neither that
something failed nor that the batch has come to its end. -/
def Record.IsRemark (r : Record) : Prop := r.level ≠ .error ∧ r ≠ .success

namespace World

/-- The world after an operation. -/
def act (w : World) : Operation → World
  | .look _ => w
  | .read _ => w
  | .write path content _ =>
    match w.files.write path content with
    | .ok files => { w with files := files }
    | .error _ => w
  | .send status _ => { w with receiver := (w.receiver.receive status).2 }
  | .report r => w.report r
  | .keepDetails => { w with keepsDetails := true }

/-- The world after operations in order. -/
def replay (w : World) (trace : List Operation) : World := trace.foldl act w

theorem replay_nil (w : World) : w.replay [] = w := rfl

theorem replay_cons (w : World) (operation : Operation) (trace : List Operation) :
    w.replay (operation :: trace) = (w.act operation).replay trace := rfl

theorem replay_append (w : World) (trace more : List Operation) :
    w.replay (trace ++ more) = (w.replay trace).replay more := by
  simp [replay]

/-- Whether a run cannot tell two worlds from each other. -/
structure Alike (w w' : World) : Prop where
  files : w.files = w'.files
  receiver : w.receiver = w'.receiver

theorem Alike.refl (w : World) : w.Alike w := ⟨rfl, rfl⟩

theorem Alike.trans {w w' w'' : World} (h : w.Alike w') (h' : w'.Alike w'') : w.Alike w'' :=
  ⟨h.files.trans h'.files, h.receiver.trans h'.receiver⟩

theorem Alike.symm {w w' : World} (h : w.Alike w') : w'.Alike w := ⟨h.files.symm, h.receiver.symm⟩

theorem alike_report (w : World) (r : Record) : (w.report r).Alike w := by
  rw [report]
  split <;> exact ⟨rfl, rfl⟩

theorem Alike.act {w w' : World} (h : w.Alike w') (operation : Operation) :
    (w.act operation).Alike (w'.act operation) := by
  cases operation with
  | look path => exact h
  | read path => exact h
  | write path content isDone =>
    rw [World.act, World.act, h.files]
    cases w'.files.write path content with
    | error e => exact h
    | ok files => exact ⟨rfl, h.receiver⟩
  | send status isReceived => exact ⟨h.files, congrArg (fun r => (r.receive status).2) h.receiver⟩
  | report r => exact (alike_report w r).trans (h.trans (alike_report w' r).symm)
  | keepDetails => exact ⟨h.files, h.receiver⟩

/-- What a run cannot tell apart stays so. -/
theorem Alike.replay {w w' : World} (h : w.Alike w') (trace : List Operation) :
    (w.replay trace).Alike (w'.replay trace) := by
  induction trace generalizing w w' with
  | nil => exact h
  | cons operation trace ih => exact ih (h.act operation)

/-- Writing a file changes the files of a world, if it succeeds. -/
theorem run_write (path : String) (content : ByteArray) (w : World) :
    (Storage.write path content : StateM World (Except FileError Unit)).run w =
      match w.files.write path content with
      | .error e => (.error e, w)
      | .ok files => (.ok (), { w with files := files }) := by
  change StateT.run (do
    match (← get).files.write path content with
    | .error e => return .error e
    | .ok files => do
      modify fun w => { w with files := files }
      return .ok () : StateM World (Except FileError Unit)) w = _
  rw [StateT.run_bind]
  change StateT.run (match w.files.write path content with
    | .error e => _
    | .ok files => _) w = _
  cases w.files.write path content <;> rfl

end World

/-! ### A world that is watched -/

/-- A world in which each operation is noted. -/
structure Observed where
  world : World
  /-- The operations so far, the latest first. -/
  operations : List Operation

namespace Observed

/-- Do an operation, and note it. -/
def note (o : Observed) (operation : Operation) : Observed :=
  ⟨o.world.act operation, operation :: o.operations⟩

instance : Storage (StateM Observed) where
  isPresent path := do
    modify (·.note (.look path))
    return (← get).world.files.isPresent path
  read path := do
    modify (·.note (.read path))
    return (← get).world.files.read path
  write path content := do
    let result := (← get).world.files.write path content
    modify (·.note (.write path content result.isOk))
    return result.map fun _ => ()
  size path := do
    modify (·.note (.look path))
    return (← get).world.files.size path

instance : Journal (StateM Observed) where
  report r := modify (·.note (.report r))
  keepDetails := modify (·.note .keepDetails)

instance : Listener (StateM Observed) where
  send status := do
    let isReceived := ((← get).world.receiver.receive status).1
    modify (·.note (.send status isReceived))
    return isReceived

end Observed

/-! ### What a run does -/

variable {α β ε : Type}

/-- Whether two runs of a program, of which the first one is watched, do
these operations in order and give this result. Which ones they do depends
on the files and the receiver alone. -/
structure Does (w : World) (c : StateM Observed α) (d : StateM World α) (trace : List Operation)
    (x : α) : Prop where
  observed : ∀ v old, v.Alike w → c.run ⟨v, old⟩ = (x, ⟨v.replay trace, trace.reverse ++ old⟩)
  plain : ∀ v, v.Alike w → d.run v = (x, v.replay trace)

namespace Does

variable {w w' : World} {trace more : List Operation} {x : α} {y : β} {e : ε}

theorem congr {c : StateM Observed α} {d : StateM World α} (h : Does w c d trace x)
    (hw : w'.Alike w) : Does w' c d trace x :=
  ⟨fun v old hv => h.observed v old (hv.trans hw), fun v hv => h.plain v (hv.trans hw)⟩

theorem pure (w : World) (x : α) : Does w (pure x) (pure x) [] x :=
  ⟨fun _ _ _ => rfl, fun _ _ => rfl⟩

/-- One program after another one. -/
theorem bind {c : StateM Observed α} {d : StateM World α} {f : α → StateM Observed β}
    {g : α → StateM World β} (h : Does w c d trace x)
    (hnext : Does (w.replay trace) (f x) (g x) more y) :
    Does w (c >>= f) (d >>= g) (trace ++ more) y := by
  constructor
  · -- operations are noted with the latest first
    intro v old hv
    rw [StateT.run_bind, h.observed v old hv, World.replay_append, List.reverse_append,
      List.append_assoc]
    exact hnext.observed _ _ (hv.replay trace)
  · intro v hv
    rw [StateT.run_bind, h.plain v hv, World.replay_append]
    exact hnext.plain _ (hv.replay trace)

theorem map {c : StateM Observed α} {d : StateM World α} (h : Does w c d trace x) (f : α → β) :
    Does w (f <$> c) (f <$> d) trace (f x) := by
  have hbind := h.bind (f := fun x => Pure.pure (f x)) (g := fun x => Pure.pure (f x)) (.pure _ _)
  rwa [List.append_nil] at hbind

/-- What follows a program that succeeds. -/
theorem bind_ok {c : ExceptT ε (StateM Observed) α} {d : ExceptT ε (StateM World) α}
    {f : α → ExceptT ε (StateM Observed) β} {g : α → ExceptT ε (StateM World) β}
    {z : Except ε β} (h : Does w c.run d.run trace (.ok x))
    (hnext : Does (w.replay trace) (f x).run (g x).run more z) :
    Does w (c >>= f).run (d >>= g).run (trace ++ more) z := by
  rw [ExceptT.run_bind, ExceptT.run_bind]
  exact h.bind hnext

/-- What follows a program that fails is not run. -/
theorem bind_error {c : ExceptT ε (StateM Observed) α} {d : ExceptT ε (StateM World) α}
    {f : α → ExceptT ε (StateM Observed) β} {g : α → ExceptT ε (StateM World) β}
    (h : Does w c.run d.run trace (.error e)) :
    Does w (c >>= f).run (d >>= g).run trace (.error e) := by
  have hbind : Does w (c >>= f).run (d >>= g).run (trace ++ []) (.error e) := by
    rw [ExceptT.run_bind, ExceptT.run_bind]
    exact h.bind (.pure _ _)
  rwa [List.append_nil] at hbind

theorem lift {c : StateM Observed α} {d : StateM World α} (h : Does w c d trace x) :
    Does w (ExceptT.lift c : ExceptT ε (StateM Observed) α).run (ExceptT.lift d).run trace
      (.ok x) :=
  h.map Except.ok

theorem ofExcept (w : World) (x : Except ε α) :
    Does w (liftExcept x : ExceptT ε (StateM Observed) α).run
      (liftExcept x : ExceptT ε (StateM World) α).run [] x := by
  cases x <;> exact .pure w _

theorem isPresent (w : World) (path : String) :
    Does w (Storage.isPresent path) (Storage.isPresent path) [.look path]
      (w.files.isPresent path) :=
  ⟨fun _ _ hv => hv.files ▸ rfl, fun _ hv => hv.files ▸ rfl⟩

theorem read (w : World) (path : String) :
    Does w (Storage.read path) (Storage.read path) [.read path] (w.files.read path) :=
  ⟨fun _ _ hv => hv.files ▸ rfl, fun _ hv => hv.files ▸ rfl⟩

theorem write (w : World) (path : String) (content : ByteArray) :
    Does w (Storage.write path content) (Storage.write path content)
      [.write path content (w.files.write path content).isOk]
      ((w.files.write path content).map fun _ => ()) := by
  constructor
  · intro v old hv
    rw [← hv.files]
    rfl
  · intro v hv
    rw [World.run_write, World.replay, List.foldl_cons, List.foldl_nil, World.act, hv.files]
    cases w.files.write path content <;> rfl

theorem size (w : World) (path : String) :
    Does w (Storage.size path) (Storage.size path) [.look path] (w.files.size path) :=
  ⟨fun _ _ hv => hv.files ▸ rfl, fun _ hv => hv.files ▸ rfl⟩

theorem send (w : World) (status : Status) :
    Does w (Listener.send status) (Listener.send status)
      [.send status (w.receiver.receive status).1] (w.receiver.receive status).1 :=
  ⟨fun _ _ hv => hv.receiver ▸ rfl, fun _ hv => hv.receiver ▸ rfl⟩

theorem report (w : World) (r : Record) :
    Does w (Journal.report r) (Journal.report r) [.report r] () :=
  ⟨fun _ _ _ => rfl, fun _ _ => rfl⟩

/-- Writing a text, with the cause of a failure in another wording. -/
theorem writeText (w : World) (wrap : FileError → ε) (path text : String) :
    Does w
      (do
        let result ← ExceptT.lift (Storage.writeText path text)
        liftExcept (result.mapError wrap) : ExceptT ε (StateM Observed) Unit).run
      (do
        let result ← ExceptT.lift (Storage.writeText path text)
        liftExcept (result.mapError wrap) : ExceptT ε (StateM World) Unit).run
      [.write path text.toUTF8 (w.files.write path text.toUTF8).isOk]
      (((w.files.write path text.toUTF8).map fun _ => ()).mapError wrap) :=
  (write w path text.toUTF8).lift.bind_ok (ofExcept _ _)

theorem keepDetails (w : World) :
    Does w Journal.keepDetails Journal.keepDetails [.keepDetails] () :=
  ⟨fun _ _ _ => rfl, fun _ _ => rfl⟩

end Does

/-! ### What is reported -/

/-- The record that is reported with an operation. -/
def Operation.record? : Operation → Option Record
  | .report r => some r
  | _ => none

/-- The records that are reported with operations in order. -/
def reported (trace : List Operation) : List Record := trace.filterMap Operation.record?

theorem reported_append (trace more : List Operation) :
    reported (trace ++ more) = reported trace ++ reported more :=
  List.filterMap_append

theorem mem_reported {trace : List Operation} {r : Record} :
    r ∈ reported trace ↔ .report r ∈ trace := by
  rw [reported, List.mem_filterMap]
  constructor
  · rintro ⟨operation, hoperation, hrecord⟩
    cases operation with
    | report r' =>
      cases hrecord
      exact hoperation
    | _ => cases hrecord
  · exact fun h => ⟨.report r, h, rfl⟩

theorem World.journal_report_filter {p : Record → Bool}
    (hp : ∀ r, p r = true → r.level ≠ .detail) (w : World) (r : Record) :
    (w.report r).journal.filter p = w.journal.filter p ++ [r].filter p := by
  rw [World.report]
  split
  · next hdetail =>
    -- a record that is not kept is a detail
    have hfalse : p r = false := Bool.eq_false_iff.2 fun htrue => hp r htrue hdetail.1
    rw [List.filter_cons_of_neg (by simp [hfalse]), List.filter_nil, List.append_nil]
  · rw [World.journal, List.reverse_cons, List.filter_append]
    rfl

theorem World.journal_reportAll_filter {p : Record → Bool}
    (hp : ∀ r, p r = true → r.level ≠ .detail) (w : World) (records : List Record) :
    (w.reportAll records).journal.filter p = w.journal.filter p ++ records.filter p := by
  induction records generalizing w with
  | nil => rw [World.reportAll_nil, List.filter_nil, List.append_nil]
  | cons r records ih =>
    have hreport : w.reportAll (r :: records) = (w.report r).reportAll records := rfl
    rw [hreport, ih, World.journal_report_filter hp, List.append_assoc, ← List.filter_append,
      List.singleton_append]

/-- The journal holds what was reported, up to details. -/
theorem World.journal_replay_filter {p : Record → Bool}
    (hp : ∀ r, p r = true → r.level ≠ .detail) (w : World) (trace : List Operation) :
    (w.replay trace).journal.filter p = w.journal.filter p ++ (reported trace).filter p := by
  induction trace generalizing w with
  | nil => rw [World.replay_nil, reported, List.filterMap_nil, List.filter_nil, List.append_nil]
  | cons operation trace ih =>
    rw [World.replay_cons, ih]
    cases operation with
    | report r =>
      have hreported : reported (.report r :: trace) = [r] ++ reported trace := rfl
      -- the record comes before what is reported later
      rw [World.act, World.journal_report_filter hp, hreported, List.filter_append,
        List.append_assoc]
    | write path content isDone =>
      rw [World.act]
      cases w.files.write path content <;> rfl
    | _ => rfl

/-! ### Runs that only read -/

/-- Whether an operation looks at one of these files, or is a remark. -/
inductive Operation.IsReading (paths : List String) : Operation → Prop
  | look {path : String} (h : path ∈ paths) : IsReading paths (.look path)
  | read {path : String} (h : path ∈ paths) : IsReading paths (.read path)
  | report {r : Record} (h : r.IsRemark) : IsReading paths (.report r)

/-- Operations that only read change nothing that a run could see. -/
theorem World.alike_replay {paths : List String} {trace : List Operation}
    (h : ∀ operation ∈ trace, operation.IsReading paths) (w : World) :
    (w.replay trace).Alike w := by
  induction trace generalizing w with
  | nil => exact .refl w
  | cons operation trace ih =>
    rw [List.forall_mem_cons] at h
    have hrest := ih h.2 (w.act operation)
    cases h.1 with
    | look hpath => exact hrest
    | read hpath => exact hrest
    | report hr => exact hrest.trans (alike_report w _)

theorem isRemark_of_isReading {paths : List String} {trace : List Operation}
    (h : ∀ operation ∈ trace, operation.IsReading paths) : ∀ r ∈ reported trace, r.IsRemark := by
  intro r hr
  cases h _ (mem_reported.1 hr) with
  | report hremark => exact hremark

/-- Whether two runs of a program only look at these files. -/
def Reads (w : World) (paths : List String) (c : StateM Observed α) (d : StateM World α) : Prop :=
  ∃ trace x, (∀ operation ∈ trace, operation.IsReading paths) ∧ Does w c d trace x

namespace Reads

variable {w : World} {paths paths' : List String}

theorem mono {c : StateM Observed α} {d : StateM World α} (h : Reads w paths c d)
    (hpaths : paths ⊆ paths') : Reads w paths' c d := by
  obtain ⟨trace, x, htrace, hdoes⟩ := h
  refine ⟨trace, x, ?_, hdoes⟩
  intro operation hoperation
  cases htrace operation hoperation with
  | look hpath => exact .look (hpaths hpath)
  | read hpath => exact .read (hpaths hpath)
  | report hr => exact .report hr

theorem pure (w : World) (paths : List String) (x : α) :
    Reads w paths (pure x) (pure x) :=
  ⟨[], x, fun _ h => (List.not_mem_nil h).elim, .pure w x⟩

/-- What follows is run in a world that is no other to it. -/
theorem bind {c : StateM Observed α} {d : StateM World α} {f : α → StateM Observed β}
    {g : α → StateM World β} (h : Reads w paths c d)
    (hnext : ∀ x, (d.run w).1 = x → Reads w paths (f x) (g x)) :
    Reads w paths (c >>= f) (d >>= g) := by
  obtain ⟨trace, x, htrace, hdoes⟩ := h
  obtain ⟨more, y, hmore, hnext⟩ := hnext x (congrArg Prod.fst (hdoes.plain w (.refl w)))
  refine ⟨trace ++ more, y, ?_, hdoes.bind (hnext.congr (World.alike_replay htrace w))⟩
  intro operation hoperation
  exact (List.mem_append.1 hoperation).elim (htrace operation) (hmore operation)

/-- The same for a program that may fail. -/
theorem bind_run {c : ExceptT ε (StateM Observed) α} {d : ExceptT ε (StateM World) α}
    {f : α → ExceptT ε (StateM Observed) β} {g : α → ExceptT ε (StateM World) β}
    (h : Reads w paths c.run d.run)
    (hnext : ∀ x, (attempt d w).1 = .ok x → Reads w paths (f x).run (g x).run) :
    Reads w paths (c >>= f).run (d >>= g).run := by
  rw [ExceptT.run_bind, ExceptT.run_bind]
  refine h.bind ?_
  intro result hresult
  cases result with
  | ok x => exact hnext x hresult
  | error e => exact .pure w paths _

theorem lift {c : StateM Observed α} {d : StateM World α} (h : Reads w paths c d) :
    Reads w paths (ExceptT.lift c : ExceptT ε (StateM Observed) α).run (ExceptT.lift d).run :=
  h.bind fun _ _ => .pure w paths _

theorem isPresent {path : String} (h : path ∈ paths) :
    Reads w paths (Storage.isPresent path) (Storage.isPresent path) :=
  ⟨[.look path], _, by simpa using .look h, .isPresent w path⟩

theorem read {path : String} (h : path ∈ paths) :
    Reads w paths (Storage.read path) (Storage.read path) :=
  ⟨[.read path], _, by simpa using .read h, .read w path⟩

theorem readText {path : String} (h : path ∈ paths) :
    Reads w paths (Storage.readText path) (Storage.readText path) :=
  (read h).bind fun _ _ => .pure w paths _

theorem report {r : Record} (h : r.IsRemark) :
    Reads w paths (Journal.report r) (Journal.report r) :=
  ⟨[.report r], (), by simpa using .report h, .report w r⟩

theorem ofExcept (w : World) (paths : List String) (x : Except ε α) :
    Reads w paths (liftExcept x : ExceptT ε (StateM Observed) α).run
      (liftExcept x : ExceptT ε (StateM World) α).run :=
  ⟨[], x, fun _ h => (List.not_mem_nil h).elim, .ofExcept w x⟩

/-- Remarks on items in order. -/
theorem forReports (xs : List α) {f : α → Record} (h : ∀ x ∈ xs, (f x).IsRemark) :
    Reads w paths
      (forIn xs PUnit.unit fun x _ => do
        Journal.report (f x)
        Pure.pure (ForInStep.yield PUnit.unit) : ExceptT ε (StateM Observed) PUnit).run
      (forIn xs PUnit.unit fun x _ => do
        Journal.report (f x)
        Pure.pure (ForInStep.yield PUnit.unit) : ExceptT ε (StateM World) PUnit).run := by
  induction xs with
  | nil => exact .pure w paths _
  | cons x xs ih =>
    rw [List.forall_mem_cons] at h
    rw [List.forIn_cons, List.forIn_cons]
    exact (report h.1).lift.bind_run fun _ _ => ih h.2

end Reads

end AtomProbe
