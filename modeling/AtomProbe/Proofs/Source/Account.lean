import AtomProbe.Entry
import AtomProbe.Proofs.Metadata.Load

/-!
# `AtomProbe.Proofs.Source.Account`: what a conversion does, said without running it

A conversion reads files, reports, writes into a template, and may
fail. It never asks the template for anything. So all of it can be said
beforehand, from the files alone: an `Account` lists the reports and the
writes in order, and the failure that ends them. `Account.perform` is a
run of an account from a template and a world.

Each action has its account (`Step.account`, `Input.account`,
`Entry.account`), and one equation says that running the action is
performing the account:

- `exec_run`: a step;
- `exec_runAll`: steps in order;
- `exec_convert`: an input;
- `exec_fill`: an entry, of which `attempt_template` is the template.
-/

set_option autoImplicit false

namespace AtomProbe

namespace Source

/-- What a conversion reports and writes, and why it fails, if it does. -/
structure Account where
  reports : List Record
  writes : List (String × TemplateValue)
  failure : Option SourceError

namespace Account

/-- Nothing is done. -/
def nothing : Account := ⟨[], [], none⟩

/-- An account that ends with a failure. -/
def failed (reports : List Record) (e : SourceError) : Account := ⟨reports, [], some e⟩

/-- One account and another one behind it, unless the first one fails. -/
def andThen (a b : Account) : Account :=
  match a.failure with
  | some _ => a
  | none => ⟨a.reports ++ b.reports, a.writes ++ b.writes, b.failure⟩

/-- Accounts in order, up to the first failure. -/
def sequence (accounts : List Account) : Account := accounts.foldr andThen nothing

/-- How the account ends. -/
def result (a : Account) : Except SourceError Unit :=
  match a.failure with
  | some e => .error e
  | none => .ok ()

/-- Do what the account says, from a template and a world. -/
def perform (a : Account) (t : Template) (w : World) :
    (Except SourceError Unit × Template) × World :=
  ((a.result, t.insertAll a.writes), w.reportAll a.reports)

@[simp] theorem sequence_nil : sequence [] = nothing := rfl

@[simp] theorem sequence_cons (a : Account) (as : List Account) :
    sequence (a :: as) = a.andThen (sequence as) := rfl

@[simp] theorem nothing_andThen (a : Account) : nothing.andThen a = a := rfl

@[simp] theorem andThen_nothing (a : Account) : a.andThen nothing = a := by
  obtain ⟨reports, writes, failure⟩ := a
  cases failure with
  | none => simp [andThen, nothing]
  | some e => rfl

theorem andThen_assoc (a b c : Account) : (a.andThen b).andThen c = a.andThen (b.andThen c) := by
  obtain ⟨ra, wa, fa⟩ := a
  obtain ⟨rb, wb, fb⟩ := b
  cases fa with
  | none =>
    cases fb with
    | none => simp [andThen, List.append_assoc]
    | some e => rfl
  | some e => rfl

theorem sequence_append (as bs : List Account) :
    sequence (as ++ bs) = (sequence as).andThen (sequence bs) := by
  induction as with
  | nil => rfl
  | cons a as ih => rw [List.cons_append, sequence_cons, ih, sequence_cons, andThen_assoc]

theorem failure_andThen (a b : Account) : (a.andThen b).failure = a.failure.or b.failure := by
  obtain ⟨reports, writes, failure⟩ := a
  cases failure <;> rfl

theorem writes_andThen {a : Account} (h : a.failure = none) (b : Account) :
    (a.andThen b).writes = a.writes ++ b.writes := by
  obtain ⟨reports, writes, failure⟩ := a
  cases h
  rfl

theorem result_of_failure_eq_none {a : Account} (h : a.failure = none) : a.result = .ok () := by
  rw [result, h]

end Account

/-! ### Running a conversion -/

variable {α β : Type}

/-- A run of a conversion from a template and a world. -/
def exec (c : Conversion (StateM World) α) (t : Template) (w : World) :
    (Except SourceError α × Template) × World :=
  (c.run.run t).run w

/-- What follows a failure is not run. -/
theorem exec_bind (c : Conversion (StateM World) α) (f : α → Conversion (StateM World) β)
    (t : Template) (w : World) :
    exec (c >>= f) t w =
      match exec c t w with
      | ((.ok x, t'), w') => exec (f x) t' w'
      | ((.error e, t'), w') => ((.error e, t'), w') := by
  simp only [exec, ExceptT.run_bind, StateT.run_bind]
  rcases (c.run.run t).run w with ⟨⟨result, t'⟩, w'⟩
  cases result <;> rfl

theorem exec_isPresent (path : String) (t : Template) (w : World) :
    exec (Storage.isPresent path) t w = ((.ok (w.files.isPresent path), t), w) := rfl

theorem exec_read (path : String) (t : Template) (w : World) :
    exec (ExceptT.lift (Storage.read path)) t w = ((.ok (w.files.read path), t), w) := rfl

/-- Performing two accounts, where the second one is that of `f`. -/
theorem exec_bind_of_eq {c : Conversion (StateM World) Unit}
    {f : Unit → Conversion (StateM World) Unit} {a b : Account} {t : Template} {w : World}
    (hc : exec c t w = a.perform t w)
    (hf : ∀ t' w', w'.files = w.files → exec (f ()) t' w' = b.perform t' w') :
    exec (c >>= f) t w = (a.andThen b).perform t w := by
  rw [exec_bind, hc]
  obtain ⟨reports, writes, failure⟩ := a
  cases failure with
  | some e => rfl
  | none =>
    have h := hf (t.insertAll writes) (w.reportAll reports) (World.files_reportAll w reports)
    simp only [Account.perform, Account.result, Account.andThen, SortedMap.insertAll_append,
      World.reportAll_append] at h ⊢
    exact h

/-! ### Steps -/

/-- The account of taking the checksum of a file. -/
def checksumAccount (files : FileTree) (target : String) (ids : List UInt32)
    (key path : String) : Account :=
  if files.isPresent path then
    match files.read path with
    | .error e => .failed [] (.checksum path e)
    | .ok content =>
      match VariadicPath.resolve? target ids with
      | none => .nothing
      | some resolved =>
        let digest := Digest.ofContent content
        ⟨[⟨.detail, s!"Checksum of {path}: {digest}"⟩], [(resolved, .text digest)], none⟩
  else
    ⟨[⟨.warning, s!"Workflow file {path} does not exist, no checksum written for {key}"⟩], [],
      none⟩

/-- The account of applying a table. -/
def tableAccount (table : Table) (store : Store) (ids : List UInt32) : Account :=
  let p := table.effects store ids
  match p.failure with
  | some e => ⟨[], table.writes store ids, some (.mapping e)⟩
  | none =>
    ⟨[⟨.detail, summary table ids (p.done.map Effect.outcome)⟩], table.writes store ids, none⟩

/-- The account of a step. -/
def Step.account (files : FileTree) : Step → Account
  | .report r => ⟨[r], [], none⟩
  | .apply table store ids => tableAccount table store ids
  | .checksum target ids key path => checksumAccount files target ids key path

/-- The account of steps in order. -/
def stepsAccount (files : FileTree) (steps : List Step) : Account :=
  .sequence (steps.map (Step.account files))

theorem stepsAccount_append (files : FileTree) (steps steps' : List Step) :
    stepsAccount files (steps ++ steps') =
      (stepsAccount files steps).andThen (stepsAccount files steps') := by
  rw [stepsAccount, List.map_append, Account.sequence_append]
  rfl

theorem exec_writeChecksum (target : String) (ids : List UInt32) (key path : String)
    (t : Template) (w : World) :
    exec (writeChecksum target ids key path) t w =
      (checksumAccount w.files target ids key path).perform t w := by
  simp only [writeChecksum, checksumAccount, exec_bind, exec_isPresent]
  cases w.files.isPresent path with
  | false => rfl
  | true =>
    simp only [if_true, exec_bind, exec_read]
    cases w.files.read path with
    | error e => rfl
    | ok content =>
      cases VariadicPath.resolve? target ids with
      | none => rfl
      | some resolved => rfl

theorem exec_applyTable (table : Table) (store : Store) (ids : List UInt32) (t : Template)
    (w : World) :
    exec (applyTable table store ids) t w = (tableAccount table store ids).perform t w := by
  rw [tableAccount]
  have hrun : exec (applyTable table store ids) t w =
      match (table.effects store ids).failure with
      | some e => ((.error (.mapping e), t.insertAll (table.writes store ids)), w)
      | none => ((.ok (), t.insertAll (table.writes store ids)),
          w.report ⟨.detail,
            summary table ids ((table.effects store ids).done.map Effect.outcome)⟩) := by
    rw [applyTable, exec_bind]
    change exec _ t w = _
    simp only [Table.apply]
    cases (table.effects store ids).failure <;> rfl
  rw [hrun]
  cases (table.effects store ids).failure <;> rfl

/-- Doing a step is performing its account. -/
theorem exec_run (step : Step) (t : Template) (w : World) :
    exec step.run t w = (step.account w.files).perform t w := by
  cases step with
  | report r => rfl
  | apply table store ids => exact exec_applyTable table store ids t w
  | checksum target ids key path => exact exec_writeChecksum target ids key path t w

/-- Doing steps in order is performing their accounts in order. -/
theorem exec_runAll (steps : List Step) (t : Template) (w : World) :
    exec (runAll steps) t w = (stepsAccount w.files steps).perform t w := by
  induction steps generalizing t w with
  | nil => rfl
  | cons step steps ih =>
    refine exec_bind_of_eq (exec_run step t w) fun t' w' hw => ?_
    rw [ih, hw]
    rfl

/-! ### Inputs -/

/-- The account of converting the input under a path. -/
def Input.account (files : FileTree) (input : Input) (path : String) (id : UInt32) : Account :=
  let reports := ⟨.info, input.announcement ++ path⟩ :: Store.loadReports files input.endings path
  match Store.loaded files input.endings path with
  | .error e => .failed reports (.metadata e)
  | .ok none => ⟨reports, [], none⟩
  | .ok (some store) =>
    Account.andThen ⟨reports, [], none⟩
      (stepsAccount files (input.steps ((Path.parent? path).getD "") store id))

theorem attempt_inputLoad (input : Input) (path : String) (w : World) :
    attempt (input.load path) w =
      ((Store.loaded w.files input.endings path).mapError .metadata,
        w.reportAll (⟨.info, input.announcement ++ path⟩ ::
          Store.loadReports w.files input.endings path)) := by
  have hload := Store.attempt_load input.endings path
    (w.report ⟨.info, input.announcement ++ path⟩)
  rw [World.files_report] at hload
  rw [Input.load, attempt_bind]
  change attempt (_ >>= _) (w.report ⟨.info, input.announcement ++ path⟩) = _
  have hlift : attempt (ExceptT.lift (Store.load input.endings path).run :
      ExceptT SourceError (StateM World) _) (w.report ⟨.info, input.announcement ++ path⟩) =
      (.ok (Store.loaded w.files input.endings path),
        w.reportAll (⟨.info, input.announcement ++ path⟩ ::
          Store.loadReports w.files input.endings path)) :=
    congrArg (fun r => (Except.ok r.1, r.2)) hload
  rw [attempt_bind, hlift]
  cases Store.loaded w.files input.endings path <;> rfl

/-- Converting an input is performing its account. -/
theorem exec_convert (input : Input) (path : String) (id : UInt32) (t : Template) (w : World) :
    exec (input.convert path id) t w = (input.account w.files path id).perform t w := by
  have hlift : exec (ExceptT.lift (liftM
      (input.load path : ExceptT SourceError (StateM World) (Option Store)).run)) t w =
      ((.ok (attempt (input.load path) w).1, t), (attempt (input.load path) w).2) := rfl
  rw [Input.convert, exec_bind, hlift, attempt_inputLoad, Input.account]
  cases hloaded : Store.loaded w.files input.endings path with
  | error e => rfl
  | ok found =>
    cases found with
    | none => rfl
    | some store =>
      -- the steps find the files that were there before the store was loaded
      have hsteps := exec_runAll (input.steps ((Path.parent? path).getD "") store id) t
        (w.reportAll (⟨.info, input.announcement ++ path⟩ ::
          Store.loadReports w.files input.endings path))
      rw [World.files_reportAll] at hsteps
      refine hsteps.trans ?_
      simp only [Account.perform, Account.andThen, Account.result, List.nil_append,
        World.reportAll_append]

end Source

/-! ### Entries -/

namespace Entry

open Source

/-- The account of filling a template with what is known about an entry. -/
def account (files : FileTree) (entry : Entry) : Account :=
  (stepsAccount files (definitionSteps entry.id)).andThen
    (.sequence (entry.inputs.map fun (input, path) => input.account files path entry.id))

theorem exec_convertAll (id : UInt32) (inputs : List (Input × String)) (t : Template) (w : World) :
    exec (convertAll id inputs) t w =
      (Account.sequence (inputs.map fun (input, path) =>
        input.account w.files path id)).perform t w := by
  induction inputs generalizing t w with
  | nil => rfl
  | cons first more ih =>
    obtain ⟨input, path⟩ := first
    refine exec_bind_of_eq (exec_convert input path id t w) fun t' w' hw => ?_
    rw [ih, hw]
    rfl

/-- Filling a template is performing the account of the entry. -/
theorem exec_fill (entry : Entry) (t : Template) (w : World) :
    exec entry.fill t w = (entry.account w.files).perform t w := by
  refine exec_bind_of_eq (exec_runAll (definitionSteps entry.id) t w) fun t' w' hw => ?_
  rw [exec_convertAll, hw]

/-- The template of an entry is what its account writes into the empty
template. -/
theorem attempt_template (entry : Entry) (w : World) :
    attempt entry.template w =
      ((entry.account w.files).result.map fun _ => .ofList (entry.account w.files).writes,
        w.reportAll (entry.account w.files).reports) := by
  have hfill := exec_fill entry .empty w
  have hlift : attempt (ExceptT.lift ((entry.fill (m := StateM World)).run.run .empty) :
      ExceptT SourceError (StateM World) _) w =
      (.ok (exec entry.fill .empty w).1, (exec entry.fill .empty w).2) := rfl
  rw [template, attempt_bind, hlift, hfill]
  simp only [Account.perform]
  cases (entry.account w.files).result <;> rfl

end Entry

end AtomProbe
