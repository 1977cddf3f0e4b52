import AtomProbe.Proofs.Mapping
import AtomProbe.Proofs.SortedMap
import AtomProbe.Proofs.Source.Account

/-!
# `AtomProbe.Proofs.Entry.Merge`: an entry is the merge of its parts

The parts of an entry, which are the application definition and the
inputs that it names, fill one template one after the other. None of
them ever reads the template, so each could as well be given an empty
template of its own, and the templates be laid over each other at the
end.

* `template_eq_merge`: an entry succeeds exactly if all its parts do on
  their own, fails with the error of the first part that fails, and
  otherwise holds under each path what the last part that wrote it did.
  An input that contributes nothing may as well be left out.

The proof works on accounts: `template_sequence` and `error_sequence`
are the merge of any accounts in order.
-/

set_option autoImplicit false

namespace AtomProbe

namespace Source.Account

/-- The template that an account makes of the empty one. -/
def template (a : Account) : Except SourceError Template :=
  a.result.map fun _ => .ofList a.writes

theorem template_eq_ok_iff {a : Account} {t : Template} :
    a.template = .ok t ↔ a.failure = none ∧ .ofList a.writes = t := by
  obtain ⟨reports, writes, failure⟩ := a
  cases failure <;> simp [template, result, Except.map]

theorem template_eq_error_iff {a : Account} {e : SourceError} :
    a.template = .error e ↔ a.failure = some e := by
  obtain ⟨reports, writes, failure⟩ := a
  cases failure <;> simp [template, result, Except.map]

/-- Accounts that all make templates on their own make one in order. It
holds under each path what the last of their templates that has the path
holds there. Induction on the accounts, from the last one to the first. -/
theorem get?_template_sequence {as : List Account} {ts : List Template}
    (hts : as.map template = ts.map .ok) :
    (sequence as).failure = none ∧
      ∀ path, (SortedMap.ofList (sequence as).writes).get? path =
        ts.reverse.findSome? (·.get? path) := by
  induction as generalizing ts with
  | nil =>
    obtain rfl : ts = [] := by simpa using hts.symm
    exact ⟨rfl, fun path => rfl⟩
  | cons a as ih =>
    cases ts with
    | nil => cases hts
    | cons t ts =>
      obtain ⟨ha, htail⟩ := List.cons.inj hts
      obtain ⟨hfailure, rfl⟩ := template_eq_ok_iff.1 ha
      obtain ⟨hrest, hget⟩ := ih htail
      refine ⟨by rw [sequence_cons, failure_andThen, hfailure, hrest]; rfl, fun path => ?_⟩
      rw [sequence_cons, writes_andThen hfailure, SortedMap.get?_ofList_append, hget,
        List.reverse_cons, List.findSome?_append, List.findSome?_singleton]

/-- If accounts in order do not fail, each of them makes a template. -/
theorem exists_templates {as : List Account} (h : (sequence as).failure = none) :
    ∃ ts : List Template, as.map template = ts.map .ok := by
  induction as with
  | nil => exact ⟨[], rfl⟩
  | cons a as ih =>
    rw [sequence_cons, failure_andThen, Option.or_eq_none_iff] at h
    obtain ⟨ts, hts⟩ := ih h.2
    have ha : a.template = .ok (.ofList a.writes) := template_eq_ok_iff.2 ⟨h.1, rfl⟩
    exact ⟨SortedMap.ofList a.writes :: ts, by rw [List.map_cons, List.map_cons, ha, hts]⟩

/-- The template of accounts in order is the merge of their templates. -/
theorem template_sequence (as : List Account) (t : Template) :
    (sequence as).template = .ok t ↔
      ∃ ts : List Template, as.map template = ts.map .ok ∧
        ∀ path, t.get? path = ts.reverse.findSome? (·.get? path) := by
  rw [template_eq_ok_iff]
  constructor
  · rintro ⟨hfailure, rfl⟩
    obtain ⟨ts, hts⟩ := exists_templates hfailure
    exact ⟨ts, hts, (get?_template_sequence hts).2⟩
  · rintro ⟨ts, hts, ht⟩
    obtain ⟨hfailure, hget⟩ := get?_template_sequence hts
    exact ⟨hfailure, SortedMap.ext_get? fun path => (hget path).trans (ht path).symm⟩

/-- Accounts in order fail with the error of the first one that fails. -/
theorem error_sequence (as : List Account) (e : SourceError) :
    (sequence as).template = .error e ↔
      ∃ (ts : List Template) (rest : List (Except SourceError Template)),
        as.map template = ts.map .ok ++ .error e :: rest := by
  induction as with
  | nil =>
    constructor
    · intro h
      cases h
    · rintro ⟨ts, rest, h⟩
      cases ts <;> cases h
  | cons a as ih =>
    rw [template_eq_error_iff] at ih ⊢
    rw [sequence_cons, failure_andThen]
    cases hfailure : a.failure with
    | some e' =>
      have ha : a.template = .error e' := template_eq_error_iff.2 hfailure
      rw [Option.some_or, List.map_cons, ha]
      constructor
      · -- the first account fails, so that none is done before the error
        rintro ⟨rfl⟩
        exact ⟨[], as.map template, rfl⟩
      · rintro ⟨ts, rest, h⟩
        cases ts <;> cases h
        rfl
    | none =>
      have ha : a.template = .ok (.ofList a.writes) := template_eq_ok_iff.2 ⟨hfailure, rfl⟩
      rw [Option.none_or, ih, List.map_cons, ha]
      constructor
      · rintro ⟨ts, rest, h⟩
        exact ⟨SortedMap.ofList a.writes :: ts, rest, by rw [h]; rfl⟩
      · rintro ⟨ts, rest, h⟩
        cases ts with
        | nil => cases h
        | cons t ts => exact ⟨ts, rest, (List.cons.inj h).2⟩

/-! ### What may be left out -/

/-- Accounts that write and fail alike, whatever they report. -/
def Agrees (a b : Account) : Prop := a.writes = b.writes ∧ a.failure = b.failure

theorem Agrees.refl (a : Account) : a.Agrees a := ⟨rfl, rfl⟩

theorem Agrees.template_eq {a b : Account} (h : a.Agrees b) : a.template = b.template := by
  rw [template, template, result, result, h.1, h.2]

theorem Agrees.andThen {a a' b b' : Account} (ha : a.Agrees a') (hb : b.Agrees b') :
    (a.andThen b).Agrees (a'.andThen b') := by
  obtain ⟨reports, writes, failure⟩ := a
  obtain ⟨reports', writes', failure'⟩ := a'
  obtain ⟨rfl, rfl⟩ := ha
  cases failure with
  | some e => exact ⟨rfl, rfl⟩
  | none => exact ⟨congrArg (writes ++ ·) hb.1, hb.2⟩

theorem Agrees.sequence_append {as as' bs bs' : List Account}
    (ha : (sequence as).Agrees (sequence as')) (hb : (sequence bs).Agrees (sequence bs')) :
    (sequence (as ++ bs)).Agrees (sequence (as' ++ bs')) := by
  rw [Account.sequence_append, Account.sequence_append]
  exact ha.andThen hb

end Source.Account

namespace Entry

open Source

/-- What a conversion makes of the empty template in a world. -/
def standalone (w : World) (c : Conversion (StateM World) Unit) : Except SourceError Template :=
  match (exec c .empty w).1 with
  | (.ok (), template) => .ok template
  | (.error e, _) => .error e

/-- The parts of an entry in order: the application definition, then the
inputs, each where the entry names it. -/
def parts (entry : Entry) : List (Conversion (StateM World) Unit) :=
  [runAll (definitionSteps entry.id)] ++
    (entry.deployment.map fun path => Input.deployment.convert path entry.id).toList ++
    (entry.notebook.map fun path => Input.notebook.convert path entry.id).toList ++
    (entry.vendor.map fun path => Input.vendor.convert path entry.id).toList

/-- The template of an entry in a world, or why there is none. -/
def result (entry : Entry) (w : World) : Except SourceError Template :=
  (attempt entry.template w).1

/-- Whether an input contributes nothing: its name has none of the
endings, or it does not exist, or nothing is stored in it. -/
def IsIdle (files : FileTree) (input : Input) (path : String) : Prop :=
  Store.isAccepted input.endings path = false ∨ files.isPresent path = false ∨
    ∃ store, Store.fileStore files path = .ok store ∧ store.isEmpty = true

/-- Whether a path that an entry names is the same, or is left out where
the input contributes nothing. -/
def IsPruned (files : FileTree) (input : Input) (path path' : Option String) : Prop :=
  path' = path ∨ path' = none ∧ ∃ p, path = some p ∧ IsIdle files input p

/-- Whether an entry is another one without some inputs that contribute
nothing. -/
structure Prunes (files : FileTree) (entry entry' : Entry) : Prop where
  id : entry'.id = entry.id
  deployment : IsPruned files .deployment entry.deployment entry'.deployment
  notebook : IsPruned files .notebook entry.notebook entry'.notebook
  vendor : IsPruned files .vendor entry.vendor entry'.vendor

theorem standalone_eq {c : Conversion (StateM World) Unit} {w : World} {a : Account}
    (h : exec c .empty w = a.perform .empty w) : standalone w c = a.template := by
  rw [standalone, h]
  simp only [Account.perform, Account.template, SortedMap.ofList]
  cases a.result <;> rfl

/-- The accounts of the inputs of an entry. -/
def inputAccounts (files : FileTree) (id : UInt32) (inputs : List (Input × String)) :
    List Account :=
  inputs.map fun (input, path) => input.account files path id

/-- The accounts of the parts of an entry. -/
def partAccounts (files : FileTree) (entry : Entry) : List Account :=
  stepsAccount files (definitionSteps entry.id) :: inputAccounts files entry.id entry.inputs

theorem map_standalone_parts (entry : Entry) (w : World) :
    entry.parts.map (standalone w) = (entry.partAccounts w.files).map Account.template := by
  have hinput (input : Input) (path : Option String) :
      ((path.map fun path => input.convert path entry.id).toList).map (standalone w) =
        (inputAccounts w.files entry.id (path.map fun path => (input, path)).toList).map
          Account.template := by
    cases path with
    | none => rfl
    | some path =>
      exact congrArg (fun t => [t]) (standalone_eq (exec_convert input path entry.id .empty w))
  rw [parts, List.map_append, List.map_append, List.map_append, hinput, hinput, hinput,
    List.map_singleton, standalone_eq (exec_runAll (definitionSteps entry.id) .empty w)]
  simp only [partAccounts, inputs, inputAccounts, List.map_append, List.map_cons,
    List.cons_append, List.nil_append]

theorem result_eq (entry : Entry) (w : World) :
    entry.result w = (Account.sequence (entry.partAccounts w.files)).template := by
  rw [result, attempt_template]
  rfl

/-! ### Parts that succeed -/

/-- An entry succeeds if its parts do on their own. -/
theorem exists_result {entry : Entry} {w : World} {ts : List Template}
    (hts : entry.parts.map (standalone w) = ts.map .ok) :
    ∃ t, entry.result w = .ok t ∧ ∀ path, t.get? path = ts.reverse.findSome? (·.get? path) := by
  rw [map_standalone_parts] at hts
  obtain ⟨hfailure, hget⟩ := Account.get?_template_sequence hts
  refine ⟨_, ?_, hget⟩
  rw [result_eq, Account.template_eq_ok_iff]
  exact ⟨hfailure, rfl⟩

/-- The application definition does. -/
theorem exists_definition (w : World) (id : UInt32) :
    ∃ t, standalone w (runAll (definitionSteps id)) = .ok t := by
  have heffects : (Vocabulary.applicationDefinition.effects .empty [entryNumber id]).failure =
      none :=
    Table.failure_effects rfl (by decide) _
  have hfailure : (stepsAccount w.files (definitionSteps id)).failure = none := by
    rw [stepsAccount, definitionSteps, List.map_singleton, Account.sequence_cons,
      Account.sequence_nil, Account.andThen_nothing, Step.account, tableAccount, heffects]
  exact ⟨_, (standalone_eq (exec_runAll _ .empty w)).trans
    (Account.template_eq_ok_iff.2 ⟨hfailure, rfl⟩)⟩

/-- So does an input whose file is accepted and can be read, if the steps
with its store do not fail. The template is what they write. -/
theorem exists_standalone {w : World} {input : Input} {path text : String} (id : UInt32)
    {P : Template → Bool} (haccepted : Store.isAccepted input.endings path = true)
    (hread : (w.files.read path >>= Storage.decode).toOption = some text)
    (hsteps : (Store.ofText text).toOption.any (fun store =>
      let a := stepsAccount w.files (input.steps ((Path.parent? path).getD "") store id)
      a.failure.isNone && P (.ofList a.writes)) = true) :
    ∃ t, standalone w (input.convert path id) = .ok t ∧ P t = true := by
  obtain ⟨store, hloaded, hstore⟩ := Store.exists_loaded haccepted hread hsteps
  rw [Bool.and_eq_true, Option.isNone_iff_eq_none] at hstore
  obtain ⟨hfailure, hP⟩ := hstore
  refine ⟨_, ?_, hP⟩
  rw [standalone_eq (exec_convert input path id .empty w), Account.template_eq_ok_iff,
    Input.account, hloaded]
  exact ⟨hfailure, rfl⟩

/-! ### Parts that contribute nothing -/

/-- An input that contributes nothing neither writes nor fails. -/
theorem account_of_isIdle {files : FileTree} {input : Input} {path : String}
    (h : IsIdle files input path) (id : UInt32) :
    (input.account files path id).Agrees .nothing := by
  rw [Input.account, Store.loaded]
  rcases h with h | h | ⟨store, h, hempty⟩
  · rw [h]
    exact ⟨rfl, rfl⟩
  · rw [h, Bool.and_false]
    exact ⟨rfl, rfl⟩
  · rw [h]
    cases Store.isAccepted input.endings path && files.isPresent path with
    | false => exact ⟨rfl, rfl⟩
    | true =>
      have hsteps (directory : String) : input.steps directory store id = [] := if_pos hempty
      change Account.Agrees (Account.andThen _ (stepsAccount files _)) _
      rw [hsteps]
      exact ⟨rfl, rfl⟩

/-- Leaving out an input that contributes nothing changes neither what
is written nor how it ends. -/
theorem agrees_of_isPruned {files : FileTree} {input : Input} {path path' : Option String}
    (h : IsPruned files input path path') (id : UInt32) :
    (Account.sequence (inputAccounts files id (path.map fun path => (input, path)).toList)).Agrees
      (.sequence (inputAccounts files id (path'.map fun path => (input, path)).toList)) := by
  rcases h with rfl | ⟨rfl, p, rfl, hidle⟩
  · exact .refl _
  · simpa [inputAccounts] using account_of_isIdle hidle id

/-- An entry succeeds exactly if all its parts succeed on their own, and
then holds under each path what the last of them that wrote it did. It
fails with the error of the first part that fails. Leaving out inputs
that contribute nothing never changes this result. -/
theorem template_eq_merge (entry : Entry) (w : World) :
    (∀ t, entry.result w = .ok t ↔
      ∃ ts : List Template, entry.parts.map (standalone w) = ts.map .ok ∧
        ∀ path, t.get? path = ts.reverse.findSome? (·.get? path)) ∧
    (∀ e, entry.result w = .error e ↔
      ∃ (ts : List Template) (rest : List (Except SourceError Template)),
        entry.parts.map (standalone w) = ts.map .ok ++ .error e :: rest) ∧
    ∀ entry', Prunes w.files entry entry' → entry'.result w = entry.result w := by
  refine ⟨fun t => ?_, fun e => ?_, fun entry' h => ?_⟩
  · rw [result_eq, map_standalone_parts]
    exact Account.template_sequence _ t
  · rw [result_eq, map_standalone_parts]
    exact Account.error_sequence _ e
  · have hinputs : (Account.sequence (inputAccounts w.files entry.id entry.inputs)).Agrees
        (.sequence (inputAccounts w.files entry.id entry'.inputs)) := by
      simp only [inputs, inputAccounts, List.map_append]
      exact ((agrees_of_isPruned h.deployment entry.id).sequence_append
        (agrees_of_isPruned h.notebook entry.id)).sequence_append
          (agrees_of_isPruned h.vendor entry.id)
    rw [result_eq, result_eq, partAccounts, partAccounts, h.id, Account.sequence_cons,
      Account.sequence_cons]
    exact ((Account.Agrees.refl _).andThen hinputs).template_eq.symm

/-- A notebook in which nothing is written down. -/
def blankNotebook : FileTree := ⟨[], [(["eln_data.yaml"], .file "{}".toUTF8)]⟩

theorem isIdle_blankNotebook : IsIdle blankNotebook .notebook "eln_data.yaml" := by
  have hread : (blankNotebook.read "eln_data.yaml" >>= Storage.decode).toOption = some "{}" := by
    decide
  exact .inr (.inr (Store.exists_fileStore hread (by decide +kernel)))

/-- The merge for an entry whose notebook is blank, whose configuration
has another ending, and whose vendor file does not exist: all three may
be left out. -/
theorem template_eq_merge_of_idle :
    Prunes blankNotebook ⟨7, some "eln_data.yaml", some "notes", some "a.cameca"⟩
        ⟨7, none, none, none⟩ ∧
      result ⟨7, none, none, none⟩ (.ofFiles blankNotebook) =
        result ⟨7, some "eln_data.yaml", some "notes", some "a.cameca"⟩
          (.ofFiles blankNotebook) := by
  have hname : Store.isAccepted Input.deployment.endings "notes" = false := by
    rw [Store.isAccepted_name (by decide) (by decide)]
    decide
  have hfile : blankNotebook.isPresent "a.cameca" = false := by decide
  have hprunes : Prunes blankNotebook
      ⟨7, some "eln_data.yaml", some "notes", some "a.cameca"⟩ ⟨7, none, none, none⟩ :=
    { id := rfl
      deployment := .inr ⟨rfl, "notes", rfl, .inl hname⟩
      notebook := .inr ⟨rfl, "eln_data.yaml", rfl, isIdle_blankNotebook⟩
      vendor := .inr ⟨rfl, "a.cameca", rfl, .inr (.inl hfile)⟩ }
  exact ⟨hprunes, (template_eq_merge _ (.ofFiles blankNotebook)).2.2 _ hprunes⟩

end Entry

end AtomProbe
