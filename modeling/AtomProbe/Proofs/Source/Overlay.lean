import AtomProbe.Proofs.Files.Tree
import AtomProbe.Proofs.Mapping.Dependence
import AtomProbe.Proofs.Source.Account
import AtomProbe.Proofs.Source.Steps

/-!
# `AtomProbe.Proofs.Source.Overlay`: templates are only written to

No table and no parser asks a template for anything. Each of them lays a
map over the template it is given, and neither the map nor the way it
ends depends on the template. So doing the same twice is doing it once.

* `overrides_template`: the map is made by the steps of a parser in
  order, up to the first one that fails (`Converted`), and by the rules
  of a table up to the first one that fails (`Table.Applied`). A table
  depends on its sources and on as many identifiers as it has markers; a
  parser depends on its store and on the files of the workflow.

A parser is `runAll` of its steps, whose account says what they write.
`converted` reads the map off the account.
-/

set_option autoImplicit false

namespace AtomProbe.Source

/-! ### Parsers -/

/-- A parser of an entry: that of the application definition, or that of
an input in a directory, with the store that was loaded, if one was. -/
inductive Parser
  | definition
  | input (input : Input) (directory : String) (store : Option Store)

namespace Parser

/-- The steps of a parser for an entry. -/
def steps (parser : Parser) (id : UInt32) : List Step :=
  match parser with
  | .definition => definitionSteps id
  | .input _ _ none => []
  | .input kind directory (some store) => kind.steps directory store id

/-- The files of the workflow that a parser may look at. -/
def workflowFiles : Parser → List String
  | .input .notebook directory (some store) =>
    Vocabulary.workflowChecksums.filterMap fun (_, source) =>
      (store.text? (Vocabulary.workflowSource ++ "/" ++ source)).map (Path.join directory)
  | _ => []

end Parser

/-- Converting an input is running its parser on the store that was
loaded. -/
theorem exec_convert_of_loaded {input : Input} {path : String} {w : World} {store : Option Store}
    (h : Store.loaded w.files input.endings path = .ok store) (id : UInt32) (t : Template) :
    exec (input.convert path id) t w =
      exec (runAll ((Parser.input input ((Path.parent? path).getD "") store).steps id)) t
        (w.reportAll (⟨.info, input.announcement ++ path⟩ ::
          Store.loadReports w.files input.endings path)) := by
  rw [exec_convert, exec_runAll, World.files_reportAll, Input.account, h]
  cases store with
  | none => rfl
  | some store =>
    simp only [Parser.steps, Account.andThen, Account.perform, Account.result, List.nil_append,
      World.reportAll_append]

/-! ### The files that are looked at -/

/-- The files whose checksum a step takes. -/
def Step.files : Step → List String
  | .checksum _ _ _ path => [path]
  | _ => []

/-- The sections before the workflow look at no files. -/
theorem files_beforeWorkflow (store : Store) (id : UInt32) :
    (Notebook.beforeWorkflow store id).flatMap Step.files = [] := by
  rw [List.flatMap_eq_nil_iff]
  intro step hstep
  rcases cases_of_mem_beforeWorkflow hstep with ⟨table, record, ids, rfl⟩ | ⟨r, rfl, -⟩
  · rfl
  · rfl

theorem files_workflowSteps_subset (directory : String) (store : Store) (id : UInt32) :
    (Notebook.workflowSteps directory store id).flatMap Step.files ⊆
      (Parser.input .notebook directory (some store)).workflowFiles := by
  intro path hpath
  obtain ⟨step, hstep, hpath⟩ := List.mem_flatMap.1 hpath
  obtain ⟨p, hp, name, hname, rfl⟩ := Notebook.mem_workflowSteps.1 hstep
  obtain rfl := List.mem_singleton.1 hpath
  refine List.mem_filterMap.2 ⟨p, hp, ?_⟩
  show (store.text? (Vocabulary.workflowSource ++ "/" ++ p.2)).map _ = _
  rw [hname, Option.map_some]

/-- A parser looks at no other files than those of the workflow. -/
theorem files_steps_subset (parser : Parser) (id : UInt32) :
    (parser.steps id).flatMap Step.files ⊆ parser.workflowFiles := by
  cases parser with
  | definition => exact List.nil_subset _
  | input input directory store =>
    cases store with
    | none => exact List.nil_subset _
    | some store =>
      intro path hpath
      obtain ⟨step, hstep, hfile⟩ := List.mem_flatMap.1 hpath
      rcases cases_of_mem_steps hstep with ⟨table, record, ids, rfl⟩ | ⟨r, rfl, -⟩ | ⟨rfl, hworkflow⟩
      · cases hfile
      · cases hfile
      · exact files_workflowSteps_subset directory store _
          (List.mem_flatMap.2 ⟨step, hworkflow, hfile⟩)

/-- Whether two trees are the same under a path, as far as a checksum of
it goes. -/
def SameFile (files files' : FileTree) (path : String) : Prop :=
  files'.isPresent path = files.isPresent path ∧ files'.read path = files.read path

theorem account_congr {files files' : FileTree} {step : Step}
    (h : ∀ path ∈ step.files, files.SameUnder files' path) :
    step.account files' = step.account files := by
  cases step with
  | report r => rfl
  | apply table store ids => rfl
  | checksum target ids key path =>
    obtain ⟨hpresent, hread⟩ := h path List.mem_cons_self
    simp only [Step.account, checksumAccount, hpresent]
    -- a file that is not there is not read
    cases hfile : files.isPresent path with
    | false => rfl
    | true => rw [hread hfile]

/-- Steps do the same wherever the files whose checksums they take hold
the same. -/
theorem stepsAccount_congr_of_sameUnder {files files' : FileTree} {steps : List Step}
    (h : ∀ path ∈ steps.flatMap Step.files, files.SameUnder files' path) :
    stepsAccount files' steps = stepsAccount files steps := by
  rw [stepsAccount, stepsAccount]
  refine congrArg Account.sequence (List.map_congr_left fun step hstep => ?_)
  exact account_congr fun path hpath => h path (List.mem_flatMap.2 ⟨step, hstep, hpath⟩)

theorem stepsAccount_congr {files files' : FileTree} {steps : List Step}
    (h : ∀ path ∈ steps.flatMap Step.files, SameFile files files' path) :
    stepsAccount files' steps = stepsAccount files steps :=
  stepsAccount_congr_of_sameUnder fun path hpath => ⟨(h path hpath).1, fun _ => (h path hpath).2⟩

/-! ### The map that steps lay over a template -/

/-- What a step writes, as a map, and how it ends. -/
inductive Done (files : FileTree) : Step → Template → Except SourceError Unit → Prop
  | report (r : Record) : Done files (.report r) .empty (.ok ())
  | applied {table : Table} {store : Store} {ids : List UInt32} {d : Template}
      {outcomes : List Outcome} (h : table.Applied store ids d (.ok outcomes)) :
      Done files (.apply table store ids) d (.ok ())
  | refused {table : Table} {store : Store} {ids : List UInt32} {d : Template} {e : MappingError}
      (h : table.Applied store ids d (.error e)) :
      Done files (.apply table store ids) d (.error (.mapping e))
  | absent {target : String} {ids : List UInt32} {key path : String}
      (hpresent : files.isPresent path = false) :
      Done files (.checksum target ids key path) .empty (.ok ())
  | unreadable {target : String} {ids : List UInt32} {key path : String} {e : FileError}
      (hpresent : files.isPresent path = true) (hread : files.read path = .error e) :
      Done files (.checksum target ids key path) .empty (.error (.checksum path e))
  | unresolvable {target : String} {ids : List UInt32} {key path : String} {content : ByteArray}
      (hpresent : files.isPresent path = true) (hread : files.read path = .ok content)
      (htarget : VariadicPath.resolve? target ids = none) :
      Done files (.checksum target ids key path) .empty (.ok ())
  | digest {target : String} {ids : List UInt32} {key path resolved : String} {content : ByteArray}
      (hpresent : files.isPresent path = true) (hread : files.read path = .ok content)
      (htarget : VariadicPath.resolve? target ids = some resolved) :
      Done files (.checksum target ids key path)
        (.ofList [(resolved, .text (Digest.ofContent content))]) (.ok ())

/-- What steps in order write, as a map, and how they end. -/
inductive Converted (files : FileTree) :
    List Step → Template → Except SourceError Unit → Prop
  | nil : Converted files [] .empty (.ok ())
  | cons {step : Step} {steps : List Step} {d d' : Template} {answer : Except SourceError Unit}
      (hstep : Done files step d (.ok ())) (hsteps : Converted files steps d' answer) :
      Converted files (step :: steps) (d.override d') answer
  | failed {step : Step} {steps : List Step} {d : Template} {e : SourceError}
      (hstep : Done files step d (.error e)) : Converted files (step :: steps) d (.error e)

theorem done (files : FileTree) (step : Step) :
    Done files step (.ofList (step.account files).writes) (step.account files).result := by
  -- each way that a step can end is one of `Done`
  cases step with
  | report r => exact .report r
  | apply table store ids =>
    have happlied := table.applied store ids
    rw [Table.answer] at happlied
    simp only [Step.account, tableAccount]
    cases hfailure : (table.effects store ids).failure with
    | some e =>
      rw [hfailure] at happlied
      exact .refused happlied
    | none =>
      rw [hfailure] at happlied
      exact .applied happlied
  | checksum target ids key path =>
    simp only [Step.account, checksumAccount]
    cases hpresent : files.isPresent path with
    | false => exact .absent hpresent
    | true =>
      rw [if_pos rfl]
      cases hread : files.read path with
      | error e => exact .unreadable hpresent hread
      | ok content =>
        cases htarget : VariadicPath.resolve? target ids with
        | none => exact .unresolvable hpresent hread htarget
        | some resolved => exact .digest hpresent hread htarget

/-- The map that steps write is that of their account. Induction on the
steps, up to the first one that fails. -/
theorem converted (files : FileTree) (steps : List Step) :
    Converted files steps (.ofList (stepsAccount files steps).writes)
      (stepsAccount files steps).result := by
  induction steps with
  | nil => exact .nil
  | cons step steps ih =>
    have hstep := done files step
    have hcons : stepsAccount files (step :: steps) =
        (step.account files).andThen (stepsAccount files steps) := rfl
    rw [hcons]
    generalize step.account files = account at hstep
    obtain ⟨reports, writes, failure⟩ := account
    cases failure with
    | some e =>
      -- the later steps are not taken
      exact .failed hstep
    | none =>
      simp only [Account.andThen, SortedMap.ofList_append]
      exact .cons hstep ih

/-! ### Runs -/

/-- A table, and likewise a parser, lays a map over the template, which
does not depend on that template, and no more does the way it ends. If it
fails, the map holds what was written before. A second run changes
nothing and ends alike. A table does the same for stores that hold the
same under the keys of its sources, and for identifiers that are the same
as far as it has markers; a parser does, and reports, the same wherever
the files of the workflow are the same. -/
theorem overrides_template :
    (∀ (table : Table) (store : Store) (ids : List UInt32), ∃ d answer,
      table.Applied store ids d answer ∧
      (∀ t, table.apply store ids t = (t.override d, answer) ∧
        table.apply store ids (t.override d) = (t.override d, answer)) ∧
      ∀ store' ids', (∀ key ∈ table.sourceKeys, store'.get? key = store.get? key) →
        ids'.take table.markers = ids.take table.markers →
          ∀ t, table.apply store' ids' t = (t.override d, answer)) ∧
    ∀ (parser : Parser) (id : UInt32) (files : FileTree), ∃ d answer reports,
      Converted files (parser.steps id) d answer ∧
      ∀ w, (∀ path ∈ parser.workflowFiles, SameFile files w.files path) → ∀ t,
        exec (runAll (parser.steps id)) t w = ((answer, t.override d), w.reportAll reports) ∧
        (exec (runAll (parser.steps id)) (t.override d) (w.reportAll reports)).1 =
          (answer, t.override d) := by
  refine ⟨fun table store ids => ?_, fun parser id files => ?_⟩
  · refine ⟨_, _, table.applied store ids, fun t => ?_, fun store' ids' hstore hids t => ?_⟩
    · have hagain := table.apply_eq_override store ids
      exact ⟨hagain t, by rw [hagain, SortedMap.override_override_self]⟩
    · rw [table.apply_eq_override, Table.writes_congr hstore hids, Table.answer_congr hstore hids]
  · refine ⟨_, _, (stepsAccount files (parser.steps id)).reports, converted files _,
      fun w hfiles t => ?_⟩
    have hrun (t : Template) (w' : World) (hw : w'.files = w.files) :
        exec (runAll (parser.steps id)) t w' =
          (((stepsAccount files (parser.steps id)).result,
            t.override (.ofList (stepsAccount files (parser.steps id)).writes)),
            w'.reportAll (stepsAccount files (parser.steps id)).reports) := by
      -- the steps look at no other files than those of the workflow
      have hsame : ∀ path ∈ (parser.steps id).flatMap Step.files, SameFile files w'.files path :=
        fun path hpath => hw ▸ hfiles path (files_steps_subset parser id hpath)
      rw [exec_runAll, stepsAccount_congr hsame, Account.perform,
        SortedMap.insertAll_eq_override]
    refine ⟨hrun t w rfl, ?_⟩
    rw [hrun _ _ (World.files_reportAll w _), SortedMap.override_override_self]

/-- A user of whom only the identifier is known. -/
def anonymous : Store := .ofList [("orcid", .text "0000-0002-1825-0097")]

/-- A notebook that names a file of the workflow. -/
def measured : Store := .ofList [("workflow/raw_dat_file", .text "run.rhit")]

/-- The identifier of a user is written alike whatever the name of the
user is and whatever identifiers are left over. A notebook is converted
alike in a world of the same files, whatever was reported there: the
checksum of the file that it names is written. -/
theorem overrides_template_anonymous :
    (∃ d answer,
      d.get? "/ENTRY[entry1]/USER[user2]/identifierNAME[identifier]/identifier" =
        some (.text "0000-0002-1825-0097") ∧
      ∀ t, Vocabulary.userIdentifier.apply anonymous [1, 2] t = (t.override d, answer) ∧
        Vocabulary.userIdentifier.apply (anonymous.insert "name" (.text "Ada")) [1, 2, 3] t =
          (t.override d, answer)) ∧
    ∃ d answer,
      (d.get? "/ENTRY[entry1]/atom_probe/raw_data/SERIALIZED[serialized]/checksum").isSome = true ∧
      ∀ t records keepsDetails receiver,
        (exec (runAll ((Parser.input .notebook "" (some measured)).steps 1)) t
          ⟨⟨[], [(["run.rhit"], .file .empty)]⟩, records, keepsDetails, receiver⟩).1 =
            (answer, t.override d) := by
  constructor
  · obtain ⟨d, answer, -, hrun, hcongr⟩ :=
      overrides_template.1 Vocabulary.userIdentifier anonymous [1, 2]
    have hname : "name" ∉ Vocabulary.userIdentifier.sourceKeys := by decide
    have hstore : ∀ key ∈ Vocabulary.userIdentifier.sourceKeys,
        (anonymous.insert "name" (.text "Ada")).get? key = anonymous.get? key := by
      intro key hkey
      have hne : key ≠ "name" := fun heq => hname (heq ▸ hkey)
      rw [SortedMap.get?_insert, if_neg hne]
    have hids : ([1, 2, 3] : List UInt32).take Vocabulary.userIdentifier.markers =
        [1, 2].take Vocabulary.userIdentifier.markers := by decide +kernel
    refine ⟨d, answer, ?_, fun t => ⟨(hrun t).1, hcongr _ _ hstore hids t⟩⟩
    have hempty : (Vocabulary.userIdentifier.apply anonymous [1, 2] .empty).1 =
        SortedMap.empty.override d := congrArg Prod.fst (hrun .empty).1
    rw [← SortedMap.get?_empty_override, ← hempty]
    decide +kernel
  · obtain ⟨d, answer, reports, -, hrun⟩ :=
      overrides_template.2 (.input .notebook "" (some measured)) 1
        ⟨[], [(["run.rhit"], .file .empty)]⟩
    have hworld (t : Template) (records : List Record) (keepsDetails : Bool)
        (receiver : Receiver) :
        (exec (runAll ((Parser.input .notebook "" (some measured)).steps 1)) t
          ⟨⟨[], [(["run.rhit"], .file .empty)]⟩, records, keepsDetails, receiver⟩).1 =
            (answer, t.override d) :=
      congrArg Prod.fst (hrun ⟨⟨[], [(["run.rhit"], .file .empty)]⟩, records, keepsDetails,
        receiver⟩ (fun path _ => ⟨rfl, rfl⟩) t).1
    refine ⟨d, answer, ?_, hworld⟩
    have hempty : (exec (runAll ((Parser.input .notebook "" (some measured)).steps 1)) .empty
        ⟨⟨[], [(["run.rhit"], .file .empty)]⟩, [], false, .patient⟩).1.2 =
          SortedMap.empty.override d := congrArg Prod.snd (hworld .empty [] false .patient)
    rw [← SortedMap.get?_empty_override, ← hempty]
    decide +kernel

end AtomProbe.Source
