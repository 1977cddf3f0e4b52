import AtomProbe.Program
import AtomProbe.Proofs.Batch.Course
import AtomProbe.Proofs.CommandLine.Reading
import AtomProbe.Proofs.Config.Document
import AtomProbe.Proofs.World.Verdict

/-!
# `AtomProbe.Proofs.Program`: the log tells the truth

The exit status only says whether the arguments were understood. How the
run has ended is for the log file to say. `Truthful` lists what can be
learned from it, and `log_of_run` says that this is so whenever the log
file could be made and the arguments ask for something (`Asks`).

The proof follows the program from its end to its beginning. For each
part there is one lemma: what the part reports in the end, and which
files it leaves by then, whether or not details are kept.

* `concludes_mapAll`, `concludes_convertAll`, `concludes_convert`: a
  conversion.
* `concludes_create`: a template configuration.
* `exists_leaves_of_convert`, `exists_leaves_of_create`: the whole program,
  after the log file has been made.

The journal is kept apart from the files, so a run that reads the log
file finds it empty.
-/

set_option autoImplicit false

namespace AtomProbe.Program

open Batch

/-! ### How a run ends -/

/-- Whether all entries of the configuration under a path have been
converted, each in the files that those before have left. -/
inductive Success (before : FileTree) : Option String → FileTree → Prop
  | all {path : String} {config : Config} {after : FileTree}
      (hstored : Config.stored before path = .ok config) (hvalid : config.validate = .ok ())
      (hall : ConvertsAll config config.entries before after) :
      Success before (some path) after

/-- Why no conversion, or not all of it, has been done. Only the entries
before the first one that fails have left files. -/
inductive Failure (before : FileTree) : Option String → FileTree → String → Prop
  | lacking : Failure before none before pathRequired
  | unreadable {path : String} {e : ConfigError} (hstored : Config.stored before path = .error e) :
      Failure before (some path) before e.message
  | invalid {path : String} {config : Config} {e : ConfigError}
      (hstored : Config.stored before path = .ok config) (hinvalid : config.validate = .error e) :
      Failure before (some path) before e.message
  | stopped {path : String} {config : Config} {after : FileTree} {done later : List Entry}
      {entry : Entry} {e : BatchError} (hstored : Config.stored before path = .ok config)
      (hvalid : config.validate = .ok ()) (hentries : config.entries = done ++ entry :: later)
      (hdone : ConvertsAll config done before after) (hfails : Fails config entry after e) :
      Failure before (some path) after ("Mapping failed with error: " ++ e.message)

/-- What a conversion leaves, and its verdict. -/
inductive Converted (before : FileTree) (path : Option String) (after : FileTree) :
    List Record → Prop
  | succeeded (h : Success before path after) : Converted before path after [.success]
  | failed {text : String} (h : Failure before path after text) :
      Converted before path after [⟨.error, text⟩]

/-- What making a template configuration leaves, and its verdicts. -/
inductive Created (before : FileTree) : Option String → FileTree → List Record → Prop
  | lacking : Created before none before [⟨.error, pathRequired⟩]
  | failed {path : String} {e : FileError}
      (hwrite : before.write path Config.placeholder.document.toUTF8 = .error e) :
      Created before (some path) before
        [⟨.error, "Could not create template config file: " ++ (ConfigError.file e).message⟩]
  | made {path : String} {after : FileTree}
      (hwrite : before.write path Config.placeholder.document.toUTF8 = .ok after) :
      Created before (some path) after []

/-- No run that fails has converted all entries. -/
theorem Failure.not_success {before after after' : FileTree} {path : Option String} {text : String}
    (h : Failure before path after text) : ¬ Success before path after' := by
  rintro ⟨hstored, hvalid, hall⟩
  cases h with
  | unreadable hstored' =>
    rw [hstored] at hstored'
    cases hstored'
  | invalid hstored' hinvalid =>
    obtain rfl := Except.ok.inj (hstored.symm.trans hstored')
    rw [hvalid] at hinvalid
    cases hinvalid
  | stopped hstored' _ hentries hdone hfails =>
    obtain rfl := Except.ok.inj (hstored.symm.trans hstored')
    exact hfails.not_convertsAll hdone (hentries ▸ hall)

/-! ### Conversions -/

/-- A batch reports nothing but remarks. -/
theorem exists_does_run {config : Config} (hvalid : config.validate = .ok ()) {w : World}
    (hleft : w.receiver.left = none) :
    ∃ trace answer done rest, Does w (Batch.run config).run (Batch.run config).run trace answer ∧
      verdicts trace = [] ∧ config.entries = done ++ rest ∧
      ConvertsAll config done w.files (w.replay trace).files ∧
      Ends config (w.replay trace).files rest answer := by
  obtain ⟨trace, answer, hdoes, hcourse⟩ := exists_run_of_valid hvalid w
  -- somebody listens to the end, so the batch only ends early where an entry fails
  have hattempt : attempt (Batch.convertAll config config.entries) w =
      (answer, w.replay trace) := by
    rw [← attempt_run_of_valid hvalid]
    exact hdoes.plain w (.refl w)
  obtain ⟨done, rest, hentries, hdone, hends⟩ := exists_convertAll config config.entries hleft
  rw [hattempt] at hdone hends
  exact ⟨trace, answer, done, rest, hdoes, verdicts_of_isRemark hcourse.isRemark, hentries, hdone,
    hends⟩

/-- Two reports at the end change no file, and the first one is the
verdict. -/
theorem concludes_of_reports {α : Type} {w : World} {c : StateM Observed α} {d : StateM World α}
    {f : α → StateM Observed Unit} {g : α → StateM World Unit} {trace : List Operation} {x : α}
    {P : FileTree → List Record → Prop} (verdict : Record) (h : Does w c d trace x)
    (htrace : verdicts trace = [])
    (hnext : ∀ w', Does w' (f x) (g x) [.report verdict, .report ⟨.info, "Done."⟩] ())
    (hverdict : verdict.isVerdict = true) (hP : P (w.replay trace).files [verdict]) :
    Concludes w (fun _ => c >>= f) (fun _ => d >>= g) P := by
  refine .of_does (h.bind (hnext _)) ?_
  -- neither report changes a file, and the last one is a remark
  have hfiles (w' : World) : (w'.replay [.report verdict, .report ⟨.info, "Done."⟩]).files =
      w'.files :=
    (World.files_report (w'.report verdict) ⟨.info, "Done."⟩).trans (World.files_report w' verdict)
  have hverdicts : verdicts [.report verdict, .report ⟨.info, "Done."⟩] = [verdict] := by
    show [verdict, ⟨.info, "Done."⟩].filter Record.isVerdict = [verdict]
    rw [List.filter_cons_of_pos hverdict]
    rfl
  rw [World.replay_append, hfiles, verdicts_append, htrace, hverdicts]
  exact hP

section
variable {config : Config} {w : World} {path : String}
  (hstored : Config.stored w.files path = .ok config) (hvalid : config.validate = .ok ())
  (hleft : w.receiver.left = none)
include hstored hvalid hleft

theorem concludes_mapAll :
    Concludes w (fun _ => mapAll config) (fun _ => mapAll config)
      (Converted w.files (some path)) := by
  obtain ⟨trace, answer, done, rest, hdoes, hverdicts, hentries, hdone, hends⟩ :=
    exists_does_run hvalid hleft
  cases hends with
  | finished =>
    -- no entry is left
    rw [List.append_nil] at hentries
    exact concludes_of_reports .success hdoes hverdicts
      (fun w' => (Does.report w' .success).bind (Does.report _ ⟨.info, "Done."⟩)) rfl
      (.succeeded (.all hstored hvalid (hentries ▸ hdone)))
  | @stopped entry later e hfails =>
    exact concludes_of_reports ⟨.error, "Mapping failed with error: " ++ e.message⟩ hdoes hverdicts
      (fun w' => (Does.report w' _).bind (Does.report _ ⟨.info, "Done."⟩)) rfl
      (.failed (.stopped hstored hvalid hentries hdone hfails))

theorem concludes_mapLogged (hasLog : Bool) :
    Concludes w (fun _ => mapLogged hasLog config) (fun _ => mapLogged hasLog config)
      (Converted w.files (some path)) := by
  have hmapped := concludes_mapAll hstored hvalid hleft
  cases hasLog with
  | false => exact hmapped
  | true => exact hmapped.remark (by simp [toString])

theorem concludes_convertAll (hasLog : Bool) :
    Concludes w (convertAll hasLog · config) (convertAll hasLog · config)
      (Converted w.files (some path)) := by
  simp only [convertAll]
  refine .remark (by simp) (.remark (by simp [toString]) (.remark (by simp [toString]) ?_))
  exact .keepDetails (· || config.isVerbose) (concludes_mapLogged hstored hvalid hleft hasLog)

end

theorem concludes_error (text : String) {w : World} {P : FileTree → List Record → Prop}
    (hP : P w.files [⟨.error, text⟩]) :
    Concludes w (fun _ => Journal.error text) (fun _ => Journal.error text) P := by
  refine .of_does (Does.report w ⟨.error, text⟩) ?_
  have hfiles : (w.replay [.report ⟨.error, text⟩]).files = w.files :=
    World.files_report w ⟨.error, text⟩
  rw [hfiles]
  exact hP

theorem concludes_convert (hasLog : Bool) (path : String) {w : World}
    (hleft : w.receiver.left = none) :
    Concludes w (convert hasLog · path) (convert hasLog · path)
      (Converted w.files (some path)) := by
  refine .remark (by simp [toString]) (.read (Config.reads_read path w) ?_)
  intro result hresult
  have hstored : Config.stored w.files path = result := by
    rw [← hresult]
    exact (congrArg Prod.fst (Config.attempt_read path w)).symm
  cases result with
  | error e => exact concludes_error _ (.failed (.unreadable hstored))
  | ok config =>
    cases hvalid : config.validate with
    | error e =>
      simp only [hvalid]
      exact concludes_error _ (.failed (.invalid hstored hvalid))
    | ok _ =>
      simp only [hvalid]
      exact concludes_convertAll hstored hvalid hleft hasLog

/-! ### Template configurations -/

theorem concludes_create (path : String) (w : World) :
    Concludes w (fun _ => create path) (fun _ => create path) (Created w.files (some path)) := by
  refine .remark (by simp [toString]) ?_
  have hwrite : Does w (Config.placeholder.write path).run (Config.placeholder.write path).run
      [.write path Config.placeholder.document.toUTF8
        (w.files.write path Config.placeholder.document.toUTF8).isOk]
      (((w.files.write path Config.placeholder.document.toUTF8).map fun _ => ()).mapError
        ConfigError.file) :=
    Does.writeText w ConfigError.file path Config.placeholder.document
  have hfiles (isDone : Bool) (r : Record) :
      (w.replay [.write path Config.placeholder.document.toUTF8 isDone, .report r]).files =
        (w.act (.write path Config.placeholder.document.toUTF8 isDone)).files :=
    World.files_report (w.act (.write path Config.placeholder.document.toUTF8 isDone)) r
  -- what is reported last tells whether the file was written
  cases hresult : w.files.write path Config.placeholder.document.toUTF8 with
  | error e =>
    rw [hresult] at hwrite
    refine .of_does (hwrite.bind (Does.report _ ⟨.error, _⟩)) ?_
    rw [List.singleton_append, hfiles, act_write_of_error hresult]
    exact .failed hresult
  | ok files =>
    rw [hresult] at hwrite
    refine .of_does (hwrite.bind (Does.report _ ⟨.info, "Done."⟩)) ?_
    rw [List.singleton_append, hfiles, act_write_of_ok hresult]
    exact .made hresult

/-! ### The whole program -/

section
variable {m : Type → Type} [Monad m] [Storage m] [Journal m] [Listener m]

theorem run_of_convert {arguments : List String} {path : Option String} {isVerbose : Bool}
    (h : CommandLine.parse arguments = .convert path isVerbose) :
    (run arguments : m UInt32) = (do
      let hasLog ← openLog
      convertGiven hasLog isVerbose path
      return 0) := by
  rw [run, h]

theorem run_of_create {arguments : List String} {path : Option String}
    (h : CommandLine.parse arguments = .create path) :
    (run arguments : m UInt32) = (do
      let _ ← openLog
      createGiven path
      return 0) := by
  rw [run, h]

end

theorem concludes_convertGiven (hasLog : Bool) (path : Option String) {w : World}
    (hleft : w.receiver.left = none) :
    Concludes w (convertGiven hasLog · path) (convertGiven hasLog · path)
      (Converted w.files path) := by
  cases path with
  | none => exact concludes_error _ (.failed .lacking)
  | some path => exact concludes_convert hasLog path hleft

theorem concludes_createGiven (path : Option String) (w : World) :
    Concludes w (fun _ => createGiven path) (fun _ => createGiven path) (Created w.files path) := by
  cases path with
  | none => exact concludes_error _ .lacking
  | some path => exact concludes_create path w

/-- The exit status of a run on files, and the world that it leaves. -/
def launch (arguments : List String) (files : FileTree) : UInt32 × World :=
  (run arguments : StateM World UInt32).run (.ofFiles files)

/-- What a run leaves behind: the files, and the journal but for the
details. -/
structure Leaves (arguments : List String) (before after : FileTree) (records : List Record) :
    Prop where
  status : (launch arguments before).1 = 0
  files : (launch arguments before).2.files = after
  journal : withoutDetails (launch arguments before).2.journal = records

section
variable {files logged : FileTree} (hlog : files.write logPath "".toUTF8 = .ok logged)
include hlog

theorem run_openLog :
    (openLog : StateM World Bool).run (.ofFiles files) = (true, .ofFiles logged) := by
  have hwrite : (Storage.writeText logPath "" : StateM World (Except FileError Unit)).run
      (.ofFiles files) = (.ok (), .ofFiles logged) := by
    have hrun := World.run_write logPath "".toUTF8 (.ofFiles files)
    have hfiles : (World.ofFiles files).files.write logPath "".toUTF8 = .ok logged := hlog
    rw [hfiles] at hrun
    exact hrun
  rw [openLog, StateT.run_bind, hwrite]
  rfl

/-- What concludes once the log file has been made leaves the same,
whether or not details are kept. -/
theorem exists_leaves {c : Bool → StateM Observed Unit} {d : Bool → Bool → StateM World Unit}
    {P : FileTree → List Record → Prop} (h : Concludes (.ofFiles logged) c (d true) P) :
    ∃ after records, P after (records.filter Record.isVerdict) ∧
      ∀ arguments isVerbose, (run arguments : StateM World UInt32) = (do
          let hasLog ← openLog
          d hasLog isVerbose
          return 0) → Leaves arguments files after records := by
  obtain ⟨after, records, hP, hruns⟩ := h.exists_records
  refine ⟨after, records, hP, ?_⟩
  intro arguments isVerbose hrun
  obtain ⟨hfiles, hjournal⟩ := hruns isVerbose
  -- the log file could be made, and the journal was empty by then
  have hlaunch : launch arguments files = (0, ((d true isVerbose).run (.ofFiles logged)).2) := by
    rw [launch, hrun, StateT.run_bind, run_openLog hlog]
    rfl
  refine ⟨?_, ?_, ?_⟩
  · rw [hlaunch]
  · rw [hlaunch, hfiles]
  · rw [hlaunch]
    exact hjournal

theorem exists_leaves_of_convert (path : Option String) :
    ∃ after records, Converted logged path after (records.filter Record.isVerdict) ∧
      ∀ arguments isVerbose, CommandLine.parse arguments = .convert path isVerbose →
        Leaves arguments files after records := by
  obtain ⟨after, records, hconverted, hleaves⟩ :=
    exists_leaves hlog (d := (convertGiven · · path)) (concludes_convertGiven true path rfl)
  refine ⟨after, records, hconverted, ?_⟩
  intro arguments isVerbose h
  exact hleaves arguments isVerbose (run_of_convert h)

theorem exists_leaves_of_create (path : Option String) :
    ∃ after records, Created logged path after (records.filter Record.isVerdict) ∧
      ∀ arguments, CommandLine.parse arguments = .create path →
        Leaves arguments files after records := by
  obtain ⟨after, records, hcreated, hleaves⟩ :=
    exists_leaves hlog (d := fun _ _ => createGiven path) (concludes_createGiven path _)
  refine ⟨after, records, hcreated, ?_⟩
  intro arguments h
  exact hleaves arguments false (run_of_create h)

end

/-! ### What the log says -/

/-- The errors among records. -/
def errors (journal : List Record) : List Record := journal.filter (·.level == .error)

theorem errors_filter_isVerdict (journal : List Record) :
    errors (journal.filter Record.isVerdict) = errors journal := by
  rw [errors, List.filter_filter]
  refine List.filter_congr ?_
  intro r _
  -- each error is a verdict
  rw [Record.isVerdict]
  cases r.level == .error <;> rfl

/-- The verdicts of a run are among the records other than details. -/
theorem Leaves.verdicts {arguments : List String} {before after : FileTree}
    {records : List Record} (h : Leaves arguments before after records) :
    (launch arguments before).2.journal.filter Record.isVerdict =
      records.filter Record.isVerdict := by
  rw [← h.journal, filter_isVerdict_withoutDetails]

theorem Leaves.errors {arguments : List String} {before after : FileTree}
    {records : List Record} (h : Leaves arguments before after records) :
    errors (launch arguments before).2.journal = errors (records.filter Record.isVerdict) := by
  rw [← h.verdicts, errors_filter_isVerdict]

theorem Leaves.success_mem_iff {arguments : List String} {before after : FileTree}
    {records : List Record} (h : Leaves arguments before after records) :
    .success ∈ (launch arguments before).2.journal ↔
      .success ∈ records.filter Record.isVerdict := by
  rw [← h.verdicts, List.mem_filter]
  exact (and_iff_left rfl).symm

/-- Whether two runs on files come to the same, but for the details. -/
structure SameButDetails (arguments arguments' : List String) (before : FileTree) : Prop where
  status : (launch arguments' before).1 = (launch arguments before).1
  files : (launch arguments' before).2.files = (launch arguments before).2.files
  journal : withoutDetails (launch arguments' before).2.journal =
    withoutDetails (launch arguments before).2.journal

theorem Leaves.same {arguments arguments' : List String} {before after : FileTree}
    {records : List Record} (h : Leaves arguments before after records)
    (h' : Leaves arguments' before after records) : SameButDetails arguments arguments' before :=
  ⟨h'.status.trans h.status.symm, h'.files.trans h.files.symm, h'.journal.trans h.journal.symm⟩

/-- What the log of a run says, where `logged` are the files once the log
file has been made. -/
structure Truthful (arguments : List String) (files logged : FileTree) : Prop where
  /-- The arguments were understood. -/
  status : (launch arguments files).1 = 0
  /-- At most one error is reported. -/
  atMostOne : (errors (launch arguments files).2.journal).length ≤ 1
  /-- A conversion reports its success exactly if a path was given, the
  configuration could be read and is valid, and each entry has been
  converted on its turn. -/
  succeeded : ∀ path isVerbose, CommandLine.Asks arguments (.convert path isVerbose) →
    (.success ∈ (launch arguments files).2.journal ↔
      Success logged path (launch arguments files).2.files)
  /-- It reports no error then. -/
  flawless : .success ∈ (launch arguments files).2.journal →
    errors (launch arguments files).2.journal = []
  /-- Otherwise it reports the first failure, and has left the templates of
  the entries before. -/
  failed : ∀ path isVerbose, CommandLine.Asks arguments (.convert path isVerbose) →
    .success ∉ (launch arguments files).2.journal →
    ∃ text, errors (launch arguments files).2.journal = [⟨.error, text⟩] ∧
      Failure logged path (launch arguments files).2.files text
  /-- A template configuration has been written, and no error is reported,
  unless the file cannot be written. Then no file has changed. -/
  created : ∀ path, CommandLine.Asks arguments (.create (some path)) →
    (errors (launch arguments files).2.journal = [] ∧
      logged.write path Config.placeholder.document.toUTF8 =
        .ok (launch arguments files).2.files ∧
      ((launch arguments files).2.files.find path =
          .ok (.file Config.placeholder.document.toUTF8) ∨
        logged.find path = .ok .sink)) ∨
    ∃ e, logged.write path Config.placeholder.document.toUTF8 = .error e ∧
      errors (launch arguments files).2.journal =
        [⟨.error, "Could not create template config file: " ++ (ConfigError.file e).message⟩] ∧
      (launch arguments files).2.files = logged
  /-- Without a path for it no file has changed either. -/
  lacking : CommandLine.Asks arguments (.create none) →
    errors (launch arguments files).2.journal = [⟨.error, pathRequired⟩] ∧
      (launch arguments files).2.files = logged
  /-- Nothing but the details depends on whether they are asked for. -/
  verbosity : ∀ arguments' request request', CommandLine.Asks arguments request →
    CommandLine.Asks arguments' request' →
      CommandLine.quiet request' = CommandLine.quiet request →
        SameButDetails arguments arguments' files
  /-- So the flag that asks for them may be put in among the arguments. -/
  flag : ∀ arguments' request', CommandLine.WithFlags arguments arguments' →
    CommandLine.Asks arguments' request' → SameButDetails arguments arguments' files

section
variable {arguments : List String} {files logged : FileTree}
  (hlog : files.write logPath "".toUTF8 = .ok logged)
include hlog

/-- Requests that differ in nothing but the details are carried out alike. -/
theorem same_of_quiet {arguments' : List String} {request request' : Request}
    (h : CommandLine.Asks arguments request) (h' : CommandLine.Asks arguments' request')
    (hquiet : CommandLine.quiet request' = CommandLine.quiet request) :
    SameButDetails arguments arguments' files := by
  obtain ⟨hparse, hrefused, hhelp⟩ := CommandLine.asks_iff.1 h
  obtain ⟨hparse', -, -⟩ := CommandLine.asks_iff.1 h'
  cases request with
  | refused => exact (hrefused rfl).elim
  | help => exact (hhelp rfl).elim
  | create path =>
    obtain ⟨after, records, -, hleaves⟩ := exists_leaves_of_create hlog path
    rcases CommandLine.cases_of_quiet hquiet with rfl | ⟨_, _, _, heq, _⟩
    · exact (hleaves arguments hparse).same (hleaves arguments' hparse')
    · cases heq
  | convert path isVerbose =>
    obtain ⟨after, records, -, hleaves⟩ := exists_leaves_of_convert hlog path
    rcases CommandLine.cases_of_quiet hquiet with rfl | ⟨_, _, isVerbose', heq, rfl⟩
    · exact (hleaves arguments isVerbose hparse).same (hleaves arguments' isVerbose hparse')
    · cases heq
      exact (hleaves arguments isVerbose hparse).same (hleaves arguments' isVerbose' hparse')

theorem same_of_flags {arguments' : List String} {request request' : Request}
    (h : CommandLine.Asks arguments request) (h' : CommandLine.Asks arguments' request')
    (hflags : CommandLine.WithFlags arguments arguments') :
    SameButDetails arguments arguments' files := by
  obtain ⟨rfl, hrefused, -⟩ := CommandLine.asks_iff.1 h
  obtain ⟨rfl, hrefused', -⟩ := CommandLine.asks_iff.1 h'
  exact same_of_quiet hlog h h' (CommandLine.quiet_parse hflags hrefused hrefused')

theorem truthful_of_convert {path : Option String} {isVerbose : Bool}
    (h : CommandLine.Asks arguments (.convert path isVerbose)) :
    Truthful arguments files logged := by
  obtain ⟨hparse, -, -⟩ := CommandLine.asks_iff.1 h
  obtain ⟨after, records, hconverted, hleaves⟩ := exists_leaves_of_convert hlog path
  have hleft := hleaves arguments isVerbose hparse
  have herrors := hleft.errors
  have hsuccess := hleft.success_mem_iff
  -- all that the log says in the end are the verdicts
  generalize records.filter Record.isVerdict = said at hconverted herrors hsuccess
  have hunique {request : Request} (h' : CommandLine.Asks arguments request) :
      .convert path isVerbose = request :=
    hparse.symm.trans (CommandLine.asks_iff.1 h').1
  constructor
  case status => exact hleft.status
  case atMostOne =>
    rw [herrors]
    cases hconverted <;> simp [errors, Record.success]
  case succeeded =>
    intro path' isVerbose' h'
    cases hunique h'
    rw [hsuccess, hleft.files]
    cases hconverted with
    | succeeded hall => exact iff_of_true List.mem_cons_self hall
    | @failed text hfailure =>
      have hnot : Record.success ∉ [(⟨.error, text⟩ : Record)] := by simp [Record.success]
      exact iff_of_false hnot hfailure.not_success
  case flawless =>
    rw [hsuccess, herrors]
    cases hconverted with
    | succeeded hall => exact fun _ => rfl
    | failed hfailure => simp [Record.success]
  case failed =>
    intro path' isVerbose' h'
    cases hunique h'
    rw [hsuccess, herrors, hleft.files]
    cases hconverted with
    | succeeded hall => exact fun hnot => (hnot List.mem_cons_self).elim
    | failed hfailure => exact fun _ => ⟨_, rfl, hfailure⟩
  case created =>
    intro path' h'
    cases hunique h'
  case lacking =>
    intro h'
    cases hunique h'
  case verbosity => exact fun arguments' request request' => same_of_quiet hlog
  case flag => exact fun arguments' request' hflags h' => same_of_flags hlog h h' hflags

theorem truthful_of_create {path : Option String}
    (h : CommandLine.Asks arguments (.create path)) : Truthful arguments files logged := by
  obtain ⟨hparse, -, -⟩ := CommandLine.asks_iff.1 h
  obtain ⟨after, records, hcreated, hleaves⟩ := exists_leaves_of_create hlog path
  have hleft := hleaves arguments hparse
  have herrors := hleft.errors
  have hsuccess := hleft.success_mem_iff
  -- all that the log says in the end is one verdict
  generalize records.filter Record.isVerdict = said at hcreated herrors hsuccess
  have hunique {request : Request} (h' : CommandLine.Asks arguments request) :
      .create path = request :=
    hparse.symm.trans (CommandLine.asks_iff.1 h').1
  constructor
  case status => exact hleft.status
  case atMostOne =>
    rw [herrors]
    cases hcreated <;> simp [errors]
  case succeeded =>
    intro path' isVerbose' h'
    cases hunique h'
  case flawless =>
    rw [hsuccess, herrors]
    cases hcreated <;> simp [Record.success]
  case failed =>
    intro path' isVerbose' h'
    cases hunique h'
  case created =>
    intro path' h'
    cases hunique h'
    rw [herrors, hleft.files]
    cases hcreated with
    | failed hwrite => exact .inr ⟨_, hwrite, rfl, rfl⟩
    | made hwrite => exact .inl ⟨rfl, hwrite, FileTree.find_of_write hwrite⟩
  case lacking =>
    intro h'
    cases hunique h'
    rw [herrors, hleft.files]
    cases hcreated with
    | lacking => exact ⟨rfl, rfl⟩
  case verbosity => exact fun arguments' request request' => same_of_quiet hlog
  case flag => exact fun arguments' request' hflags h' => same_of_flags hlog h h' hflags

end

/-- A directory in which only the log file has been made. -/
def logOnly : FileTree := ⟨[], [(["apm_mapper.log"], .file "".toUTF8)]⟩

/-- A directory with the configuration of one entry. -/
def smallBatch : FileTree := ⟨[], [
  (["batch.yaml"], .file "output_path: out\nverbose: false\nentries:\n- entry_id: 1\n".toUTF8),
  (["out"], .directory)]⟩

/-- The same directory once the log file has been made. -/
def smallLogged : FileTree :=
  ⟨[], (["apm_mapper.log"], .file "".toUTF8) :: smallBatch.entries⟩

end AtomProbe.Program
