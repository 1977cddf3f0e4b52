import AtomProbe.Batch
import AtomProbe.Proofs.Config
import AtomProbe.Proofs.Entry.Merge
import AtomProbe.Proofs.World.Trace

/-!
# `AtomProbe.Proofs.Batch`: what a batch leaves behind

A batch converts entries in order until one of them fails. Each entry
that was converted has left one file behind, and nothing else has
changed. An entry may find the files of earlier entries among its inputs,
so its template is that of the files as the earlier entries left them.

* `attempt_convert`: one entry is converted (`Converts`), or fails and
  changes no file (`Fails`).
* `effect_of_run`: a batch converts the entries before the first one that
  fails. The files that they leave are different ones.

The induction of the second statement is on the entries. What carries it
over a converted entry is that no directory comes or goes, so that the
paths of the later templates lead where they led before
(`Converts.follow_eq`).
-/

set_option autoImplicit false

namespace AtomProbe.Batch

open Source FileTree

/-! ### One entry -/

/-- The bytes of the document of a template. -/
def bytes (template : Template) : ByteArray := template.document.toUTF8

/-- Whether an entry is converted: the directory is there, the template
is made of the files, and its document is written. -/
structure Converts (config : Config) (entry : Entry) (before : FileTree) (template : Template)
    (after : FileTree) : Prop where
  isPresent : before.isPresent config.output = true
  result : entry.result (.ofFiles before) = .ok template
  write : before.write (config.templatePath entry.id) (bytes template) = .ok after

/-- Why an entry is not converted, where the files are these. -/
inductive Fails (config : Config) (entry : Entry) (files : FileTree) : BatchError → Prop
  | output (houtput : files.isPresent config.output = false) :
      Fails config entry files (.config (.missingFile config.output))
  | source {e : SourceError} (houtput : files.isPresent config.output = true)
      (htemplate : entry.result (.ofFiles files) = .error e) :
      Fails config entry files (.source e)
  | creation {template : Template} {e : FileError}
      (houtput : files.isPresent config.output = true)
      (htemplate : entry.result (.ofFiles files) = .ok template)
      (hwrite : files.write (config.templatePath entry.id) (bytes template) = .error e) :
      Fails config entry files (.template (.file e))

/-- The template of an entry depends on the files of a world alone. -/
theorem result_congr (entry : Entry) {w w' : World} (h : w.files = w'.files) :
    entry.result w = entry.result w' := by
  rw [Entry.result_eq, Entry.result_eq, h]

theorem attempt_within {ε α : Type} (wrap : ε → BatchError) (c : ExceptT ε (StateM World) α)
    (w : World) :
    attempt (within wrap c) w = ((attempt c w).1.mapError wrap, (attempt c w).2) := by
  have hlift : attempt (ExceptT.lift c.run : ExceptT BatchError (StateM World) (Except ε α)) w =
      (.ok (attempt c w).1, (attempt c w).2) := rfl
  rw [within, attempt_bind, hlift]
  exact attempt_liftExcept _ _

/-- A message reaches a receiver that listens to the end. -/
theorem attempt_send (status : Status) {w : World} (h : w.receiver.left = none) :
    attempt (send status) w =
      (.ok (), { w with receiver := ⟨none, status :: w.receiver.received⟩ }) := by
  have hreceive : w.receiver.receive status = (true, ⟨none, status :: w.receiver.received⟩) := by
    rw [Receiver.receive, h]
  have hlift : attempt (Listener.send status : ExceptT BatchError (StateM World) Bool) w =
      (.ok (w.receiver.receive status).1, { w with receiver := (w.receiver.receive status).2 }) :=
    rfl
  rw [send, attempt_bind, hlift, hreceive]
  rfl

theorem attempt_info (text : String) (w : World) :
    attempt (Journal.info text : ExceptT BatchError (StateM World) Unit) w =
      (.ok (), w.report ⟨.info, text⟩) := rfl

theorem attempt_findTemplatePath (config : Config) (id : UInt32) (w : World) :
    attempt (config.findTemplatePath id) w =
      (if w.files.isPresent config.output then .ok (config.templatePath id)
        else .error (.missingFile config.output), w) := by
  have hpresent : attempt (Storage.isPresent config.output :
      ExceptT ConfigError (StateM World) Bool) w = (.ok (w.files.isPresent config.output), w) :=
    rfl
  rw [Config.findTemplatePath, attempt_bind, hpresent]
  cases w.files.isPresent config.output <;> rfl

/-- Writing a text, with the cause of a failure in another wording. -/
theorem attempt_writeText {ε : Type} (wrap : FileError → ε) (path text : String) (w : World) :
    attempt (do
      let result ← ExceptT.lift (Storage.writeText path text)
      liftExcept (result.mapError wrap)) w =
      match w.files.write path text.toUTF8 with
      | .error e => (.error (wrap e), w)
      | .ok files => (.ok (), { w with files := files }) := by
  have hlift : attempt (ExceptT.lift (Storage.writeText path text) :
      ExceptT ε (StateM World) (Except FileError Unit)) w =
      (.ok ((Storage.write path text.toUTF8 : StateM World _).run w).1,
        ((Storage.write path text.toUTF8 : StateM World _).run w).2) := rfl
  rw [attempt_bind, hlift, World.run_write]
  cases w.files.write path text.toUTF8 <;> rfl

theorem attempt_writeFile (template : Template) (path : String) (w : World) :
    attempt (template.writeFile path) w =
      match w.files.write path (bytes template) with
      | .error e => (.error (.file e), w)
      | .ok files => (.ok (), { w with files := files }) :=
  attempt_writeText TemplateError.file path template.document w

/-- Asking for the size of a file changes nothing. -/
theorem attempt_size (path : String) (w : World) :
    attempt (Storage.size path : ExceptT BatchError (StateM World) (Except FileError Nat)) w =
      (.ok (w.files.size path), w) := rfl

theorem attempt_bind_of_ok {ε α β : Type} {c : ExceptT ε (StateM World) α}
    {f : α → ExceptT ε (StateM World) β} {w w' : World} {x : α}
    (h : attempt c w = (.ok x, w')) : attempt (c >>= f) w = attempt (f x) w' := by
  rw [attempt_bind, h]

theorem attempt_bind_of_error {ε α β : Type} {c : ExceptT ε (StateM World) α}
    {f : α → ExceptT ε (StateM World) β} {w w' : World} {e : ε}
    (h : attempt c w = (.error e, w')) : attempt (c >>= f) w = (.error e, w') := by
  rw [attempt_bind, h]

/-- Reports do not reach the receiver. -/
theorem receiver_report (w : World) (r : Record) : (w.report r).receiver = w.receiver := by
  rw [World.report]
  split <;> rfl

theorem receiver_reportAll (w : World) (records : List Record) :
    (w.reportAll records).receiver = w.receiver := by
  induction records generalizing w with
  | nil => rfl
  | cons r rs ih => exact (ih (w.report r)).trans (receiver_report w r)

/-- A report and a message change no file, and nobody stops to listen. -/
theorem exists_attempt_announce {α : Type} (text : String) (status : Status)
    (next : ExceptT BatchError (StateM World) α) {w : World} (h : w.receiver.left = none) :
    ∃ w', attempt (do Journal.info text; send status; next) w = attempt next w' ∧
      w'.files = w.files ∧ w'.receiver.left = none := by
  have hleft : (w.report ⟨.info, text⟩).receiver.left = none := by rw [receiver_report, h]
  refine ⟨{ w.report ⟨.info, text⟩ with
    receiver := ⟨none, status :: (w.report ⟨.info, text⟩).receiver.received⟩ }, ?_,
    World.files_report w _, rfl⟩
  rw [attempt_bind_of_ok (attempt_info text w), attempt_bind_of_ok (attempt_send status hleft)]

theorem exists_attempt_close (text : String) (status : Status) (closing : String) {w : World}
    (h : w.receiver.left = none) :
    ∃ w', attempt (do Journal.info text; send status; Journal.info closing) w = (.ok (), w') ∧
      w'.files = w.files ∧ w'.receiver.left = none := by
  obtain ⟨w', hrun, hfiles, hleft⟩ :=
    exists_attempt_announce text status (Journal.info closing) h
  refine ⟨w'.report ⟨.info, closing⟩, hrun.trans (attempt_info closing w'), ?_, ?_⟩
  · rw [World.files_report, hfiles]
  · rw [receiver_report, hleft]

/-- Making a template changes no file, and does not reach the receiver. -/
theorem attempt_template_eq (entry : Entry) (w : World) :
    ∃ w', attempt (within .source entry.template) w =
        ((entry.result (.ofFiles w.files)).mapError .source, w') ∧
      w'.files = w.files ∧ w'.receiver = w.receiver := by
  refine ⟨(attempt entry.template w).2, ?_, ?_, ?_⟩
  · have hresult : entry.result (.ofFiles w.files) = entry.result w := result_congr entry rfl
    rw [attempt_within, hresult]
    rfl
  · rw [Entry.attempt_template]
    exact World.files_reportAll w _
  · rw [Entry.attempt_template]
    exact receiver_reportAll w _

/-- Either an entry is converted, or it fails and no file has changed. -/
theorem attempt_convert (config : Config) (entry : Entry) {w : World}
    (hreceiver : w.receiver.left = none) :
    ∃ w', w'.receiver.left = none ∧
      ((∃ e, attempt (convert config entry) w = (.error e, w') ∧
          Fails config entry w.files e ∧ w'.files = w.files) ∨
        ∃ template, attempt (convert config entry) w = (.ok (), w') ∧
          Converts config entry w.files template w'.files) := by
  rw [convert]
  obtain ⟨w₁, hbegun, hfiles₁, hleft₁⟩ := exists_attempt_announce
    s!"Processing entry {entry.id.toNat}..." (.begun entry.id) _ hreceiver
  rw [hbegun]
  cases hpresent : w₁.files.isPresent config.output with
  | false =>
    have hpath := attempt_within .config (config.findTemplatePath entry.id) w₁
    rw [attempt_findTemplatePath, hpresent] at hpath
    rw [attempt_bind_of_error hpath]
    exact ⟨w₁, hleft₁, .inl ⟨_, rfl, .output (hfiles₁ ▸ hpresent), hfiles₁⟩⟩
  | true =>
    have hpath := attempt_within .config (config.findTemplatePath entry.id) w₁
    rw [attempt_findTemplatePath, hpresent] at hpath
    rw [attempt_bind_of_ok hpath]
    obtain ⟨w₂, htemplate, hfiles₂, hreceiver₂⟩ := attempt_template_eq entry w₁
    rw [hfiles₁] at htemplate hpresent hfiles₂
    cases hresult : entry.result (.ofFiles w.files) with
    | error e =>
      rw [hresult] at htemplate
      rw [attempt_bind_of_error htemplate]
      exact ⟨w₂, hreceiver₂ ▸ hleft₁, .inl ⟨_, rfl, .source hpresent hresult, hfiles₂⟩⟩
    | ok template =>
      rw [hresult] at htemplate
      rw [attempt_bind_of_ok htemplate]
      have hwritten := attempt_within .template
        (template.writeFile (config.templatePath entry.id)) w₂
      rw [attempt_writeFile, hfiles₂] at hwritten
      cases hwrite : w.files.write (config.templatePath entry.id) (bytes template) with
      | error e =>
        rw [hwrite] at hwritten
        rw [attempt_bind_of_error hwritten]
        exact ⟨w₂, hreceiver₂ ▸ hleft₁,
          .inl ⟨_, rfl, .creation hpresent hresult hwrite, hfiles₂⟩⟩
      | ok files =>
        rw [hwrite] at hwritten
        rw [attempt_bind_of_ok hwritten, attempt_bind_of_ok (attempt_size _ _)]
        have hleft : ({ w₂ with files := files } : World).receiver.left = none :=
          hreceiver₂ ▸ hleft₁
        obtain ⟨w₃, hfinished, hfiles₃, hleft₃⟩ := exists_attempt_close
          s!"Wrote {template.size} paths to {config.templatePath entry.id} ({
            Text.byteSize ((files.size (config.templatePath entry.id)).toOption.getD 0)})"
          (.finished entry.id) s!"Finished processing entry {entry.id.toNat}." hleft
        exact ⟨w₃, hleft₃, .inr ⟨template, hfinished, hpresent, hresult, hfiles₃ ▸ hwrite⟩⟩

/-! ### Entries in order -/

/-- Whether entries are converted in order. -/
inductive ConvertsAll (config : Config) : List Entry → FileTree → FileTree → Prop
  | nil (files : FileTree) : ConvertsAll config [] files files
  | cons {entry : Entry} {entries : List Entry} {before between after : FileTree}
      {template : Template} (hentry : Converts config entry before template between)
      (hentries : ConvertsAll config entries between after) :
      ConvertsAll config (entry :: entries) before after

/-- How a batch ends, where the files and the entries that have not been
converted are these: with the failure of the first of them, if there is
one. -/
inductive Ends (config : Config) (files : FileTree) :
    List Entry → Except BatchError Unit → Prop
  | finished : Ends config files [] (.ok ())
  | stopped {entry : Entry} {later : List Entry} {e : BatchError}
      (hfails : Fails config entry files e) : Ends config files (entry :: later) (.error e)

/-- A batch converts the entries before the first one that fails. -/
theorem exists_convertAll (config : Config) (entries : List Entry) {w : World}
    (hreceiver : w.receiver.left = none) :
    ∃ done rest, entries = done ++ rest ∧
      ConvertsAll config done w.files (attempt (convertAll config entries) w).2.files ∧
      Ends config (attempt (convertAll config entries) w).2.files rest
        (attempt (convertAll config entries) w).1 := by
  induction entries generalizing w with
  | nil => exact ⟨[], [], rfl, .nil w.files, .finished⟩
  | cons entry entries ih =>
    obtain ⟨w', hleft, ⟨e, hrun, hfails, hfiles⟩ | ⟨template, hrun, hconverts⟩⟩ :=
      attempt_convert config entry hreceiver
    · -- the entry that fails has changed no file
      rw [convertAll, attempt_bind_of_error hrun]
      refine ⟨[], entry :: entries, rfl, ?_, .stopped (hfiles.symm ▸ hfails)⟩
      rw [hfiles]
      exact .nil w.files
    · rw [convertAll, attempt_bind_of_ok hrun]
      obtain ⟨done, rest, rfl, hdone, hends⟩ := ih hleft
      exact ⟨entry :: done, rest, rfl, .cons hconverts hdone, hends⟩

/-! ### The files that entries leave -/

namespace Converts

variable {config : Config} {entry : Entry} {before after : FileTree} {template : Template}
  (h : Converts config entry before template after)
include h

theorem output_ne : config.output ≠ "" := by
  intro hempty
  have hpresent := h.isPresent
  rw [hempty, isPresent_empty] at hpresent
  cases hpresent

theorem written :
    ∃ location, before.place (config.templatePath entry.id) = .ok location ∧
      Written before after location (bytes template) :=
  written_of_write h.write

/-- The paths of all templates lead where they led before. -/
theorem follow_eq (id : UInt32) :
    after.follow (config.templatePath id) = before.follow (config.templatePath id) := by
  obtain ⟨location, hplace, hwritten⟩ := h.written
  exact Config.follow_eq_of_place h.output_ne hwritten.directories hplace id

theorem place_eq (id : UInt32) :
    after.place (config.templatePath id) = before.place (config.templatePath id) := by
  rw [Config.place_templatePath h.output_ne, Config.place_templatePath h.output_ne, h.follow_eq]

end Converts

namespace ConvertsAll

variable {config : Config} {done : List Entry} {before after : FileTree}

theorem output_ne (h : ConvertsAll config done before after) {entry : Entry}
    (hentry : entry ∈ done) : config.output ≠ "" := by
  cases h with
  | nil => cases hentry
  | cons hfirst _ => exact hfirst.output_ne

theorem follow_eq (h : ConvertsAll config done before after) (id : UInt32) :
    after.follow (config.templatePath id) = before.follow (config.templatePath id) := by
  induction h with
  | nil files => rfl
  | cons hentry _ ih => rw [ih, hentry.follow_eq]

theorem place_eq (h : ConvertsAll config done before after) (id : UInt32) :
    after.place (config.templatePath id) = before.place (config.templatePath id) := by
  induction h with
  | nil files => rfl
  | cons hentry _ ih => rw [ih, hentry.place_eq]

/-- Each template has a place. -/
theorem exists_place (h : ConvertsAll config done before after) {entry : Entry}
    (hentry : entry ∈ done) :
    ∃ location, before.place (config.templatePath entry.id) = .ok location := by
  induction h with
  | nil files => cases hentry
  | cons hfirst _ ih =>
    rcases List.mem_cons.1 hentry with rfl | hentry
    · obtain ⟨location, hplace, -⟩ := hfirst.written
      exact ⟨location, hplace⟩
    · obtain ⟨location, hplace⟩ := ih hentry
      rw [hfirst.place_eq] at hplace
      exact ⟨location, hplace⟩

/-- Nothing changes but at the places of the templates. -/
theorem at?_eq (h : ConvertsAll config done before after) {location : Location}
    (hlocation : ∀ entry ∈ done, before.place (config.templatePath entry.id) ≠ .ok location) :
    after.at? location = before.at? location := by
  induction h with
  | nil files => rfl
  | cons hentry _ ih =>
    obtain ⟨place, hplace, hwritten⟩ := hentry.written
    have hne : location ≠ place := by
      rintro rfl
      exact hlocation _ List.mem_cons_self hplace
    -- the later templates have the places that they had before this one was written
    have hothers := fun e he => hlocation e (List.mem_cons_of_mem _ he)
    simp only [← hentry.place_eq] at hothers
    rw [ih hothers, hwritten.others location hne]

/-- Entries in order are converted one part after the other. -/
theorem of_append {first later : List Entry}
    (h : ConvertsAll config (first ++ later) before after) :
    ∃ between, ConvertsAll config first before between ∧
      ConvertsAll config later between after := by
  induction first generalizing before with
  | nil => exact ⟨before, .nil before, h⟩
  | cons entry first ih =>
    cases h with
    | cons hentry hentries =>
      obtain ⟨between, hfirst, hlater⟩ := ih hentries
      exact ⟨between, .cons hentry hfirst, hlater⟩

/-- The path of an entry that has not been converted leads to what it led
to before. -/
theorem find_eq (h : ConvertsAll config done before after) {id : UInt32}
    (hid : ∀ entry ∈ done, entry.id ≠ id) :
    after.find (config.templatePath id) = before.find (config.templatePath id) := by
  refine find_congr (h.follow_eq id) fun location hfollow => h.at?_eq fun entry hentry hplace => ?_
  have houtput := h.output_ne hentry
  rw [← Config.place_templatePath houtput] at hfollow
  exact hid entry hentry (Config.eq_of_place houtput hplace hfollow)

/-- The path of an entry that was converted leads to a file with the
bytes of its template, which is made of the files that the entries before
left. A device that was there stays. -/
theorem exists_template {first later : List Entry} {entry : Entry}
    (h : ConvertsAll config (first ++ entry :: later) before after)
    (hnodup : ((first ++ entry :: later).map (·.id)).Nodup) :
    ∃ between template, ConvertsAll config first before between ∧
      entry.result (.ofFiles between) = .ok template ∧
      (after.find (config.templatePath entry.id) = .ok (.file (bytes template)) ∨
        before.find (config.templatePath entry.id) = .ok .sink) := by
  obtain ⟨between, hfirst, hrest⟩ := h.of_append
  cases hrest with
  | @cons _ _ _ between' _ template hentry hlater =>
    refine ⟨between, template, hfirst, hentry.result, ?_⟩
    rw [List.map_append, List.map_cons, List.nodup_append, List.nodup_cons] at hnodup
    obtain ⟨-, ⟨hlaterIds, -⟩, hfirstIds⟩ := hnodup
    -- neither a later entry nor an earlier one has written under this path
    have hfind : after.find (config.templatePath entry.id) =
        between'.find (config.templatePath entry.id) :=
      hlater.find_eq fun e he heq => hlaterIds (heq ▸ List.mem_map_of_mem he)
    have hfound : between.find (config.templatePath entry.id) =
        before.find (config.templatePath entry.id) :=
      hfirst.find_eq fun e he heq =>
        hfirstIds e.id (List.mem_map_of_mem he) entry.id List.mem_cons_self heq
    obtain ⟨location, hplace, hwritten⟩ := hentry.written
    rw [Config.place_templatePath hentry.output_ne] at hplace
    rw [hfind, ← hfound]
    rcases hwritten.content with hfile | ⟨hsink, -⟩
    · left
      refine find_of_follow ?_ hfile
      rw [hentry.follow_eq, hplace]
    · exact .inr (find_of_follow hplace hsink)

end ConvertsAll

/-! ### A batch -/

/-- A batch with a configuration that is not valid changes no file. -/
theorem attempt_run_of_invalid {config : Config} {e : ConfigError}
    (h : config.validate = .error e) (w : World) :
    attempt (run config) w = (.error (.config e), w) := by
  rw [run, attempt_bind_of_error]
  rw [attempt_within, attempt_liftExcept, h]
  rfl

theorem attempt_run_of_valid {config : Config} (h : config.validate = .ok ()) (w : World) :
    attempt (run config) w = attempt (convertAll config config.entries) w := by
  rw [run, attempt_bind_of_ok]
  rw [attempt_within, attempt_liftExcept, h]
  rfl

/-- A batch whose configuration is not valid changes no file. Any other
one, as long as somebody listens, converts the entries before the first
one that fails, ends with the failure of that one, and succeeds if there
is none. The path of each entry that was converted leads to a file with
the bytes of its template, which is made of the files as the entries
before have left them; a device stays what it was. These files lie at
different locations, and nothing lies otherwise than before anywhere
else. In particular the paths of the other entries lead to what they led
to before. -/
theorem effect_of_run (config : Config) (w : World) (hreceiver : w.receiver.left = none) :
    let answer := (attempt (run config) w).1
    let files := (attempt (run config) w).2.files
    (∃ e, config.validate = .error e ∧ answer = .error (.config e) ∧ files = w.files) ∨
    (config.validate = .ok () ∧ ∃ done rest, config.entries = done ++ rest ∧
      ConvertsAll config done w.files files ∧ Ends config files rest answer ∧
      (answer = .ok () ↔ rest = []) ∧
      (∀ first entry later, done = first ++ entry :: later →
        ∃ between template, ConvertsAll config first w.files between ∧
          entry.result (.ofFiles between) = .ok template ∧
          (files.find (config.templatePath entry.id) = .ok (.file template.document.toUTF8) ∨
            w.files.find (config.templatePath entry.id) = .ok .sink)) ∧
      (done.Pairwise fun a b => ∃ location location',
        w.files.place (config.templatePath a.id) = .ok location ∧
        w.files.place (config.templatePath b.id) = .ok location' ∧ location ≠ location') ∧
      (∀ location,
        (∀ entry ∈ done, w.files.place (config.templatePath entry.id) ≠ .ok location) →
          files.at? location = w.files.at? location) ∧
      ∀ entry ∈ rest,
        files.find (config.templatePath entry.id) = w.files.find (config.templatePath entry.id)) := by
  intro answer files
  cases hvalid : config.validate with
  | error e =>
    left
    have hrun := attempt_run_of_invalid hvalid w
    exact ⟨e, rfl, congrArg Prod.fst hrun, congrArg (fun r => r.2.files) hrun⟩
  | ok _ =>
    right
    obtain ⟨done, rest, hentries, hdone, hends⟩ :=
      exists_convertAll config config.entries hreceiver
    rw [← attempt_run_of_valid hvalid w] at hdone hends
    have hnodup := Config.nodup_ids_of_validate hvalid
    rw [hentries, List.map_append, List.nodup_append] at hnodup
    -- entries of different numbers have different places
    obtain ⟨hdoneIds, -, hrestIds⟩ := hnodup
    refine ⟨rfl, done, rest, hentries, hdone, hends, ?_, fun first entry later h => ?_, ?_,
      fun location => hdone.at?_eq, fun entry hentry => hdone.find_eq fun e he heq => ?_⟩
    · show answer = .ok () ↔ rest = []
      change Ends config files rest answer at hends
      generalize answer = answer at hends
      cases hends <;> simp
    · subst h
      exact hdone.exists_template hdoneIds
    · rw [List.nodup_iff_pairwise_ne, List.pairwise_map] at hdoneIds
      refine hdoneIds.imp_of_mem fun {a b} ha hb hne => ?_
      obtain ⟨location, hplace⟩ := hdone.exists_place ha
      obtain ⟨location', hplace'⟩ := hdone.exists_place hb
      refine ⟨location, location', hplace, hplace', ?_⟩
      rintro rfl
      exact hne (Config.eq_of_place (hdone.output_ne ha) hplace hplace')
    · exact hrestIds e.id (List.mem_map_of_mem he) entry.id (List.mem_map_of_mem hentry) heq

/-- Two entries without inputs. -/
def twoEntries : Config := ⟨"out", false, [⟨1, none, none, none⟩, ⟨12, none, none, none⟩]⟩

/-- A world in which a directory has the name of the second template. -/
def blocked : World :=
  .ofFiles ⟨[], [(["out"], .directory), (["entry_0012.yaml", "out"], .directory)]⟩

/-- Of two entries only the first one is converted, where the template of
the second one cannot be written. -/
theorem effect_of_run_blocked :
    blocked.receiver.left = none ∧ (attempt (run twoEntries) blocked).1.isOk = false ∧
      (attempt (run twoEntries) blocked).2.files.isPresent "out/entry_0001.yaml" = true ∧
      ∃ done rest, twoEntries.entries = done ++ rest ∧ rest ≠ [] ∧
        ConvertsAll twoEntries done blocked.files (attempt (run twoEntries) blocked).2.files ∧
        ∀ entry ∈ rest,
          (attempt (run twoEntries) blocked).2.files.find (twoEntries.templatePath entry.id) =
            blocked.files.find (twoEntries.templatePath entry.id) := by
  have hfailed : (attempt (run twoEntries) blocked).1.isOk = false := by decide +kernel
  have hvalid : twoEntries.validate.isOk = true := by decide
  refine ⟨rfl, hfailed, by decide +kernel, ?_⟩
  rcases effect_of_run twoEntries blocked rfl with
    ⟨e, he, -⟩ | ⟨-, done, rest, hentries, hdone, -, hok, -, -, -, hrest⟩
  · rw [he] at hvalid
    cases hvalid
  · refine ⟨done, rest, hentries, fun hnil => ?_, hdone, hrest⟩
    rw [hok.2 hnil] at hfailed
    cases hfailed

end AtomProbe.Batch
