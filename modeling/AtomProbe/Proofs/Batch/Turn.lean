import AtomProbe.Proofs.Batch
import AtomProbe.Proofs.Entry.Sources

/-!
# `AtomProbe.Proofs.Batch.Turn`: what is done on the turn of an entry

An entry has its turn when those before are finished. What is done then
is a matter of order: first somebody must hear that the entry begins,
then files are looked at, then the template is written, and then somebody
must hear that the entry is finished. `Turn` has a case for each way in
which this can end, and `exists_turn` says that there is no other way.

* `exists_does_template`: a template is made by looking at the sources of
  the entry.
* `exists_deliver`: it is written, and then reported.
* `exists_work`: both are done in this order, behind the look at the
  directory of the templates.
-/

set_option autoImplicit false

namespace AtomProbe.Batch

open FileTree

/-! ### One entry -/

/-- Whether an operation is done for an entry: it looks for the directory
of the templates, or at the sources of the entry, or it writes its
template and asks for the size of what was written. Remarks are free. -/
inductive Serves (config : Config) (entry : Entry) (files : FileTree) : Operation → Prop
  | output : Serves config entry files (.look config.output)
  | look {path : String} (h : path ∈ entry.sources files) : Serves config entry files (.look path)
  | read {path : String} (h : path ∈ entry.sources files) : Serves config entry files (.read path)
  | write (content : ByteArray) (isDone : Bool) :
      Serves config entry files (.write (config.templatePath entry.id) content isDone)
  | size : Serves config entry files (.look (config.templatePath entry.id))
  | remark {r : Record} (h : r.IsRemark) : Serves config entry files (.report r)

/-- What is done for an entry that has begun, how it ends, and what is
left. -/
inductive Work (config : Config) (entry : Entry) (files : FileTree) (receiver : Receiver) :
    List Operation → Except BatchError Unit → FileTree → Receiver → Prop
  | failed {accesses : List Operation} {e : BatchError}
      (haccesses : ∀ operation ∈ accesses, Serves config entry files operation)
      (hfails : Fails config entry files e) :
      Work config entry files receiver accesses (.error e) files receiver
  /-- The template is written, but nobody hears of it. -/
  | unheard {accesses : List Operation} {template : Template} {files' : FileTree} {r : Record}
      (haccesses : ∀ operation ∈ accesses, Serves config entry files operation)
      (hconverts : Converts config entry files template files') (hr : r.IsRemark)
      (hfinished : receiver.receive (.finished entry.id) = (false, receiver)) :
      Work config entry files receiver
        (accesses ++ [.write (config.templatePath entry.id) (bytes template) true,
          .look (config.templatePath entry.id), .report r, .send (.finished entry.id) false])
        (.error .send) files' receiver
  | finished {accesses : List Operation} {template : Template} {files' : FileTree}
      {r r' : Record} {receiver' : Receiver}
      (haccesses : ∀ operation ∈ accesses, Serves config entry files operation)
      (hconverts : Converts config entry files template files') (hr : r.IsRemark)
      (hfinished : receiver.receive (.finished entry.id) = (true, receiver'))
      (hr' : r'.IsRemark) :
      Work config entry files receiver
        (accesses ++ [.write (config.templatePath entry.id) (bytes template) true,
          .look (config.templatePath entry.id), .report r, .send (.finished entry.id) true,
          .report r']) (.ok ()) files' receiver'

/-- What is done on the turn of an entry, how it ends, and what is left.
Nothing is done for an entry unless somebody hears that it begins. -/
inductive Turn (config : Config) (entry : Entry) (files : FileTree) (receiver : Receiver) :
    List Operation → Except BatchError Unit → FileTree → Receiver → Prop
  | unheard {r : Record} (hr : r.IsRemark)
      (hbegun : receiver.receive (.begun entry.id) = (false, receiver)) :
      Turn config entry files receiver [.report r, .send (.begun entry.id) false] (.error .send)
        files receiver
  | begun {r : Record} {trace : List Operation} {answer : Except BatchError Unit}
      {files' : FileTree} {receiver' receiver'' : Receiver} (hr : r.IsRemark)
      (hbegun : receiver.receive (.begun entry.id) = (true, receiver'))
      (hwork : Work config entry files receiver' trace answer files' receiver'') :
      Turn config entry files receiver (.report r :: .send (.begun entry.id) true :: trace) answer
        files' receiver''

/-! ### The parts of a turn -/

theorem does_within {ε α : Type} {w : World} {c : ExceptT ε (StateM Observed) α}
    {d : ExceptT ε (StateM World) α} {trace : List Operation} {x : Except ε α}
    (h : Does w c.run d.run trace x) (wrap : ε → BatchError) :
    Does w (within wrap c).run (within wrap d).run trace (x.mapError wrap) := by
  have hbind := h.lift.bind_ok (f := fun x => liftExcept (x.mapError wrap))
    (g := fun x => liftExcept (x.mapError wrap)) (.ofExcept _ _)
  rwa [List.append_nil] at hbind

theorem does_send (w : World) (status : Status) :
    Does w (send status).run (send status).run [.send status (w.receiver.receive status).1]
      (if (w.receiver.receive status).1 then .ok () else .error .send) := by
  refine (Does.send w status).lift.bind_ok ?_
  cases (w.receiver.receive status).1 <;> exact .pure _ _

theorem does_findTemplatePath (config : Config) (id : UInt32) (w : World) :
    Does w (config.findTemplatePath id).run (config.findTemplatePath id).run [.look config.output]
      (if w.files.isPresent config.output then .ok (config.templatePath id)
        else .error (.missingFile config.output)) := by
  -- a look at the directory of the templates, and nothing else
  refine (Does.isPresent w config.output).lift.bind_ok ?_
  cases w.files.isPresent config.output <;> exact .pure _ _

theorem does_writeFile (template : Template) (path : String) (w : World) :
    Does w (within .template (template.writeFile path)).run
      (within .template (template.writeFile path)).run
      [.write path (bytes template) (w.files.write path (bytes template)).isOk]
      (((w.files.write path (bytes template)).map fun _ => ()).mapError fun e =>
        .template (.file e)) := by
  have hwrite : Does w (template.writeFile path).run (template.writeFile path).run
      [.write path (bytes template) (w.files.write path (bytes template)).isOk]
      (((w.files.write path (bytes template)).map fun _ => ()).mapError TemplateError.file) :=
    Does.writeText w TemplateError.file path template.document
  have hwithin := does_within hwrite .template
  cases hfiles : w.files.write path (bytes template) <;> rwa [hfiles] at hwithin

theorem act_write_of_error {w : World} {path : String} {content : ByteArray} {e : FileError}
    (h : w.files.write path content = .error e) (isDone : Bool) :
    w.act (.write path content isDone) = w := by
  rw [World.act, h]

theorem act_write_of_ok {w : World} {path : String} {content : ByteArray} {files : FileTree}
    (h : w.files.write path content = .ok files) (isDone : Bool) :
    w.act (.write path content isDone) = { w with files := files } := by
  rw [World.act, h]

theorem does_info (text : String) (w : World) :
    Does w (Journal.info text : ExceptT BatchError (StateM Observed) Unit).run
      (Journal.info text : ExceptT BatchError (StateM World) Unit).run [.report ⟨.info, text⟩]
      (.ok ()) :=
  (Does.report w ⟨.info, text⟩).lift

/-- A report and a message change the receiver alone. -/
theorem alike_announce (w : World) (r : Record) (status : Status) (isReceived : Bool) :
    (w.replay [.report r, .send status isReceived]).Alike
      { w with receiver := (w.receiver.receive status).2 } := by
  have hreport := World.alike_report w r
  exact ⟨hreport.files, congrArg (fun r => (r.receive status).2) hreport.receiver⟩

section
variable {w : World} {status : Status} (text : String) {α : Type}

/-- What follows a message that is received. -/
theorem does_announce {next : ExceptT BatchError (StateM Observed) α}
    {next' : ExceptT BatchError (StateM World) α} {more : List Operation} {x : Except BatchError α}
    (h : (w.receiver.receive status).1 = true)
    (hnext : Does { w with receiver := (w.receiver.receive status).2 } next.run next'.run more x) :
    Does w (do Journal.info text; send status; next : ExceptT BatchError (StateM Observed) α).run
      (do Journal.info text; send status; next' : ExceptT BatchError (StateM World) α).run
      (.report ⟨.info, text⟩ :: .send status true :: more) x := by
  have hreceiver := (World.alike_report w ⟨.info, text⟩).receiver
  have hsend := does_send (w.report ⟨.info, text⟩) status
  rw [hreceiver, h, if_pos rfl] at hsend
  exact (does_info text w).bind_ok (hsend.bind_ok (hnext.congr (alike_announce w _ status true)))

/-- A message that nobody receives ends the batch. -/
theorem does_announce_unheard {next : ExceptT BatchError (StateM Observed) α}
    {next' : ExceptT BatchError (StateM World) α} (h : (w.receiver.receive status).1 = false) :
    Does w (do Journal.info text; send status; next : ExceptT BatchError (StateM Observed) α).run
      (do Journal.info text; send status; next' : ExceptT BatchError (StateM World) α).run
      [.report ⟨.info, text⟩, .send status false] (.error .send) := by
  have hreceiver := (World.alike_report w ⟨.info, text⟩).receiver
  have hsend := does_send (w.report ⟨.info, text⟩) status
  rw [hreceiver, h, if_neg Bool.false_ne_true] at hsend
  exact (does_info text w).bind_ok hsend.bind_error

end

/-- A receiver that does not receive a message stays as it is. -/
theorem receive_eq_of_unheard {receiver : Receiver} {status : Status}
    (h : (receiver.receive status).1 = false) : receiver.receive status = (false, receiver) := by
  obtain ⟨left, received⟩ := receiver
  match left with
  | none => cases h
  | some 0 => rfl
  | some (n + 1) => cases h

/-- Making a template reads the sources of the entry. -/
theorem exists_does_template (config : Config) (entry : Entry) (w : World) :
    ∃ accesses, (∀ operation ∈ accesses, Serves config entry w.files operation) ∧
      (w.replay accesses).Alike w ∧
      Does w (within .source entry.template).run (within .source entry.template).run accesses
        ((entry.result (.ofFiles w.files)).mapError .source) := by
  obtain ⟨accesses, x, haccesses, hdoes⟩ := entry.reads_template w
  have hresult : x = entry.result (.ofFiles w.files) :=
    (congrArg Prod.fst (hdoes.plain w (.refl w))).symm.trans (result_congr entry rfl)
  refine ⟨accesses, ?_, World.alike_replay haccesses w, ?_⟩
  · intro operation hoperation
    cases haccesses operation hoperation with
    | look hpath => exact .look hpath
    | read hpath => exact .read hpath
    | report hr => exact .remark hr
  · exact hresult ▸ does_within hdoes .source

section
variable {m : Type → Type} [Monad m] [Storage m] [Journal m] [Listener m]

/-- Say that an entry is finished. -/
def conclude (entry : Entry) (path : String) (template : Template) : ExceptT BatchError m Unit := do
  let size ← Storage.size path
  let shown := Text.byteSize (size.toOption.getD 0)
  Journal.info s!"Wrote {template.size} paths to {path} ({shown})"
  send (.finished entry.id)
  Journal.info s!"Finished processing entry {entry.id.toNat}."

/-- Write the template of an entry. -/
def deliver (entry : Entry) (path : String) (template : Template) : ExceptT BatchError m Unit := do
  within .template (template.writeFile path)
  conclude entry path template

/-- Convert an entry that has begun. -/
def work (config : Config) (entry : Entry) : ExceptT BatchError m Unit := do
  let path ← within .config (config.findTemplatePath entry.id)
  let template ← within .source entry.template
  deliver entry path template

theorem convert_eq (config : Config) (entry : Entry) :
    (convert config entry : ExceptT BatchError m Unit) = (do
      Journal.info s!"Processing entry {entry.id.toNat}..."
      send (.begun entry.id)
      work config entry) := rfl

end

/-- The size of what was written for an entry is reported, and a message is
sent. -/
theorem exists_does_conclude (entry : Entry) (path : String) (template : Template) (w : World) :
    ∃ r r' : Record, r.IsRemark ∧ r'.IsRemark ∧
      Does w (conclude entry path template).run (conclude entry path template).run
        (if (w.receiver.receive (.finished entry.id)).1 then
          [.look path, .report r, .send (.finished entry.id) true, .report r']
        else [.look path, .report r, .send (.finished entry.id) false])
        (if (w.receiver.receive (.finished entry.id)).1 then .ok () else .error .send) := by
  refine ⟨⟨.info, s!"Wrote {template.size} paths to {path} ({
      Text.byteSize ((w.files.size path).toOption.getD 0)})"⟩,
    ⟨.info, s!"Finished processing entry {entry.id.toNat}."⟩,
    Record.isRemark_info (by simp [toString]), Record.isRemark_info (by simp [toString]), ?_⟩
  -- asking for the size leaves the world as it is
  have hsize := (Does.size w path).lift (ε := BatchError)
  cases hheard : (w.receiver.receive (.finished entry.id)).1 with
  | false => exact hsize.bind_ok (does_announce_unheard _ hheard)
  | true => exact hsize.bind_ok (does_announce _ hheard (does_info _ _))

/-- What is done for an entry that has a template, after any accesses that
serve the entry. -/
theorem exists_deliver {config : Config} {entry : Entry} {w : World} {template : Template}
    (hpresent : w.files.isPresent config.output = true)
    (hresult : entry.result (.ofFiles w.files) = .ok template) :
    ∃ trace answer,
      Does w (deliver entry (config.templatePath entry.id) template).run
        (deliver entry (config.templatePath entry.id) template).run trace answer ∧
      ∀ accesses, (∀ operation ∈ accesses, Serves config entry w.files operation) →
        Work config entry w.files w.receiver (accesses ++ trace) answer (w.replay trace).files
          (w.replay trace).receiver := by
  have hwritten := does_writeFile template (config.templatePath entry.id) w
  -- the template cannot be written, or nobody hears of it, or somebody does
  cases hwrite : w.files.write (config.templatePath entry.id) (bytes template) with
  | error e =>
    rw [hwrite] at hwritten
    refine ⟨_, _, hwritten.bind_error, ?_⟩
    intro accesses haccesses
    rw [World.replay_cons, World.replay_nil, act_write_of_error hwrite]
    refine .failed ?_ (.creation hpresent hresult hwrite)
    intro operation hoperation
    rw [List.mem_append, List.mem_singleton] at hoperation
    exact hoperation.elim (haccesses operation) fun heq => heq ▸ .write _ _
  | ok files =>
    rw [hwrite] at hwritten
    change Does w _ _ [.write (config.templatePath entry.id) (bytes template) true] _ at hwritten
    have hconverts : Converts config entry w.files template files := ⟨hpresent, hresult, hwrite⟩
    have hfiles : w.replay [.write (config.templatePath entry.id) (bytes template) true] =
        { w with files := files } := by
      rw [World.replay_cons, World.replay_nil, act_write_of_ok hwrite]
    obtain ⟨r, r', hr, hr', hconclude⟩ := exists_does_conclude entry
      (config.templatePath entry.id) template { w with files := files }
    have halike := alike_announce { w with files := files } r (.finished entry.id)
    cases hheard : (w.receiver.receive (.finished entry.id)).1 with
    | false =>
      have hfinished := receive_eq_of_unheard hheard
      simp only [hheard, Bool.false_eq_true, if_false] at hconclude
      refine ⟨_, _, hwritten.bind_ok (hfiles ▸ hconclude), ?_⟩
      intro accesses haccesses
      rw [World.replay_append, hfiles, World.replay_cons, World.act, (halike false).files,
        (halike false).receiver]
      show Work _ _ _ _ _ _ files (w.receiver.receive (.finished entry.id)).2
      rw [hfinished]
      exact .unheard haccesses hconverts hr hfinished
    | true =>
      have hfinished : w.receiver.receive (.finished entry.id) =
          (true, (w.receiver.receive (.finished entry.id)).2) := Prod.ext hheard rfl
      simp only [hheard, if_true] at hconclude
      refine ⟨_, _, hwritten.bind_ok (hfiles ▸ hconclude), ?_⟩
      intro accesses haccesses
      -- the report behind the message does not reach the receiver
      have hlast : (World.replay { w with files := files }
          [.look (config.templatePath entry.id), .report r, .send (.finished entry.id) true,
            .report r']).Alike
          { w with files := files, receiver := (w.receiver.receive (.finished entry.id)).2 } :=
        (World.alike_report _ r').trans (halike true)
      rw [World.replay_append, hfiles, hlast.files, hlast.receiver]
      exact .finished haccesses hconverts hr hfinished hr'

/-- What is done for an entry is as `Work` says. -/
theorem exists_work (config : Config) (entry : Entry) (w : World) :
    ∃ trace answer, Does w (work config entry).run (work config entry).run trace answer ∧
      Work config entry w.files w.receiver trace answer (w.replay trace).files
        (w.replay trace).receiver := by
  have hpath := does_within (does_findTemplatePath config entry.id w) .config
  rw [work, work]
  cases hpresent : w.files.isPresent config.output with
  | false =>
    rw [hpresent] at hpath
    refine ⟨_, _, hpath.bind_error, .failed ?_ (.output hpresent)⟩
    intro operation hoperation
    rw [List.mem_singleton.1 hoperation]
    exact .output
  | true =>
    rw [hpresent] at hpath
    obtain ⟨accesses, haccesses, halike, htemplate⟩ := exists_does_template config entry w
    have haccesses' : ∀ operation ∈ .look config.output :: accesses,
        Serves config entry w.files operation :=
      List.forall_mem_cons.2 ⟨.output, haccesses⟩
    cases hresult : entry.result (.ofFiles w.files) with
    | error e =>
      rw [hresult] at htemplate
      refine ⟨_, _, hpath.bind_ok htemplate.bind_error, ?_⟩
      show Work _ _ _ _ _ _ (w.replay accesses).files (w.replay accesses).receiver
      rw [halike.files, halike.receiver]
      exact .failed haccesses' (.source hpresent hresult)
    | ok template =>
      rw [hresult] at htemplate
      obtain ⟨trace, answer, hdoes, hwork⟩ := exists_deliver hpresent hresult
      -- what was looked at before leaves a world that is no other to the rest
      refine ⟨_, _, hpath.bind_ok (htemplate.bind_ok (hdoes.congr halike)), ?_⟩
      have hreplay := halike.replay trace
      rw [World.replay_append, World.replay_append, ← List.append_assoc]
      show Work _ _ _ _ _ _ ((w.replay accesses).replay trace).files
        ((w.replay accesses).replay trace).receiver
      rw [hreplay.files, hreplay.receiver]
      exact hwork _ haccesses'

/-- What is done on the turn of an entry is as `Turn` says. -/
theorem exists_turn (config : Config) (entry : Entry) (w : World) :
    ∃ trace answer, Does w (convert config entry).run (convert config entry).run trace answer ∧
      Turn config entry w.files w.receiver trace answer (w.replay trace).files
        (w.replay trace).receiver := by
  have hr : Record.IsRemark ⟨.info, s!"Processing entry {entry.id.toNat}..."⟩ :=
    Record.isRemark_info (by simp [toString])
  have halike := alike_announce w ⟨.info, s!"Processing entry {entry.id.toNat}..."⟩
    (.begun entry.id)
  rw [convert_eq, convert_eq]
  cases hheard : (w.receiver.receive (.begun entry.id)).1 with
  | false =>
    have hbegun := receive_eq_of_unheard hheard
    refine ⟨_, _, does_announce_unheard _ hheard, ?_⟩
    rw [(halike false).files, (halike false).receiver, hbegun]
    exact .unheard hr hbegun
  | true =>
    have hbegun : w.receiver.receive (.begun entry.id) =
        (true, (w.receiver.receive (.begun entry.id)).2) := Prod.ext hheard rfl
    obtain ⟨trace, answer, hdoes, hwork⟩ := exists_work config entry
      { w with receiver := (w.receiver.receive (.begun entry.id)).2 }
    have hreplay := (halike true).replay trace
    rw [← hreplay.files, ← hreplay.receiver] at hwork
    exact ⟨_, _, does_announce _ hheard hdoes, .begun hr hbegun hwork⟩

end AtomProbe.Batch
