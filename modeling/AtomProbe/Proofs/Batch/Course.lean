import AtomProbe.Proofs.Batch.Messages

/-!
# `AtomProbe.Proofs.Batch.Course`: what is heard of a batch

The entries of a batch have their turns in order, until one of them is
not finished. `Course` lists what is done; `exists_course` says that a
batch takes such a course.

* `Course.converts` and `Course.stops`: how a course ends.
* `Course.serves` and `Course.written`: in which order things are done.
* `Course.cut`: what a receiver gets that stops to listen, compared with
  one that listens to the end.

All of these are inductions on the entries, with the facts about one turn
at each step.
-/

set_option autoImplicit false

namespace AtomProbe.Batch

theorem Fails.ne_send {config : Config} {entry : Entry} {files : FileTree} {e : BatchError}
    (h : Fails config entry files e) : e ≠ .send := by
  rintro rfl
  cases h

/-! ### Entries in order -/

/-- What is done for entries in order, up to the first one that is not
finished, how it ends, and what is left. -/
inductive Course (config : Config) : List Entry → FileTree → Receiver → List Operation →
    Except BatchError Unit → FileTree → Receiver → Prop
  | nil (files : FileTree) (receiver : Receiver) :
      Course config [] files receiver [] (.ok ()) files receiver
  | stopped {entry : Entry} {later : List Entry} {files files' : FileTree}
      {receiver receiver' : Receiver} {trace : List Operation} {e : BatchError}
      (hturn : Turn config entry files receiver trace (.error e) files' receiver') :
      Course config (entry :: later) files receiver trace (.error e) files' receiver'
  | next {entry : Entry} {entries : List Entry} {files between files' : FileTree}
      {receiver receiver' receiver'' : Receiver} {trace more : List Operation}
      {answer : Except BatchError Unit}
      (hturn : Turn config entry files receiver trace (.ok ()) between receiver')
      (hlater : Course config entries between receiver' more answer files' receiver'') :
      Course config (entry :: entries) files receiver (trace ++ more) answer files' receiver''

/-- What is done for entries in order is as `Course` says. Induction on
the entries; what is done for the later ones is done in the world that
the first one leaves. -/
theorem exists_course (config : Config) (entries : List Entry) (w : World) :
    ∃ trace answer,
      Does w (convertAll config entries).run (convertAll config entries).run trace answer ∧
      Course config entries w.files w.receiver trace answer (w.replay trace).files
        (w.replay trace).receiver := by
  induction entries generalizing w with
  | nil => exact ⟨[], .ok (), .pure w _, .nil w.files w.receiver⟩
  | cons entry entries ih =>
    obtain ⟨trace, answer, hdoes, hturn⟩ := exists_turn config entry w
    cases answer with
    | error e => exact ⟨trace, .error e, hdoes.bind_error, .stopped hturn⟩
    | ok _ =>
      obtain ⟨more, answer, hmore, hlater⟩ := ih (w.replay trace)
      refine ⟨trace ++ more, answer, hdoes.bind_ok hmore, ?_⟩
      rw [World.replay_append]
      exact .next hturn hlater

namespace Course

variable {config : Config} {entries : List Entry} {files files' : FileTree}
  {receiver receiver' : Receiver} {trace : List Operation} {answer : Except BatchError Unit}

theorem received (h : Course config entries files receiver trace answer files' receiver') :
    receiver'.received = (delivered trace).reverse ++ receiver.received := by
  induction h with
  | nil files receiver => rfl
  | stopped hturn => exact hturn.received
  | next hturn hlater ih =>
    rw [ih, hturn.received, delivered_append, List.reverse_append, List.append_assoc]

/-- A course that comes to its end has converted all entries, and sent all
messages. -/
theorem converts (h : Course config entries files receiver trace (.ok ()) files' receiver') :
    ConvertsAll config entries files files' ∧ delivered trace = script entries := by
  generalize hanswer : Except.ok () = answer at h
  induction h with
  | nil files receiver => exact ⟨.nil files, rfl⟩
  | stopped hturn => cases hanswer
  | next hturn hlater ih =>
    obtain ⟨hall, hscript⟩ := ih hanswer
    obtain ⟨-, hdelivered, template, hconverts⟩ := hturn.of_ok
    refine ⟨.cons hconverts hall, ?_⟩
    rw [delivered_append, hdelivered, hscript]
    rfl

/-- A course that stops has come to an entry that has failed, or to a
message that nobody has heard. -/
theorem stops {e : BatchError}
    (h : Course config entries files receiver trace (.error e) files' receiver') :
    ∃ done entry later between, entries = done ++ entry :: later ∧
      ConvertsAll config done files between ∧
      ((e = .send ∧ (delivered trace = script done ∨
          delivered trace = script done ++ [.begun entry.id])) ∨
        (Fails config entry between e ∧ files' = between ∧
          delivered trace = script done ++ [.begun entry.id])) := by
  generalize hanswer : Except.error e = answer at h
  induction h with
  | nil files receiver => cases hanswer
  | @stopped entry later files _ _ _ _ _ hturn =>
    cases hanswer
    refine ⟨[], entry, later, files, rfl, .nil files, ?_⟩
    rcases hturn.of_error with ⟨-, he, hnone⟩ | ⟨-, he, hbegun, -⟩ | ⟨-, hfails, hfiles, hbegun⟩
    · exact .inl ⟨he, .inl hnone⟩
    · exact .inl ⟨he, .inr hbegun⟩
    · exact .inr ⟨hfails, hfiles, hbegun⟩
  | @next first _ _ _ _ _ _ _ trace more _ hturn hlater ih =>
    obtain ⟨done, entry, later, between, rfl, hdone, hends⟩ := ih hanswer
    obtain ⟨-, hdelivered, template, hconverts⟩ := hturn.of_ok
    refine ⟨first :: done, entry, later, between, rfl, .cons hconverts hdone, ?_⟩
    -- both messages of the first entry come before those of the later ones
    have hscript (messages : List Status) (hmore : delivered more = script done ++ messages) :
        delivered (trace ++ more) = script (first :: done) ++ messages := by
      rw [delivered_append, hdelivered, hmore]
      rfl
    rcases hends with ⟨he, hmore | hmore⟩ | ⟨hfails, hfiles, hmore⟩
    · rw [← List.append_nil (script done)] at hmore
      rw [← List.append_nil (script (first :: done))]
      exact .inl ⟨he, .inl (hscript [] hmore)⟩
    · exact .inl ⟨he, .inr (hscript _ hmore)⟩
    · exact .inr ⟨hfails, hfiles, hscript _ hmore⟩

/-- The messages that are received are those of the entries in order, up
to some point. -/
theorem isPrefix (h : Course config entries files receiver trace answer files' receiver') :
    delivered trace <+: script entries := by
  cases answer with
  | ok _ => exact h.converts.2 ▸ List.prefix_rfl
  | error e =>
    obtain ⟨done, entry, later, between, rfl, -, hends⟩ := h.stops
    -- the messages end before the first one of `entry`, or behind it
    have hscript : script (done ++ entry :: later) =
        script done ++ [.begun entry.id] ++ (.finished entry.id :: script later) := by
      rw [script_append, script_cons, List.append_assoc]
      rfl
    rw [hscript]
    rcases hends with ⟨-, hdelivered | hdelivered⟩ | ⟨-, -, hdelivered⟩
    · rw [hdelivered, List.append_assoc]
      exact List.prefix_append ..
    · rw [hdelivered]
      exact List.prefix_append ..
    · rw [hdelivered]
      exact List.prefix_append ..

theorem completed (h : Course config entries files receiver trace answer files' receiver') :
    answer = .ok () ↔ (delivered trace).length = 2 * entries.length := by
  cases answer with
  | ok _ => simp [h.converts.2, length_script]
  | error e =>
    obtain ⟨done, entry, later, between, rfl, -, hends⟩ := h.stops
    -- the second message of `entry` is missing, whatever else is
    have hlt : (delivered trace).length < 2 * (done ++ entry :: later).length := by
      rw [List.length_append, List.length_cons]
      rcases hends with ⟨-, hdelivered | hdelivered⟩ | ⟨-, -, hdelivered⟩ <;>
        simp only [hdelivered, List.length_append, length_script, List.length_singleton] <;> omega
    exact ⟨nofun, fun heq => (Nat.ne_of_lt hlt heq).elim⟩

/-- Nothing is reported but remarks. -/
theorem isRemark (h : Course config entries files receiver trace answer files' receiver') :
    ∀ r ∈ reported trace, r.IsRemark := by
  induction h with
  | nil files receiver => exact fun r hr => (List.not_mem_nil hr).elim
  | stopped hturn => exact hturn.isRemark
  | next hturn hlater ih =>
    intro r hr
    rw [reported_append, List.mem_append] at hr
    exact hr.elim (hturn.isRemark r) (ih r)

/-- Each access serves an entry that somebody has heard to begin, but not
to be finished. -/
theorem serves (h : Course config entries files receiver trace answer files' receiver')
    {before after : List Operation} {operation : Operation}
    (htrace : trace = before ++ operation :: after) (haccess : operation.isAccess = true) :
    ∃ done entry later between, entries = done ++ entry :: later ∧
      ConvertsAll config done files between ∧ delivered before = script done ++ [.begun entry.id] ∧
      Serves config entry between operation := by
  induction h generalizing before with
  | nil files receiver => simp at htrace
  | @stopped entry later files _ _ _ _ _ hturn =>
    obtain ⟨hbefore, hserves⟩ := hturn.serves htrace haccess
    exact ⟨[], entry, later, files, rfl, .nil files, hbefore, hserves⟩
  | @next first entries files _ _ _ _ _ trace more _ hturn hlater ih =>
    -- the access is done on the turn of the first entry, or later
    rcases cases_of_append htrace with ⟨rest, hrest⟩ | ⟨before, rfl, hmore⟩
    · obtain ⟨hbefore, hserves⟩ := hturn.serves hrest haccess
      exact ⟨[], first, entries, files, rfl, .nil files, hbefore, hserves⟩
    · obtain ⟨done, entry, later, between, rfl, hdone, hbefore, hserves⟩ := ih hmore
      obtain ⟨-, hdelivered, template, hconverts⟩ := hturn.of_ok
      refine ⟨first :: done, entry, later, between, rfl, .cons hconverts hdone, ?_, hserves⟩
      rw [delivered_append, hdelivered, hbefore]
      rfl

/-- Somebody only hears that an entry is finished once its template has
been written. -/
theorem written (h : Course config entries files receiver trace answer files' receiver')
    {before after : List Operation} {id : UInt32}
    (htrace : trace = before ++ .send (.finished id) true :: after) :
    ∃ done entry later between template files'', entries = done ++ entry :: later ∧
      entry.id = id ∧ ConvertsAll config done files between ∧
      Converts config entry between template files'' ∧
      .write (config.templatePath id) (bytes template) true ∈ before := by
  induction h generalizing before with
  | nil files receiver => simp at htrace
  | @stopped entry later files _ _ _ _ _ hturn =>
    obtain ⟨rfl, template, hconverts, hwrite⟩ := hturn.written htrace
    exact ⟨[], entry, later, files, template, _, rfl, rfl, .nil files, hconverts, hwrite⟩
  | @next first entries files _ _ _ _ _ trace more _ hturn hlater ih =>
    -- the message is sent on the turn of the first entry, or later
    rcases cases_of_append htrace with ⟨rest, hrest⟩ | ⟨before, rfl, hmore⟩
    · obtain ⟨rfl, template, hconverts, hwrite⟩ := hturn.written hrest
      exact ⟨[], first, entries, files, template, _, rfl, rfl, .nil files, hconverts, hwrite⟩
    · obtain ⟨done, entry, later, between, template, files'', rfl, hid, hdone, hconverts, hwrite⟩ :=
        ih hmore
      obtain ⟨-, -, _, hfirst⟩ := hturn.of_ok
      exact ⟨first :: done, entry, later, between, template, files'', rfl, hid,
        .cons hfirst hdone, hconverts, List.mem_append_right _ hwrite⟩

end Course

/-! ### Where the receiver stops to listen -/

section
variable {config : Config} {entry : Entry} {files files' files'' : FileTree}

theorem Converts.unique {template template' : Template}
    (h : Converts config entry files template files')
    (h' : Converts config entry files template' files'') :
    template' = template ∧ files'' = files' := by
  obtain rfl : template' = template := Except.ok.inj (h'.result.symm.trans h.result)
  exact ⟨rfl, Except.ok.inj (h'.write.symm.trans h.write)⟩

theorem ConvertsAll.unique {entries : List Entry} {files' files'' : FileTree}
    (h : ConvertsAll config entries files files') (h' : ConvertsAll config entries files files'') :
    files'' = files' := by
  induction h with
  | nil files =>
    cases h'
    rfl
  | cons hentry hlater ih =>
    cases h' with
    | cons hentry' hlater' =>
      obtain ⟨-, rfl⟩ := hentry.unique hentry'
      exact ih hlater'

theorem Fails.not_converts {e : BatchError} (h : Fails config entry files e) {template : Template} :
    ¬ Converts config entry files template files' := by
  intro hconverts
  cases h with
  | output houtput =>
    rw [hconverts.isPresent] at houtput
    cases houtput
  | source houtput htemplate =>
    rw [hconverts.result] at htemplate
    cases htemplate
  | creation houtput htemplate hwrite =>
    rw [hconverts.result] at htemplate
    cases htemplate
    rw [hconverts.write] at hwrite
    cases hwrite

/-- Entries are not all converted where one of them fails at its turn. -/
theorem Fails.not_convertsAll {done later : List Entry} {between : FileTree} {e : BatchError}
    (h : Fails config entry between e) (hdone : ConvertsAll config done files between) :
    ¬ ConvertsAll config (done ++ entry :: later) files files' := by
  intro hall
  obtain ⟨between', hdone', hrest⟩ := hall.of_append
  obtain rfl := hdone.unique hdone'
  cases hrest with
  | cons hentry hlater => exact h.not_converts hentry

end

namespace Course

variable {config : Config} {entry : Entry} {entries : List Entry} {files files' files'' : FileTree}
  {receiver receiver' receiver'' : Receiver} {trace : List Operation}
  {answer : Except BatchError Unit}

/-- If somebody listens to the end, the first entry fails, or it is
converted and both its messages are heard. -/
theorem cases_of_patient
    (h : Course config (entry :: entries) files receiver trace answer files' receiver')
    (hleft : receiver.left = none) :
    (∃ e, Fails config entry files e ∧ answer = .error e ∧ delivered trace = [.begun entry.id]) ∨
      ∃ template between receiver₁ more, Converts config entry files template between ∧
        Course config entries between receiver₁ more answer files' receiver' ∧
        receiver₁.left = none ∧
        delivered trace = .begun entry.id :: .finished entry.id :: delivered more := by
  cases h with
  | stopped hturn =>
    rcases hturn.of_error with ⟨hzero, -⟩ | ⟨hone, -⟩ | ⟨-, hfails, -, hbegun⟩
    · cases hleft.symm.trans hzero
    · cases hleft.symm.trans hone
    · exact .inl ⟨_, hfails, rfl, hbegun⟩
  | @next _ _ _ between _ _ receiver₁ _ trace more _ hturn hlater =>
    obtain ⟨⟨-, -, hleft₁⟩, hdelivered, template, hconverts⟩ := hturn.of_ok
    -- a receiver without a limit has none behind the turn either
    rw [hleft] at hleft₁
    refine .inr ⟨template, between, receiver₁, more, hconverts, hlater, hleft₁, ?_⟩
    rw [delivered_append, hdelivered]
    rfl

/-- If somebody listens to the end, the batch does not end for lack of a
receiver. -/
theorem ne_send_of_patient
    (h : Course config entries files receiver trace answer files' receiver')
    (hleft : receiver.left = none) : answer ≠ .error .send := by
  induction entries generalizing files receiver trace with
  | nil =>
    cases h
    nofun
  | cons entry later ih =>
    rcases h.cases_of_patient hleft with ⟨e, hfails, rfl, -⟩ | ⟨_, _, _, _, -, hlater, hnone, -⟩
    · intro hsend
      exact hfails.ne_send (Except.error.inj hsend)
    · exact ih hlater hnone

/-- A receiver that stops after `j` messages gets the first `j` of those
that another one gets who listens to the end. The batch ends for lack of
a receiver exactly if there is a message more. Induction on the entries;
both courses do the same for an entry as long as its messages are heard. -/
theorem cut {j : Nat} {trace' : List Operation} {answer' : Except BatchError Unit}
    {files'' : FileTree} {patient patient' : Receiver}
    (h : Course config entries files receiver trace answer files' receiver')
    (hleft : receiver.left = some j)
    (hpatient : Course config entries files patient trace' answer' files'' patient')
    (hnone : patient.left = none) :
    delivered trace = (delivered trace').take j ∧
      (answer = .error .send ↔ j < (delivered trace').length) := by
  induction h generalizing j trace' patient with
  | nil files receiver =>
    cases hpatient
    exact ⟨by simp [delivered], by simp [delivered]⟩
  | @stopped entry later files files' receiver receiver' trace e hturn =>
    -- what the other receiver gets first does not depend on this one
    rcases hpatient.cases_of_patient hnone with ⟨e', hfails', -, hmessages⟩ |
      ⟨template, between, receiver₁, more, hconverts', -, -, hmessages⟩
    · rw [hmessages]
      rcases hturn.of_error with ⟨hzero, rfl, hnothing⟩ | ⟨-, -, -, template, hconverts⟩ |
        ⟨hzero, hfails, -, hbegun⟩
      · cases hleft.symm.trans hzero
        simp [hnothing]
      · exact (hfails'.not_converts hconverts).elim
      · have hne : j ≠ 0 := fun heq => hzero (hleft.trans (congrArg some heq))
        rw [hbegun]
        refine ⟨(List.take_of_length_le (show 1 ≤ j by omega)).symm, ?_⟩
        simp [hfails.ne_send, hne]
    · rw [hmessages]
      rcases hturn.of_error with ⟨hzero, rfl, hnothing⟩ | ⟨hone, rfl, hbegun, -⟩ |
        ⟨-, hfails, -, -⟩
      · cases hleft.symm.trans hzero
        simp [hnothing]
      · cases hleft.symm.trans hone
        simp [hbegun]
      · exact (hfails.not_converts hconverts').elim
  | @next entry entries files between files' receiver receiver₁ _ trace more answer hturn hlater
      ih =>
    obtain ⟨⟨hzero, hone, hleft₁⟩, hdelivered, template, hconverts⟩ := hturn.of_ok
    -- two messages are heard on the turn, and two less are left for the later entries
    obtain ⟨j, rfl⟩ : ∃ n, j = n + 2 := ⟨j - 2, by
      have hzero : j ≠ 0 := fun heq => hzero (hleft.trans (congrArg some heq))
      have hone : j ≠ 1 := fun heq => hone (hleft.trans (congrArg some heq))
      omega⟩
    rw [hleft] at hleft₁
    rcases hpatient.cases_of_patient hnone with ⟨e', hfails', -, -⟩ |
      ⟨template', between', receiver₂, more', hconverts', hlater', hnone', hmessages⟩
    · exact (hfails'.not_converts hconverts).elim
    · obtain ⟨rfl, rfl⟩ := hconverts.unique hconverts'
      obtain ⟨htake, hsend⟩ := ih (j := j) hleft₁ hlater' hnone'
      rw [delivered_append, hdelivered, hmessages, htake, hsend]
      simp

/-- A course comes to its end exactly if all entries can be converted in
order, and the receiver takes all messages. -/
theorem ok_iff (h : Course config entries files receiver trace answer files' receiver') :
    answer = .ok () ↔ (∃ after, ConvertsAll config entries files after) ∧
      ∀ j, receiver.left = some j → 2 * entries.length ≤ j := by
  induction h with
  | nil files receiver => simpa using ⟨files, .nil files⟩
  | @stopped entry later files files' receiver receiver' trace e hturn =>
    refine ⟨nofun, ?_⟩
    rintro ⟨⟨after, hall⟩, hleft⟩
    -- too few messages are left, or the entry fails
    rcases hturn.of_error with ⟨hzero, -⟩ | ⟨hone, -⟩ | ⟨-, hfails, -⟩
    · have hle := hleft 0 hzero
      rw [List.length_cons] at hle
      omega
    · have hle := hleft 1 hone
      rw [List.length_cons] at hle
      omega
    · cases hall with
      | cons hentry hlater => exact (hfails.not_converts hentry).elim
  | @next entry entries files between files' receiver receiver₁ _ trace more answer hturn hlater
      ih =>
    obtain ⟨⟨hzero, hone, hleft₁⟩, -, template, hconverts⟩ := hturn.of_ok
    rw [ih, hleft₁]
    -- the entry is converted, and takes two messages
    refine and_congr ⟨?_, ?_⟩ ⟨?_, ?_⟩
    · rintro ⟨after, hall⟩
      exact ⟨after, .cons hconverts hall⟩
    · rintro ⟨after, hall⟩
      cases hall with
      | cons hentry hall =>
        obtain ⟨-, rfl⟩ := hconverts.unique hentry
        exact ⟨after, hall⟩
    · intro hleft j hj
      have hle := hleft (j - 2) (by rw [hj]; rfl)
      have hj₀ : j ≠ 0 := fun heq => hzero (hj.trans (congrArg some heq))
      have hj₁ : j ≠ 1 := fun heq => hone (hj.trans (congrArg some heq))
      rw [List.length_cons]
      omega
    · intro hleft j hj
      obtain ⟨n, hn, rfl⟩ := Option.map_eq_some_iff.1 hj
      have hle := hleft n hn
      rw [List.length_cons] at hle
      omega

end Course

/-! ### A batch -/

/-- Nothing is done with a configuration that is not valid. -/
theorem does_run_of_invalid {config : Config} {e : ConfigError} (h : config.validate = .error e)
    (w : World) : Does w (run config).run (run config).run [] (.error (.config e)) := by
  have hvalidate := does_within (.ofExcept w config.validate) .config
  have hinvalid : config.validate.mapError BatchError.config = .error (.config e) := by
    rw [h]
    rfl
  rw [hinvalid] at hvalidate
  exact hvalidate.bind_error

theorem exists_run_of_valid {config : Config} (h : config.validate = .ok ()) (w : World) :
    ∃ trace answer, Does w (run config).run (run config).run trace answer ∧
      Course config config.entries w.files w.receiver trace answer (w.replay trace).files
        (w.replay trace).receiver := by
  have hvalidate := does_within (.ofExcept w config.validate) .config
  have hvalid : config.validate.mapError BatchError.config = .ok () := by
    rw [h]
    rfl
  rw [hvalid] at hvalidate
  obtain ⟨trace, answer, hdoes, hcourse⟩ := exists_course config config.entries w
  exact ⟨trace, answer, hvalidate.bind_ok hdoes, hcourse⟩

end AtomProbe.Batch
