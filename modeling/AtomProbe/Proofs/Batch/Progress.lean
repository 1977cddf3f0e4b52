import AtomProbe.Proofs.Batch.Course

/-!
# `AtomProbe.Proofs.Batch.Progress`: whoever listens knows how far a batch is

A batch tells a receiver when an entry begins and when it is finished.
The receiver may stop to listen at any point, and the batch stops with
it. `Protocol` says what the receiver can rely on, and `protocol_of_run`
that this is so for each configuration, all files and each point.

It speaks of the operations of the batch in order, which are those of a
batch that is watched. That this is no other batch is a part of it. Each
message has the part of an entry that is done, zero or one, and the number
of the entry.
-/

set_option autoImplicit false

namespace AtomProbe

/-- The world with a receiver that stops after so many messages, if there
is a limit. -/
def World.listening (w : World) (limit : Option Nat) : World := { w with receiver := ⟨limit, []⟩ }

namespace Batch

/-- How a batch ends. -/
def answer (config : Config) (w : World) : Except BatchError Unit := (attempt (run config) w).1

/-- The messages of a batch that are received. -/
def messages (config : Config) (w : World) : List Status :=
  (attempt (run config) w).2.receiver.messages

/-- A batch that is watched. -/
def watched (config : Config) (w : World) : Except BatchError Unit × Observed :=
  (run config : ExceptT BatchError (StateM Observed) Unit).run.run ⟨w, []⟩

/-- What is done in a batch, in order. -/
def trace (config : Config) (w : World) : List Operation := (watched config w).2.operations.reverse

/-- What a receiver that stops after so many messages, if there is a
limit, can know of a batch. -/
structure Protocol (config : Config) (w : World) (limit : Option Nat) : Prop where
  /-- Watching a batch changes nothing. -/
  watched : (watched config (w.listening limit)).1 = answer config (w.listening limit) ∧
    (watched config (w.listening limit)).2.world = (attempt (run config) (w.listening limit)).2 ∧
    delivered (trace config (w.listening limit)) = messages config (w.listening limit)
  /-- The messages are those of the entries in order, up to some point. -/
  isPrefix : messages config (w.listening limit) <+: script config.entries
  /-- Nothing is done if the configuration is not valid. -/
  invalid : ∀ e, config.validate = .error e →
    messages config (w.listening limit) = [] ∧ trace config (w.listening limit) = []
  /-- When an entry is said to be finished, its template has been written,
  as it is made of the files that the entries before have left. -/
  written : ∀ before id after,
    trace config (w.listening limit) = before ++ .send ⟨1, id⟩ true :: after →
      ∃ done entry later between template, config.entries = done ++ entry :: later ∧
        entry.id = id ∧ ConvertsAll config done w.files between ∧
        entry.result (.ofFiles between) = .ok template ∧
        .write (config.templatePath id) template.document.toUTF8 true ∈ before
  /-- An entry that fails is the last one that is said to begin. -/
  stopped : ∀ e, config.validate = .ok () → answer config (w.listening limit) = .error e →
    e ≠ .send → ∃ done entry later, config.entries = done ++ entry :: later ∧
      Fails config entry (attempt (run config) (w.listening limit)).2.files e ∧
      messages config (w.listening limit) = script done ++ [⟨0, entry.id⟩] ∧
      (messages config (w.listening limit)).length = 2 * (done.length + 1) - 1
  /-- A batch succeeds exactly if the configuration is valid, its entries
  can be converted in order, and the receiver takes all messages. -/
  succeeded : answer config (w.listening limit) = .ok () ↔ config.validate = .ok () ∧
    (∃ after, ConvertsAll config config.entries w.files after) ∧
    ∀ j, limit = some j → 2 * config.entries.length ≤ j
  /-- A batch succeeds exactly if all messages are received. -/
  completed : config.validate = .ok () →
    (answer config (w.listening limit) = .ok () ↔
      (messages config (w.listening limit)).length = 2 * config.entries.length)
  /-- If there is a message more than the receiver takes, the batch ends
  there. -/
  cut : ∀ j, limit = some j → j < (messages config (w.listening none)).length →
    answer config (w.listening limit) = .error .send ∧
      messages config (w.listening limit) = (messages config (w.listening none)).take j
  /-- It only ends for lack of a receiver once this one has got all that it
  takes. -/
  unheard : answer config (w.listening limit) = .error .send →
    ∃ j, limit = some j ∧ (messages config (w.listening limit)).length = j
  /-- A file is only looked at or written for an entry that is said to have
  begun, and not yet to be finished. -/
  served : ∀ before operation after,
    trace config (w.listening limit) = before ++ operation :: after → operation.isAccess = true →
      ∃ done entry later between, config.entries = done ++ entry :: later ∧
        ConvertsAll config done w.files between ∧
        delivered before = script done ++ [⟨0, entry.id⟩] ∧
        Serves config entry between operation
  /-- The template of an entry that is not said to begin is not written. -/
  untouched : ∀ entry ∈ config.entries, ⟨0, entry.id⟩ ∉ messages config (w.listening limit) →
    ∀ content isDone, .write (config.templatePath entry.id) content isDone ∉
      trace config (w.listening limit)

section
variable {config : Config} {w : World} {ops : List Operation} {result : Except BatchError Unit}
  (h : Does w (run config).run (run config).run ops result)
include h

theorem watched_of_does : watched config w = (result, ⟨w.replay ops, ops.reverse⟩) := by
  have hobserved := h.observed w [] (.refl w)
  rwa [List.append_nil] at hobserved

theorem attempt_of_does : attempt (run config) w = (result, w.replay ops) := h.plain w (.refl w)

theorem trace_of_does : trace config w = ops := by
  rw [trace, watched_of_does h, List.reverse_reverse]

end

/-- A batch succeeds exactly if the configuration is valid, its entries
can be converted in order, and the receiver takes all messages. -/
theorem answer_eq_ok_iff (config : Config) (w : World) :
    answer config w = .ok () ↔ config.validate = .ok () ∧
      (∃ after, ConvertsAll config config.entries w.files after) ∧
      ∀ j, w.receiver.left = some j → 2 * config.entries.length ≤ j := by
  cases hvalid : config.validate with
  | error e =>
    rw [answer, attempt_of_does (does_run_of_invalid hvalid w)]
    constructor
    · intro h
      cases h
    · rintro ⟨h, -⟩
      cases h
  | ok _ =>
    obtain ⟨ops, result, hdoes, hcourse⟩ := exists_run_of_valid hvalid w
    rw [answer, attempt_of_does hdoes, hcourse.ok_iff]
    exact (and_iff_right rfl).symm

/-- Watching a batch changes nothing. -/
theorem watched_eq (config : Config) (w : World) (limit : Option Nat) :
    (watched config (w.listening limit)).1 = answer config (w.listening limit) ∧
      (watched config (w.listening limit)).2.world =
        (attempt (run config) (w.listening limit)).2 ∧
      delivered (trace config (w.listening limit)) = messages config (w.listening limit) := by
  cases hvalid : config.validate with
  | error e =>
    have hdoes := does_run_of_invalid hvalid (w.listening limit)
    rw [answer, messages, trace_of_does hdoes, watched_of_does hdoes, attempt_of_does hdoes]
    exact ⟨rfl, rfl, rfl⟩
  | ok _ =>
    obtain ⟨ops, result, hdoes, hcourse⟩ := exists_run_of_valid hvalid (w.listening limit)
    rw [answer, messages, trace_of_does hdoes, watched_of_does hdoes, attempt_of_does hdoes]
    refine ⟨rfl, rfl, ?_⟩
    -- no message was received before
    have hreceived : ((w.listening limit).replay ops).receiver.received =
        (delivered ops).reverse ++ [] := hcourse.received
    rw [Receiver.messages, hreceived, List.append_nil, List.reverse_reverse]

theorem protocol_of_invalid {config : Config} {e : ConfigError} (h : config.validate = .error e)
    (w : World) (limit : Option Nat) : Protocol config w limit := by
  have htrace (limit : Option Nat) : trace config (w.listening limit) = [] :=
    trace_of_does (does_run_of_invalid h _)
  have hmessages (limit : Option Nat) : messages config (w.listening limit) = [] := by
    rw [← (watched_eq config w limit).2.2, htrace]
    rfl
  have hvalid : config.validate ≠ .ok () := by
    rw [h]
    nofun
  have hsplit {before after : List Operation} {operation : Operation}
      (h : trace config (w.listening limit) = before ++ operation :: after) : False := by
    rw [htrace] at h
    simp at h
  constructor
  case watched => exact watched_eq config w limit
  case isPrefix => exact hmessages limit ▸ List.nil_prefix
  case invalid => exact fun _ _ => ⟨hmessages limit, htrace limit⟩
  case written => exact fun before id after h => (hsplit h).elim
  case stopped => exact fun e' h => (hvalid h).elim
  case completed => exact fun h => (hvalid h).elim
  case cut =>
    intro j _ hj
    rw [hmessages none] at hj
    cases hj
  case succeeded => exact answer_eq_ok_iff config (w.listening limit)
  case unheard =>
    intro hsend
    rw [answer, attempt_of_does (does_run_of_invalid h _)] at hsend
    cases hsend
  case served => exact fun before operation after h => (hsplit h).elim
  case untouched => exact fun entry _ _ content isDone h => List.not_mem_nil (htrace limit ▸ h)

theorem protocol_of_valid {config : Config} (h : config.validate = .ok ()) (w : World)
    (limit : Option Nat) : Protocol config w limit := by
  obtain ⟨ops, result, hdoes, hcourse⟩ := exists_run_of_valid h (w.listening limit)
  obtain ⟨ops', result', hdoes', hpatient⟩ := exists_run_of_valid h (w.listening none)
  have htrace : trace config (w.listening limit) = ops := trace_of_does hdoes
  have hattempt := attempt_of_does hdoes
  have hanswer : answer config (w.listening limit) = result := congrArg Prod.fst hattempt
  have hmessages : messages config (w.listening limit) = delivered ops := by
    rw [← (watched_eq config w limit).2.2, htrace]
  have hmessages' : messages config (w.listening none) = delivered ops' := by
    rw [← (watched_eq config w none).2.2, trace_of_does hdoes']
  constructor
  case watched => exact watched_eq config w limit
  case isPrefix => exact hmessages ▸ hcourse.isPrefix
  case invalid =>
    intro e hinvalid
    rw [h] at hinvalid
    cases hinvalid
  case written =>
    intro before id after hsplit
    obtain ⟨done, entry, later, between, template, _, hentries, hid, hdone, hconverts, hwrite⟩ :=
      hcourse.written (htrace ▸ hsplit)
    exact ⟨done, entry, later, between, template, hentries, hid, hdone, hconverts.result, hwrite⟩
  case stopped =>
    intro e _ he hsend
    rw [hanswer] at he
    subst he
    obtain ⟨done, entry, later, between, hentries, -, ⟨heq, -⟩ | ⟨hfails, hfiles, hscript⟩⟩ :=
      hcourse.stops
    · exact (hsend heq).elim
    · refine ⟨done, entry, later, hentries, ?_, hmessages.trans hscript, ?_⟩
      · rw [hattempt, hfiles]
        exact hfails
      · rw [hmessages, hscript, List.length_append, length_script, List.length_singleton]
        omega
  case completed =>
    intro _
    rw [hanswer, hmessages]
    exact hcourse.completed
  case cut =>
    intro j hlimit hj
    subst hlimit
    rw [hmessages'] at hj
    obtain ⟨htake, hsend⟩ := hcourse.cut rfl hpatient rfl
    rw [hanswer, hmessages, hmessages']
    exact ⟨hsend.2 hj, htake⟩
  case succeeded => exact answer_eq_ok_iff config (w.listening limit)
  case unheard =>
    intro he
    rw [hanswer] at he
    cases limit with
    | none => exact (hcourse.ne_send_of_patient rfl he).elim
    | some j =>
      obtain ⟨htake, hsend⟩ := hcourse.cut rfl hpatient rfl
      refine ⟨j, rfl, ?_⟩
      rw [hmessages, htake, List.length_take]
      exact Nat.min_eq_left (Nat.le_of_lt (hsend.1 he))
  case served =>
    intro before operation after hsplit haccess
    exact hcourse.serves (htrace ▸ hsplit) haccess
  case untouched =>
    intro entry _ hunheard content isDone hwrite
    obtain ⟨before, after, hsplit⟩ := List.append_of_mem hwrite
    obtain ⟨done, entry', later, between, -, -, hbefore, hserves⟩ :=
      hcourse.serves (htrace ▸ hsplit) rfl
    generalize hoperation : Operation.write (config.templatePath entry.id) content isDone =
      operation at hserves
    cases hserves with
    | write content' isDone' =>
      -- the path is that of an entry of which it was heard that it begins
      injection hoperation with hpath _ _
      have hbegun : Status.begun entry.id ∈ delivered ops := by
        rw [← htrace, hsplit, delivered_append, hbefore, Config.templatePath_injective hpath]
        simp
      exact hunheard (hmessages ▸ hbegun)
    | _ => cases hoperation

/-- Whoever listens to a batch knows how far it is. -/
theorem protocol_of_run (config : Config) (w : World) (limit : Option Nat) :
    Protocol config w limit := by
  cases hvalid : config.validate with
  | error e => exact protocol_of_invalid hvalid w limit
  | ok _ => exact protocol_of_valid hvalid w limit

/-- A world with a directory for the templates, and no file. -/
def vacant : World := .ofFiles ⟨[], [(["out"], .directory)]⟩

/-- A receiver that is gone after two messages hears of the first of two
entries. Its template has been written by then. The batch ends, and the
template of the second entry is not written. -/
theorem protocol_of_run_cut :
    answer twoEntries (vacant.listening (some 2)) = .error .send ∧
      messages twoEntries (vacant.listening (some 2)) = [⟨0, 1⟩, ⟨1, 1⟩] ∧
      (∃ template : Template, .write (twoEntries.templatePath 1) template.document.toUTF8 true ∈
        trace twoEntries (vacant.listening (some 2))) ∧
      ∀ content isDone, .write (twoEntries.templatePath 12) content isDone ∉
        trace twoEntries (vacant.listening (some 2)) := by
  have hcut := protocol_of_run twoEntries vacant (some 2)
  have hpatient := protocol_of_run twoEntries vacant none
  -- nobody misses a message who listens to the end
  have hlength : (messages twoEntries (vacant.listening none)).length = 4 := by decide +kernel
  have hall : messages twoEntries (vacant.listening none) = [⟨0, 1⟩, ⟨1, 1⟩, ⟨0, 12⟩, ⟨1, 12⟩] :=
    hpatient.isPrefix.eq_of_length hlength
  obtain ⟨hanswer, hmessages⟩ := hcut.cut 2 rfl (hlength ▸ by decide)
  rw [hall] at hmessages
  refine ⟨hanswer, hmessages, ?_, hcut.untouched ⟨12, none, none, none⟩ (by decide) ?_⟩
  · have hmem : ⟨1, 1⟩ ∈ delivered (trace twoEntries (vacant.listening (some 2))) := by
      rw [hcut.watched.2.2, hmessages]
      exact List.mem_cons_of_mem _ List.mem_cons_self
    obtain ⟨before, after, hsplit⟩ := List.append_of_mem (mem_delivered.1 hmem)
    obtain ⟨_, _, _, _, template, -, -, -, -, hwrite⟩ := hcut.written before 1 after hsplit
    exact ⟨template, hsplit ▸ List.mem_append_left _ hwrite⟩
  · rw [hmessages]
    decide

end Batch

end AtomProbe
