import AtomProbe.Proofs.Batch.Turn

/-!
# `AtomProbe.Proofs.Batch.Messages`: what is heard of an entry

Two messages are sent on the turn of an entry: one when it begins, and
one when its template has been written. What is done comes in a fixed
order around them:

* `Turn.serves`: each access comes behind the first message and before
  the second one.
* `Turn.written`: the template has been written when the second message
  is sent.
* `Turn.hears`: which of them are heard depends on how many messages more
  the receiver takes, and on whether the entry fails. What follows for an
  entry that is finished, or is not, is `Turn.of_ok` and `Turn.of_error`.
-/

set_option autoImplicit false

namespace AtomProbe

/-! ### Messages of a trace -/

/-- Whether a file is looked at or written. -/
def Operation.isAccess : Operation → Bool
  | .look _ => true
  | .read _ => true
  | .write _ _ _ => true
  | _ => false

/-- The message that is received with an operation. -/
def Operation.message? : Operation → Option Status
  | .send status true => some status
  | _ => none

namespace Batch

/-- The messages that are received with operations in order. -/
def delivered (trace : List Operation) : List Status := trace.filterMap Operation.message?

/-- The messages of entries that are converted in order: for each of them
that nothing of it is done, and then that the whole of it is. -/
def script (entries : List Entry) : List Status :=
  entries.flatMap fun entry => [⟨0, entry.id⟩, ⟨1, entry.id⟩]

theorem script_cons (entry : Entry) (entries : List Entry) :
    script (entry :: entries) = .begun entry.id :: .finished entry.id :: script entries := rfl

theorem length_script (entries : List Entry) : (script entries).length = 2 * entries.length := by
  induction entries with
  | nil => rfl
  | cons entry entries ih =>
    rw [script_cons, List.length_cons, List.length_cons, List.length_cons, ih]
    omega

theorem script_append (entries later : List Entry) :
    script (entries ++ later) = script entries ++ script later :=
  List.flatMap_append

theorem mem_delivered {trace : List Operation} {status : Status} :
    status ∈ delivered trace ↔ .send status true ∈ trace := by
  rw [delivered, List.mem_filterMap]
  constructor
  · rintro ⟨operation, hoperation, hmessage⟩
    cases operation with
    | send status' isReceived =>
      cases isReceived with
      | false => cases hmessage
      | true =>
        cases hmessage
        exact hoperation
    | _ => cases hmessage
  · exact fun h => ⟨.send status true, h, rfl⟩

theorem delivered_append (trace more : List Operation) :
    delivered (trace ++ more) = delivered trace ++ delivered more :=
  List.filterMap_append

/-- Accesses deliver nothing. -/
theorem delivered_of_serves {config : Config} {entry : Entry} {files : FileTree}
    {accesses : List Operation}
    (h : ∀ operation ∈ accesses, Serves config entry files operation) :
    delivered accesses = [] := by
  refine List.filterMap_eq_nil_iff.2 ?_
  intro operation hoperation
  cases h operation hoperation <;> rfl

theorem begun_ne_finished (id id' : UInt32) : Status.begun id ≠ .finished id' := by
  intro h
  have hprogress : Float32.ofNat 0 ≠ Float32.ofNat 1 := by decide
  exact hprogress (congrArg Status.progress h)

/-- An operation of two traces in order is one of the first, or one of the
second. -/
theorem cases_of_append {as bs before after : List Operation} {operation : Operation}
    (h : as ++ bs = before ++ operation :: after) :
    (∃ rest, as = before ++ operation :: rest) ∨
      ∃ first, before = as ++ first ∧ bs = first ++ operation :: after := by
  rcases List.append_eq_append_iff.1 h with ⟨first, hbefore, hbs⟩ | ⟨rest, has, hafter⟩
  · exact .inr ⟨first, hbefore, hbs⟩
  · cases rest with
    | nil =>
      right
      refine ⟨[], ?_, ?_⟩
      · rw [has]
        simp
      · rw [List.nil_append, ← List.nil_append bs]
        exact hafter.symm
    | cons first rest =>
      obtain ⟨rfl, -⟩ := List.cons.inj hafter
      exact .inl ⟨rest, has⟩

/-! ### One entry -/

section
variable {config : Config} {entry : Entry} {files files' : FileTree}
  {receiver receiver' : Receiver} {trace : List Operation} {answer : Except BatchError Unit}

theorem received_of_receive {status : Status} (h : receiver.receive status = (true, receiver')) :
    receiver'.received = status :: receiver.received := by
  obtain ⟨left, received⟩ := receiver
  match left with
  | none =>
    cases h
    rfl
  | some 0 => cases h
  | some (n + 1) =>
    cases h
    rfl

theorem left_of_receive {status : Status} (h : receiver.receive status = (true, receiver')) :
    receiver.left ≠ some 0 ∧ receiver'.left = receiver.left.map (· - 1) := by
  obtain ⟨left, received⟩ := receiver
  match left with
  | none =>
    cases h
    exact ⟨nofun, rfl⟩
  | some 0 => cases h
  | some (n + 1) =>
    cases h
    exact ⟨by simp, rfl⟩

theorem left_of_receive_eq_false {status : Status}
    (h : receiver.receive status = (false, receiver')) : receiver.left = some 0 := by
  obtain ⟨left, received⟩ := receiver
  match left with
  | none => cases h
  | some 0 => rfl
  | some (n + 1) => cases h

theorem Work.received (h : Work config entry files receiver trace answer files' receiver') :
    receiver'.received = (delivered trace).reverse ++ receiver.received := by
  cases h with
  | failed haccesses hfails => rw [delivered_of_serves haccesses]; rfl
  | unheard haccesses hconverts hr hfinished =>
    rw [delivered_append, delivered_of_serves haccesses]
    rfl
  | finished haccesses hconverts hr hfinished hr' =>
    rw [delivered_append, delivered_of_serves haccesses]
    exact received_of_receive hfinished

theorem Turn.received (h : Turn config entry files receiver trace answer files' receiver') :
    receiver'.received = (delivered trace).reverse ++ receiver.received := by
  cases h with
  | unheard hr hbegun => rfl
  | @begun r trace answer files' receiver₁ receiver' hr hbegun hwork =>
    have hdelivered : delivered (.report r :: .send (.begun entry.id) true :: trace) =
        .begun entry.id :: delivered trace := rfl
    rw [hwork.received, received_of_receive hbegun, hdelivered]
    simp

theorem isRemark_of_serves {accesses : List Operation}
    (h : ∀ operation ∈ accesses, Serves config entry files operation) :
    ∀ r ∈ reported accesses, r.IsRemark := by
  intro r hr
  cases h _ (mem_reported.1 hr) with
  | remark hremark => exact hremark

theorem Work.isRemark (h : Work config entry files receiver trace answer files' receiver') :
    ∀ r ∈ reported trace, r.IsRemark := by
  cases h with
  | failed haccesses hfails => exact isRemark_of_serves haccesses
  | @unheard accesses template _ r haccesses hconverts hr hfinished =>
    have hrest : reported [.write (config.templatePath entry.id) (bytes template) true,
        .look (config.templatePath entry.id), .report r, .send (.finished entry.id) false] = [r] :=
      rfl
    rw [reported_append, hrest, List.forall_mem_append, List.forall_mem_singleton]
    exact ⟨isRemark_of_serves haccesses, hr⟩
  | @finished accesses template _ r r' _ haccesses hconverts hr hfinished hr' =>
    have hrest : reported [.write (config.templatePath entry.id) (bytes template) true,
        .look (config.templatePath entry.id), .report r, .send (.finished entry.id) true,
        .report r'] = [r, r'] := rfl
    rw [reported_append, hrest, List.forall_mem_append, List.forall_mem_cons,
      List.forall_mem_singleton]
    exact ⟨isRemark_of_serves haccesses, hr, hr'⟩

/-- Nothing is reported on the turn of an entry but remarks. -/
theorem Turn.isRemark (h : Turn config entry files receiver trace answer files' receiver') :
    ∀ r ∈ reported trace, r.IsRemark := by
  cases h with
  | @unheard r hr hbegun =>
    have hreported : reported [.report r, .send (.begun entry.id) false] = [r] := rfl
    rw [hreported, List.forall_mem_singleton]
    exact hr
  | @begun r trace _ _ _ _ hr hbegun hwork =>
    have hreported : reported (.report r :: .send (.begun entry.id) true :: trace) =
        r :: reported trace := rfl
    rw [hreported, List.forall_mem_cons]
    exact ⟨hr, hwork.isRemark⟩

/-- What is accessed before the template is written serves the entry. -/
theorem serves_of_append {accesses before after tail : List Operation} {operation : Operation}
    (haccesses : ∀ operation ∈ accesses, Serves config entry files operation)
    (htail : ∀ operation ∈ tail, operation.isAccess = false)
    (h : accesses ++ tail = before ++ operation :: after)
    (haccess : operation.isAccess = true) :
    delivered before = [] ∧ Serves config entry files operation := by
  rcases cases_of_append h with ⟨rest, rfl⟩ | ⟨first, -, rfl⟩
  · have hbefore : delivered before = [] :=
      delivered_of_serves fun operation hoperation =>
        haccesses operation (List.mem_append_left _ hoperation)
    exact ⟨hbefore, haccesses operation (List.mem_append_right _ List.mem_cons_self)⟩
  · have hfalse := htail operation (List.mem_append_right _ List.mem_cons_self)
    rw [haccess] at hfalse
    cases hfalse

/-- So does writing it, and asking for its size, which is the last access. -/
theorem serves_of_written {accesses before after tail : List Operation} {operation : Operation}
    {content : ByteArray} (haccesses : ∀ operation ∈ accesses, Serves config entry files operation)
    (htail : ∀ operation ∈ tail, operation.isAccess = false)
    (h : accesses ++ .write (config.templatePath entry.id) content true ::
      .look (config.templatePath entry.id) :: tail = before ++ operation :: after)
    (haccess : operation.isAccess = true) :
    delivered before = [] ∧ Serves config entry files operation := by
  have hwrite : ∀ operation ∈ accesses ++ [.write (config.templatePath entry.id) content true] ++
      [.look (config.templatePath entry.id)], Serves config entry files operation := by
    intro operation hoperation
    rw [List.mem_append, List.mem_append, List.mem_singleton, List.mem_singleton] at hoperation
    rcases hoperation with (hbefore | rfl) | rfl
    · exact haccesses operation hbefore
    · exact .write content true
    · exact .size
  rw [List.append_cons, List.append_cons] at h
  exact serves_of_append hwrite htail h haccess

/-- For an entry that has begun there are no accesses but those that serve
it, and all of them come before the next message. -/
theorem Work.serves (h : Work config entry files receiver trace answer files' receiver')
    {before after : List Operation} {operation : Operation}
    (htrace : trace = before ++ operation :: after) (haccess : operation.isAccess = true) :
    delivered before = [] ∧ Serves config entry files operation := by
  cases h with
  | failed haccesses hfails =>
    rw [← List.append_nil trace] at htrace
    exact serves_of_append haccesses (by simp) htrace haccess
  | unheard haccesses hconverts hr hfinished =>
    exact serves_of_written haccesses (by simp [Operation.isAccess]) htrace haccess
  | finished haccesses hconverts hr hfinished hr' =>
    exact serves_of_written haccesses (by simp [Operation.isAccess]) htrace haccess

/-- On the turn of an entry all accesses serve it, and come between its two
messages. -/
theorem Turn.serves (h : Turn config entry files receiver trace answer files' receiver')
    {before after : List Operation} {operation : Operation}
    (htrace : trace = before ++ operation :: after) (haccess : operation.isAccess = true) :
    delivered before = [.begun entry.id] ∧ Serves config entry files operation := by
  cases h with
  | unheard hr hbegun =>
    -- neither a report nor a message is an access
    match before with
    | [] => cases htrace; cases haccess
    | [_] => cases htrace; cases haccess
    | _ :: _ :: _ => simp at htrace
  | begun hr hbegun hwork =>
    -- nor are the first two operations here
    match before with
    | [] => cases htrace; cases haccess
    | [_] => cases htrace; cases haccess
    | first :: second :: before =>
      simp only [List.cons_append, List.cons.injEq] at htrace
      obtain ⟨rfl, rfl, htrace⟩ := htrace
      obtain ⟨hbefore, hserves⟩ := hwork.serves htrace haccess
      refine ⟨?_, hserves⟩
      show Status.begun entry.id :: delivered before = _
      rw [hbefore]

/-- The template of an entry is written before the message that the entry
is finished. -/
theorem Work.written (h : Work config entry files receiver trace answer files' receiver')
    {before after : List Operation} {status : Status}
    (htrace : trace = before ++ .send status true :: after) :
    status = .finished entry.id ∧ ∃ template, Converts config entry files template files' ∧
      .write (config.templatePath entry.id) (bytes template) true ∈ before := by
  -- nothing is received with an access
  have hserves {accesses rest : List Operation}
      (haccesses : ∀ operation ∈ accesses, Serves config entry files operation)
      (heq : accesses = before ++ .send status true :: rest) : False := by
    subst heq
    cases haccesses _ (List.mem_append_right _ List.mem_cons_self)
  cases h with
  | failed haccesses hfails => exact (hserves haccesses htrace).elim
  | unheard haccesses hconverts hr hfinished =>
    rcases cases_of_append htrace with ⟨rest, hrest⟩ | ⟨first, -, htail⟩
    · exact (hserves haccesses hrest).elim
    · -- the one message behind the accesses is not received
      match first with
      | [] => cases htail
      | [_] => cases htail
      | [_, _] => cases htail
      | [_, _, _] => cases htail
      | _ :: _ :: _ :: _ :: _ => simp at htail
  | @finished accesses template _ r r' _ haccesses hconverts hr hfinished hr' =>
    rcases cases_of_append htrace with ⟨rest, hrest⟩ | ⟨first, rfl, htail⟩
    · exact (hserves haccesses hrest).elim
    · -- the message is the fourth operation behind the accesses
      match first with
      | [] => cases htail
      | [_] => cases htail
      | [_, _] => cases htail
      | [_, _, _] =>
        cases htail
        exact ⟨rfl, template, hconverts, by simp⟩
      | [_, _, _, _] => cases htail
      | _ :: _ :: _ :: _ :: _ :: _ => simp at htail

theorem Turn.written (h : Turn config entry files receiver trace answer files' receiver')
    {before after : List Operation} {id : UInt32}
    (htrace : trace = before ++ .send (.finished id) true :: after) :
    id = entry.id ∧ ∃ template, Converts config entry files template files' ∧
      .write (config.templatePath entry.id) (bytes template) true ∈ before := by
  cases h with
  | unheard hr hbegun =>
    match before with
    | [] => cases htrace
    | [_] => simp at htrace
    | _ :: _ :: _ => simp at htrace
  | begun hr hbegun hwork =>
    match before with
    | [] => cases htrace
    | [_] =>
      -- the message here is the other one
      simp only [List.cons_append, List.nil_append, List.cons.injEq, Operation.send.injEq] at htrace
      exact (begun_ne_finished entry.id id htrace.2.1.1).elim
    | first :: second :: before =>
      simp only [List.cons_append, List.cons.injEq] at htrace
      obtain ⟨hstatus, template, hconverts, hwrite⟩ := hwork.written htrace.2.2
      refine ⟨congrArg Status.entry hstatus, template, hconverts, ?_⟩
      exact List.mem_cons_of_mem _ (List.mem_cons_of_mem _ hwrite)

/-- How a turn ends, depending on how many messages more are received. -/
inductive Hears (config : Config) (entry : Entry) (files : FileTree) :
    Option Nat → List Status → Except BatchError Unit → FileTree → Option Nat → Prop
  | nothing : Hears config entry files (some 0) [] (.error .send) files (some 0)
  | start {template : Template} {files' : FileTree}
      (hconverts : Converts config entry files template files') :
      Hears config entry files (some 1) [.begun entry.id] (.error .send) files' (some 0)
  | failure {left : Option Nat} {e : BatchError} (hleft : left ≠ some 0)
      (hfails : Fails config entry files e) :
      Hears config entry files left [.begun entry.id] (.error e) files (left.map (· - 1))
  | everything {left : Option Nat} {template : Template} {files' : FileTree}
      (hleft : left ≠ some 0) (hleft' : left ≠ some 1)
      (hconverts : Converts config entry files template files') :
      Hears config entry files left [.begun entry.id, .finished entry.id] (.ok ()) files'
        (left.map (· - 2))

theorem Turn.hears (h : Turn config entry files receiver trace answer files' receiver') :
    Hears config entry files receiver.left (delivered trace) answer files' receiver'.left := by
  cases h with
  | unheard hr hbegun =>
    rw [left_of_receive_eq_false hbegun]
    exact .nothing
  | @begun r trace _ _ receiver₁ _ hr hbegun hwork =>
    obtain ⟨hleft, hleft₁⟩ := left_of_receive hbegun
    have hdelivered : delivered (.report r :: .send (.begun entry.id) true :: trace) =
        .begun entry.id :: delivered trace := rfl
    rw [hdelivered]
    cases hwork with
    | failed haccesses hfails =>
      rw [delivered_of_serves haccesses, hleft₁]
      exact .failure hleft hfails
    | unheard haccesses hconverts hr hfinished =>
      have hnone := left_of_receive_eq_false hfinished
      rw [delivered_append, delivered_of_serves haccesses, hnone]
      -- the message before was the last one that was received
      rw [hnone] at hleft₁
      obtain ⟨n, hn, hzero⟩ := Option.map_eq_some_iff.1 hleft₁.symm
      have hone : n = 1 := by
        have hne : n ≠ 0 := fun heq => hleft (hn.trans (congrArg some heq))
        omega
      rw [hn, hone]
      exact .start hconverts
    | finished haccesses hconverts hr hfinished hr' =>
      obtain ⟨hleft', hleft₂⟩ := left_of_receive hfinished
      rw [hleft₁] at hleft' hleft₂
      rw [delivered_append, delivered_of_serves haccesses, hleft₂, Option.map_map]
      have hone : receiver.left ≠ some 1 := by
        intro hone
        rw [hone] at hleft'
        exact hleft' rfl
      exact .everything hleft hone hconverts

/-- An entry that is finished has been converted, and has taken two
messages. -/
theorem Turn.of_ok (h : Turn config entry files receiver trace (.ok ()) files' receiver') :
    (receiver.left ≠ some 0 ∧ receiver.left ≠ some 1 ∧
      receiver'.left = receiver.left.map (· - 2)) ∧
    delivered trace = [.begun entry.id, .finished entry.id] ∧
      ∃ template, Converts config entry files template files' := by
  have hhears := h.hears
  -- the cases need variables in the places of what depends on the turn
  generalize receiver.left = left, receiver'.left = left', delivered trace = messages at hhears ⊢
  cases hhears with
  | everything hleft hleft' hconverts => exact ⟨⟨hleft, hleft', rfl⟩, rfl, _, hconverts⟩

/-- An entry that is not finished has failed, or nobody has heard its first
message or its second one. -/
theorem Turn.of_error {e : BatchError}
    (h : Turn config entry files receiver trace (.error e) files' receiver') :
    (receiver.left = some 0 ∧ e = .send ∧ delivered trace = []) ∨
    (receiver.left = some 1 ∧ e = .send ∧ delivered trace = [.begun entry.id] ∧
      ∃ template, Converts config entry files template files') ∨
    (receiver.left ≠ some 0 ∧ Fails config entry files e ∧ files' = files ∧
      delivered trace = [.begun entry.id]) := by
  have hhears := h.hears
  generalize receiver.left = left, receiver'.left = left', delivered trace = messages at hhears ⊢
  cases hhears with
  | nothing => exact .inl ⟨rfl, rfl, rfl⟩
  | start hconverts => exact .inr (.inl ⟨rfl, rfl, rfl, _, hconverts⟩)
  | failure hleft hfails => exact .inr (.inr ⟨hleft, hfails, rfl, rfl⟩)

end

end Batch

end AtomProbe
