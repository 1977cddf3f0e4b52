import AtomProbe.Proofs.CommandLine
import AtomProbe.Proofs.CommandLine.Grammar

/-!
# `AtomProbe.Proofs.CommandLine.Reading`: the reader follows the grammar

The arguments that the reader understands are those of the grammar, and
they ask for what it says (`asks_iff`).

* `Options.read_append`: options of which each is given once are read.
* `exists_options`: arguments that are understood begin with options, up
  to their end or the subcommand. An option takes one argument or two, so
  the induction is on their number. What may follow in a state in which
  the path was given twice, or a value is lacking, is settled before.
-/

set_option autoImplicit false

namespace AtomProbe.CommandLine

/-! ### Options with their values -/

/-- An argument that can be a value does not begin with a dash and more. -/
theorem isValue_iff {argument : String} :
    IsValue argument ↔ ∀ c cs, argument.toList ≠ '-' :: c :: cs := by
  rw [IsValue]
  constructor
  · rintro (rfl | hhead) c cs heq
    · cases heq
    · exact hhead (congrArg List.head? heq)
  · intro h
    by_cases hhead : argument.toList.head? = some '-'
    · obtain ⟨rest, hlist⟩ := List.head?_eq_some_iff.1 hhead
      cases rest with
      | nil => exact .inl (String.toList_inj.1 hlist)
      | cons c cs => exact (h c cs hlist).elim
    · exact .inr hhead

section
variable {s : State} (hawaits : s.awaitsValue = true) {argument : String}
include hawaits

theorem read_of_isValue (hvalue : IsValue argument) (arguments : List String) :
    read s (argument :: arguments) = read (s.giveValue argument) arguments := by
  have hdashes : argument ≠ "--" := by
    rintro rfl
    exact isValue_iff.1 hvalue '-' [] rfl
  rw [read]
  simp only [hawaits, Bool.not_true, Bool.false_and, Bool.false_eq_true, if_false, if_neg hdashes]
  split
  · next c cs hlist => exact (isValue_iff.1 hvalue c cs hlist).elim
  · exact if_pos trivial

/-- An option does not take another one for its value. -/
theorem read_of_not_isValue (hvalue : ¬ IsValue argument) (arguments : List String) :
    read s (argument :: arguments) = .refused := by
  obtain ⟨c, cs, hlist⟩ : ∃ c cs, argument.toList = '-' :: c :: cs := by
    simpa [isValue_iff] using hvalue
  have hfinish : s.finish = .refused := by rw [State.finish, hawaits]; rfl
  have hoption : readOption s (c :: cs) = .stop .refused := by
    unfold readOption
    rw [State.admitsOption, hawaits]
    rfl
  by_cases hdashes : argument = "--"
  · subst hdashes
    rw [read]
    simp only [hawaits, Bool.not_true, Bool.false_and, Bool.false_eq_true, if_false, if_true,
      hfinish]
    exact ite_self _
  · rw [read_option hlist hdashes, hoption]

end

/-- Options that are given once are read. -/
theorem Options.read_append {options : List String} {settings : List Setting}
    (h : Options options settings) {s s' : State} (hadmits : s.admitsOption = true)
    (hgive : s.giveAll? settings = some s') (arguments : List String) :
    read s (options ++ arguments) = read s' arguments := by
  induction h generalizing s with
  | nil =>
    cases hgive
    rfl
  | cons hsets hlater ih =>
    rw [State.giveAll?_append] at hgive
    obtain ⟨s₁, hfirst, hgive⟩ := Option.bind_eq_some_iff.1 hgive
    obtain ⟨hdashes, c, cs, hlist⟩ := hsets.exists_toList
    rw [List.cons_append, read_option hlist hdashes, hsets.readOption_eq hlist hadmits hfirst]
    exact ih ((State.admitsOption_of_giveAll? hfirst).1.trans hadmits) hgive
  | value hsets hvalue hlater ih =>
    rw [State.giveAll?_append] at hgive
    obtain ⟨s₁, hfirst, hgive⟩ := Option.bind_eq_some_iff.1 hgive
    rw [State.giveAll?_cons] at hgive
    obtain ⟨s₂, hpath, hgive⟩ := Option.bind_eq_some_iff.1 hgive
    obtain ⟨hdashes, c, cs, hlist⟩ := hsets.exists_toList
    have hadmits₁ : s₁.admitsOption = true :=
      (State.admitsOption_of_giveAll? hfirst).1.trans hadmits
    have hadmits₂ : s₂.admitsOption = true := by
      rw [← State.giveAll?_singleton] at hpath
      exact (State.admitsOption_of_giveAll? hpath).1.trans hadmits₁
    rw [List.cons_append, List.cons_append, read_option hlist hdashes,
      hsets.readOption_eq hlist hadmits hfirst]
    show read (s₁.awaiting true) _ = _
    rw [read_of_isValue rfl hvalue, State.giveValue_awaiting hadmits₁ hpath]
    exact ih hadmits₂ hgive

/-! ### What is not understood -/

/-- Reading an argument only ends where it is not understood, or asks for
help. -/
theorem readLetters_stop {s : State} {letters : List Char} {request : Request}
    (h : readLetters s letters = .stop request) : request = .refused ∨ request = .help := by
  have hpath {s : State} {value : String} (h : s.givePath value = .stop request) :
      request = .refused := by
    rw [State.givePath] at h
    split at h <;> cases h
    rfl
  fun_induction readLetters s letters with
  | case1 | case2 => cases h
  | case3 | case4 => exact .inl (hpath h)
  | case5 s letters s₁ hverbose ih => exact ih h
  | case6 | case8 => exact .inl (Next.stop.inj h).symm
  | case7 => exact .inr (Next.stop.inj h).symm

theorem readWord_stop {s : State} {word : List Char} {request : Request}
    (h : readWord s word = .stop request) : request = .refused ∨ request = .help := by
  unfold readWord at h
  dsimp only at h
  split at h
  · cases h
  · rw [State.givePath] at h
    split at h <;> cases h
    exact .inl rfl
  · cases hverbose : s.giveVerbose with
    | none =>
      rw [hverbose] at h
      exact .inl (Next.stop.inj h).symm
    | some s₁ =>
      rw [hverbose] at h
      cases h
  · exact .inr (Next.stop.inj h).symm
  · exact .inl (Next.stop.inj h).symm

theorem readOption_stop {s : State} {option : List Char} {request : Request}
    (h : readOption s option = .stop request) : request = .refused ∨ request = .help := by
  unfold readOption at h
  split at h
  · exact .inl (Next.stop.inj h).symm
  · split at h
    · exact readWord_stop h
    · exact readLetters_stop h

theorem admitsOption_of_readOption {s s' : State} {option : List Char}
    (h : readOption s option = .go s') : s.admitsOption = true := by
  unfold readOption at h
  cases hadmits : s.admitsOption with
  | true => rfl
  | false =>
    rw [hadmits] at h
    cases h

/-- A reader that has found the subcommand converts nothing. -/
theorem read_ne_convert {s : State} (hnew : s.isNew = true) (arguments : List String)
    (path : Option String) (isVerbose : Bool) : read s arguments ≠ .convert path isVerbose := by
  have hfinish {s : State} (hnew : s.isNew = true) : s.finish ≠ .convert path isVerbose := by
    rw [State.finish, hnew]
    split <;> simp
  fun_induction read s arguments with
  | case1 | case7 => exact hfinish hnew
  | case2 | case3 | case5 | case6 | case8 | case12 => simp
  | case4 s argument arguments hargument hcreate ih => exact ih rfl
  | case9 s argument arguments _ _ _ c cs _ s₁ hnext ih =>
    -- options do not lead out of the subcommand
    have hadmits := admitsOption_of_readOption hnext
    obtain ⟨_, lacksValue, s₂, -, hgive, rfl⟩ := exists_says hadmits hnext
    refine ih ?_
    rw [State.isNew_awaiting, (State.admitsOption_of_giveAll? hgive).2, hnew]
  | case10 s argument arguments _ _ _ c cs _ request hnext =>
    rcases readOption_stop hnext with rfl | rfl <;> simp
  | case11 s argument arguments _ _ _ _ _ ih => exact ih hnew

/-- Arguments are not understood any more once the path was given twice. -/
theorem read_of_clashes {s : State} (hclashes : s.clashes = true) (hawaits : s.awaitsValue = false)
    (arguments : List String) : read s arguments = .refused ∨ read s arguments = .help := by
  have hfinish : s.finish = .refused := by
    rw [State.finish, hclashes, Bool.or_true]
    rfl
  cases arguments with
  | nil => exact .inl hfinish
  | cons argument arguments =>
    unfold read
    split
    · -- behind the subcommand nothing is converted
      cases hread : read ⟨true, s.path, none, s.isVerbose, false, false⟩ arguments with
      | refused => exact .inl rfl
      | help => exact .inr rfl
      | create path => exact .inl rfl
      | convert path isVerbose => exact (read_ne_convert rfl _ _ _ hread).elim
    · split
      · split
        · exact .inr rfl
        · exact .inl rfl
      · split
        · rw [hfinish, ite_self]
          exact .inl rfl
        · split
          · next c cs _ =>
            have hoption : readOption s (c :: cs) = .stop .refused := by
              unfold readOption
              rw [State.admitsOption, hclashes, Bool.not_true, Bool.and_false]
              rfl
            rw [hoption]
            exact .inl rfl
          · rw [hawaits]
            exact .inl rfl

/-! ### All arguments -/

/-- An argument that begins with a dash and more is an option, if it is
understood, which may take the next argument with it. -/
theorem exists_option {s : State} (hadmits : s.admitsOption = true) {argument : String} {c : Char}
    {cs : List Char} (hargument : argument.toList = '-' :: c :: cs) (hdashes : argument ≠ "--")
    {arguments : List String} (hrefused : read s (argument :: arguments) ≠ .refused)
    (hhelp : read s (argument :: arguments) ≠ .help) :
    ∃ option rest settings s', argument :: arguments = option ++ rest ∧ option ≠ [] ∧
      Options option settings ∧ s.giveAll? settings = some s' ∧
      read s' rest = read s (argument :: arguments) := by
  rw [read_option hargument hdashes] at hrefused hhelp ⊢
  cases hnext : readOption s (c :: cs) with
  | stop request =>
    rw [hnext] at hrefused hhelp
    rcases readOption_stop hnext with rfl | rfl
    · exact (hrefused rfl).elim
    · exact (hhelp rfl).elim
  | go s₁ =>
    rw [hnext] at hrefused hhelp
    obtain ⟨settings, lacksValue, s₂, hsets, hgive, rfl⟩ := exists_says hadmits hnext
    rw [← hargument, String.ofList_toList] at hsets
    have hadmits₂ := (State.admitsOption_of_giveAll? hgive).1.trans hadmits
    cases lacksValue with
    | false =>
      refine ⟨[argument], arguments, settings, s₂, rfl, List.cons_ne_nil _ _, ?_, hgive, rfl⟩
      simpa using Options.cons hsets .nil
    | true =>
      cases arguments with
      | nil => exact (hrefused rfl).elim
      | cons value arguments =>
        dsimp only at hrefused hhelp ⊢
        by_cases hvalue : IsValue value
        · rw [read_of_isValue rfl hvalue] at hrefused hhelp ⊢
          cases hpath : s₂.give? (.path value) with
          | none =>
            have hclashes := State.clashes_giveValue_awaiting hpath
            rcases read_of_clashes hclashes rfl arguments with h | h
            · exact (hrefused h).elim
            · exact (hhelp h).elim
          | some s₃ =>
            rw [State.giveValue_awaiting hadmits₂ hpath]
            refine ⟨[argument, value], arguments, settings ++ [.path value], s₃, rfl,
              List.cons_ne_nil _ _, .value hsets hvalue .nil, ?_, rfl⟩
            rw [State.giveAll?_append, hgive, Option.bind_some, State.giveAll?_singleton, hpath]
        · exact (hrefused (read_of_not_isValue rfl hvalue arguments)).elim

/-- Nothing may stand behind two dashes. -/
theorem eq_nil_of_read_dashes {s : State} {arguments : List String}
    (hrefused : read s ("--" :: arguments) ≠ .refused) : arguments = [] := by
  cases arguments with
  | nil => rfl
  | cons argument arguments =>
    refine (hrefused ?_).elim
    unfold read
    simp

/-- Any other argument is the subcommand, if it is understood. -/
theorem eq_new_of_read {s : State} (hadmits : s.admitsOption = true) {argument : String}
    (hargument : ∀ c cs, argument.toList ≠ '-' :: c :: cs) {arguments : List String}
    (hrefused : read s (argument :: arguments) ≠ .refused)
    (hhelp : read s (argument :: arguments) ≠ .help) : s.isNew = false ∧ argument = "new" := by
  rw [State.admitsOption, Bool.and_eq_true, Bool.not_eq_true', Bool.not_eq_true'] at hadmits
  unfold read at hrefused hhelp
  by_cases hnew : (!s.awaitsValue && !s.isNew && argument == "new") = true
  · simpa [hadmits] using hnew
  · exfalso
    rw [if_neg hnew] at hrefused hhelp
    split at hrefused
    · next htopic =>
      rw [if_pos htopic] at hhelp
      split at hrefused
      · next hknown => exact hhelp (if_pos hknown)
      · exact hrefused rfl
    · split at hrefused
      · next hdashes => exact hargument '-' [] (hdashes ▸ rfl)
      · split at hrefused
        · next c cs hlist => exact hargument c cs hlist
        · rw [hadmits.1] at hrefused
          exact hrefused rfl

/-- Arguments that are understood begin with options, up to their end or
the subcommand. Induction on the number of arguments. -/
theorem exists_options {s : State} (hadmits : s.admitsOption = true) {arguments : List String}
    (hrefused : read s arguments ≠ .refused) (hhelp : read s arguments ≠ .help) :
    ∃ options rest settings s', arguments = options ++ rest ∧ Options options settings ∧
      s.giveAll? settings = some s' ∧ read s' rest = read s arguments ∧
      (IsEnding rest ∨ s.isNew = false ∧ ∃ inner, rest = "new" :: inner) := by
  induction hlength : arguments.length using Nat.strongRecOn generalizing s arguments with
  | ind n ih =>
    cases arguments with
    | nil => exact ⟨[], [], [], s, rfl, .nil, rfl, rfl, .inl .nothing⟩
    | cons argument arguments =>
      by_cases hdashes : argument = "--"
      · subst hdashes
        obtain rfl := eq_nil_of_read_dashes hrefused
        exact ⟨[], ["--"], [], s, rfl, .nil, rfl, rfl, .inl .dashes⟩
      by_cases hlist : ∃ c cs, argument.toList = '-' :: c :: cs
      · obtain ⟨c, cs, hlist⟩ := hlist
        obtain ⟨option, rest, settings, s₁, heq, hne, hoption, hgive, hread⟩ :=
          exists_option hadmits hlist hdashes hrefused hhelp
        rw [← hread] at hrefused hhelp
        -- fewer arguments are left behind the option
        have hless : rest.length < n := by
          have hpos := List.length_pos_iff.2 hne
          rw [← hlength, heq, List.length_append]
          omega
        obtain ⟨hadmits₁, hnew⟩ := State.admitsOption_of_giveAll? hgive
        obtain ⟨options, rest, later, s₂, rfl, hoptions, hgive₂, hread₂, hrest⟩ :=
          ih _ hless (hadmits₁.trans hadmits) hrefused hhelp rfl
        refine ⟨option ++ options, rest, settings ++ later, s₂, ?_, hoption.append hoptions, ?_,
          hread₂.trans hread, hnew ▸ hrest⟩
        · rw [heq, List.append_assoc]
        · rw [State.giveAll?_append, hgive]
          exact hgive₂
      · have hargument : ∀ c cs, argument.toList ≠ '-' :: c :: cs := fun c cs heq =>
          hlist ⟨c, cs, heq⟩
        obtain ⟨hnew, rfl⟩ := eq_new_of_read hadmits hargument hrefused hhelp
        exact ⟨[], "new" :: arguments, [], s, rfl, .nil, rfl, rfl, .inr ⟨hnew, arguments, rfl⟩⟩

/-! ### What arguments ask for -/

theorem IsEnding.read_eq {ending : List String} (h : IsEnding ending) (s : State) :
    read s ending = s.finish := by
  cases h with
  | nothing => rfl
  | dashes =>
    unfold read
    simp

/-- Behind the subcommand the arguments are read with a new path. -/
theorem read_new {s : State} (hadmits : s.admitsOption = true) (hnew : s.isNew = false)
    (arguments : List String) :
    read s ("new" :: arguments) =
      read ⟨true, s.path, none, s.isVerbose, false, false⟩ arguments := by
  rw [State.admitsOption, Bool.and_eq_true, Bool.not_eq_true', Bool.not_eq_true'] at hadmits
  rw [read, hadmits.1, hadmits.2, hnew]
  cases read ⟨true, s.path, none, s.isVerbose, false, false⟩ arguments <;> rfl

/-- Nothing is set exactly if there is neither a path nor the flag. -/
theorem Once.eq_nil_iff {settings : List Setting} {path : Option String} {isVerbose : Bool}
    (h : Once settings path isVerbose) : settings = [] ↔ path = none ∧ isVerbose = false := by
  obtain ⟨hpath, hverbose⟩ := h
  cases settings with
  | nil =>
    exact iff_of_true rfl
      ⟨Option.toList_eq_nil_iff.1 hpath.symm, Bool.toNat_eq_zero.1 hverbose.symm⟩
  | cons setting settings =>
    refine iff_of_false (List.cons_ne_nil _ _) ?_
    rintro ⟨rfl, rfl⟩
    cases setting with
    | path value => cases hpath
    | verbose =>
      rw [List.count_cons_self] at hverbose
      cases hverbose

theorem Once.finish_eq {settings : List Setting} {path : Option String} {isVerbose : Bool}
    (h : Once settings path isVerbose) :
    ({ State.start with path := path, isVerbose := isVerbose } : State).finish =
      if settings = [] then .refused else .convert path isVerbose := by
  simp only [h.eq_nil_iff]
  cases path <;> cases isVerbose <;> rfl

/-- What is asked for is read. -/
theorem parse_of_asks {arguments : List String} {request : Request} (h : Asks arguments request) :
    parse arguments = request := by
  cases h with
  | @convert options ending settings path isVerbose hoptions hending hsome honce =>
    have hgive : State.start.giveAll? settings =
        some { State.start with path := path, isVerbose := isVerbose } :=
      State.giveAll?_eq_some_iff.2 ⟨path, isVerbose, rfl, honce.path,
        (Nat.zero_add _).trans honce.isVerbose, nofun⟩
    rw [parse, hoptions.read_append rfl hgive, hending.read_eq, honce.finish_eq]
    exact if_neg hsome
  | @create outer inner ending _ _ outerPath innerPath isVerbose houter houterOnce hinner hinnerOnce
      hending =>
    have hgive : State.start.giveAll? _ =
        some { State.start with path := outerPath, isVerbose := isVerbose } :=
      State.giveAll?_eq_some_iff.2 ⟨outerPath, isVerbose, rfl, houterOnce.path,
        (Nat.zero_add _).trans houterOnce.isVerbose, nofun⟩
    rw [parse, houter.read_append rfl hgive, read_new rfl rfl]
    have hgive' : State.giveAll? ⟨true, outerPath, none, isVerbose, false, false⟩ _ =
        some ⟨true, outerPath, innerPath, isVerbose, false, false⟩ :=
      State.giveAll?_eq_some_iff.2 ⟨innerPath, isVerbose, rfl, hinnerOnce.path, by
        rw [hinnerOnce.isVerbose]; rfl, fun _ => List.count_eq_zero.1 hinnerOnce.isVerbose⟩
    exact (hinner.read_append rfl hgive' ending).trans (hending.read_eq _)

/-- What is read is asked for, if it is understood. -/
theorem asks_of_parse {arguments : List String} (hrefused : parse arguments ≠ .refused)
    (hhelp : parse arguments ≠ .help) : Asks arguments (parse arguments) := by
  rw [parse] at hrefused hhelp ⊢
  obtain ⟨options, rest, settings, s, rfl, hoptions, hgive, hread, hrest⟩ :=
    exists_options rfl hrefused hhelp
  obtain ⟨path, isVerbose, rfl, hpath, hverbose, -⟩ := State.giveAll?_eq_some_iff.1 hgive
  have honce : Once settings path isVerbose := ⟨hpath, (Nat.zero_add _).symm.trans hverbose⟩
  rw [← hread] at hrefused hhelp ⊢
  rcases hrest with hending | ⟨-, inner, rfl⟩
  · rw [hending.read_eq, honce.finish_eq] at hrefused ⊢
    by_cases hsome : settings = []
    · rw [if_pos hsome] at hrefused
      exact (hrefused rfl).elim
    · rw [if_neg hsome]
      exact .convert hoptions hending hsome honce
  · rw [read_new rfl rfl] at hrefused hhelp ⊢
    obtain ⟨options', rest, settings', s', rfl, hoptions', hgive', hread', hrest⟩ :=
      exists_options rfl hrefused hhelp
    obtain ⟨path', isVerbose', rfl, hpath', hverbose', hflag⟩ :=
      State.giveAll?_eq_some_iff.1 hgive'
    -- the subcommand is not found again behind it
    have hending : IsEnding rest := by
      rcases hrest with hending | ⟨hnew, -⟩
      · exact hending
      · cases hnew
    rw [← hread', hending.read_eq]
    exact .create hoptions honce hoptions' ⟨hpath', List.count_eq_zero.2 (hflag rfl)⟩ hending

/-- The arguments that are understood are those that the grammar has, and
they ask for what it says. -/
theorem asks_iff {arguments : List String} {request : Request} :
    Asks arguments request ↔
      parse arguments = request ∧ request ≠ .refused ∧ request ≠ .help := by
  constructor
  · intro h
    refine ⟨parse_of_asks h, ?_⟩
    cases h <;> exact ⟨nofun, nofun⟩
  · rintro ⟨rfl, hrefused, hhelp⟩
    exact asks_of_parse hrefused hhelp

/-- The path behind the subcommand counts before the one in front of it. -/
example : Asks ["-vp", "a", "new", "--path=b"] (.create (some "b")) :=
  asks_iff.2 ⟨by decide, nofun, nofun⟩

end AtomProbe.CommandLine
