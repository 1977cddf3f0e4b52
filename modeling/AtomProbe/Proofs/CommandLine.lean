import AtomProbe.CommandLine

/-!
# `AtomProbe.Proofs.CommandLine`: asking for details asks for nothing else

The flag for more details may be put in anywhere among the arguments
(`WithFlags`). Either the arguments are refused then, or they ask for the
same as without it, but for the details (`quiet_parse`).

The proof follows the reader: it goes through the arguments in a state
that is the same, or differs in the flag alone.
-/

set_option autoImplicit false

namespace AtomProbe.CommandLine

/-- A request, but for whether it asks for details. -/
def quiet : Request → Request
  | .convert path _ => .convert path false
  | request => request

theorem cases_of_quiet {r r' : Request} (h : quiet r' = quiet r) :
    r' = r ∨ ∃ path isVerbose isVerbose',
      r = .convert path isVerbose ∧ r' = .convert path isVerbose' := by
  cases r with
  | convert path isVerbose =>
    cases r' with
    | convert path' isVerbose' =>
      injection h with hpath _
      exact .inr ⟨path, isVerbose, isVerbose', rfl, by rw [hpath]⟩
    | _ => cases h
  | _ =>
    cases r' with
    | convert path' isVerbose' => cases h
    | _ => exact .inl h

/-- Whether arguments have become others by putting in flags for more
details. -/
inductive WithFlags : List String → List String → Prop
  | nil : WithFlags [] []
  | cons (argument : String) {arguments arguments' : List String}
      (h : WithFlags arguments arguments') :
      WithFlags (argument :: arguments) (argument :: arguments')
  | flag {flag : String} {arguments arguments' : List String}
      (hflag : flag = "-v" ∨ flag = "--verbose") (h : WithFlags arguments arguments') :
      WithFlags arguments (flag :: arguments')

/-- Whether requests are the same but for the details, if both are
understood. -/
def Agree (r r' : Request) : Prop := r = .refused ∨ r' = .refused ∨ quiet r' = quiet r

/-- Whether a state is another one, or the other one with the flag. -/
def State.Near (s s' : State) : Prop := s' = s ∨ s' = { s with isVerbose := true }

/-- Whether reading an argument comes to the same, but for the flag, or is
refused in the second case. -/
inductive Next.Agree : Next → Next → Prop
  | refused (n : Next) : Agree n (.stop .refused)
  | go {s s' : State} (h : s.Near s') : Agree (.go s) (.go s')
  | stop (r : Request) : Agree (.stop r) (.stop r)

/-! ### One argument -/

namespace State.Near

variable {s s' : State} (h : s.Near s')
include h

theorem admitsOption_eq : s'.admitsOption = s.admitsOption := by
  rcases h with rfl | rfl <;> rfl

theorem awaitValue :
    ({ s with awaitsValue := true } : State).Near { s' with awaitsValue := true } := by
  rcases h with rfl | rfl
  · exact .inl rfl
  · exact .inr rfl

theorem giveValue (value : String) : (s.giveValue value).Near (s'.giveValue value) := by
  rcases h with rfl | rfl
  · exact .inl rfl
  · exact .inr rfl

theorem givePath (path : String) : (s.givePath path).Agree (s'.givePath path) := by
  have hpath : s'.path = s.path := by rcases h with rfl | rfl <;> rfl
  rw [State.givePath, State.givePath, hpath]
  cases s.path.isSome with
  | true => exact .refused _
  | false =>
    refine .go ?_
    rcases h with rfl | rfl
    · exact .inl rfl
    · exact .inr rfl

/-- The flag is refused where it has been given before. -/
theorem giveVerbose : s'.giveVerbose = none ∨ s' = s := by
  rcases h with rfl | rfl
  · exact .inr rfl
  · exact .inl (by simp [State.giveVerbose])

theorem giveVerbose_some {s₁ : State} (hverbose : s'.giveVerbose = some s₁) : s.Near s₁ := by
  rcases h.giveVerbose with hnone | rfl
  · rw [hnone] at hverbose
    cases hverbose
  · rw [State.giveVerbose] at hverbose
    cases hflag : s'.isNew || s'.isVerbose with
    | true =>
      rw [hflag] at hverbose
      cases hverbose
    | false =>
      rw [hflag] at hverbose
      cases hverbose
      exact .inr rfl

theorem finish : Agree s.finish s'.finish := by
  rcases h with rfl | rfl
  · exact .inr (.inr rfl)
  · simp only [State.finish]
    cases s.awaitsValue || s.clashes with
    | true => exact .inl rfl
    | false =>
      cases s.isNew with
      | true => exact .inr (.inr rfl)
      | false =>
        cases s.path.isNone && !s.isVerbose with
        | true => exact .inl rfl
        | false => exact .inr (.inr (by simp [quiet]))

end State.Near

/-- Letters behind a dash are read alike. Induction along the reader; once
the flag was given again, the second reader refuses. -/
theorem agree_readLetters {s s' : State} (h : s.Near s') (letters : List Char) :
    (readLetters s letters).Agree (readLetters s' letters) := by
  revert s'
  fun_induction readLetters s letters
  -- the letter of the path ends the letters, and that of the flag does not
  case case1 => exact fun h => .go h
  case case2 => exact fun h => .go h.awaitValue
  case case3 value => exact fun h => h.givePath _
  case case4 s value hempty hequals =>
    intro s' h
    rw [readLetters.eq_4 s' value hempty hequals]
    exact h.givePath _
  case case5 s letters s₁ hverbose ih =>
    intro s' h
    rw [readLetters]
    rcases h.giveVerbose with hnone | rfl
    · rw [hnone]
      exact .refused _
    · rw [hverbose]
      exact ih (.inl rfl)
  case case6 s letters hverbose =>
    intro s' h
    rw [readLetters]
    rcases h.giveVerbose with hnone | rfl
    · rw [hnone]
      exact .refused _
    · rw [hverbose]
      exact .refused _
  case case7 => exact fun h => .stop _
  case case8 letters s h₁ h₂ h₃ h₄ h₅ h₆ =>
    intro s' h
    -- no letter that is known comes first
    have hrefused : readLetters s' letters = .stop .refused := by
      fun_cases readLetters s' letters <;> first | rfl | simp_all
    rw [hrefused]
    exact .refused _

theorem agree_readWord {s s' : State} (h : s.Near s') (word : List Char) :
    (readWord s word).Agree (readWord s' word) := by
  rw [readWord, readWord]
  split
  · exact .go h.awaitValue
  · exact h.givePath _
  · rcases h.giveVerbose with hnone | rfl
    · rw [hnone]
      exact .refused _
    · cases s'.giveVerbose with
      | none => exact .refused _
      | some s => exact .go (.inl rfl)
  · exact .stop _
  · exact .refused _

theorem agree_readOption {s s' : State} (h : s.Near s') (option : List Char) :
    (readOption s option).Agree (readOption s' option) := by
  unfold readOption
  rw [h.admitsOption_eq]
  cases s.admitsOption with
  | false => exact .refused _
  | true =>
    simp only [Bool.not_true, Bool.false_eq_true, if_false]
    split
    · exact agree_readWord h _
    · exact agree_readLetters h _

/-! ### All arguments -/

/-- The flag is an option without a value. -/
theorem exists_readOption_flag {flag : String} (hflag : flag = "-v" ∨ flag = "--verbose") :
    ∃ c cs, flag.toList = '-' :: c :: cs ∧ ∀ s : State, readOption s (c :: cs) =
      if s.admitsOption then ((s.giveVerbose).map .go).getD (.stop .refused)
      else .stop .refused := by
  rcases hflag with rfl | rfl
  · refine ⟨'v', [], by decide, fun s => ?_⟩
    cases hadmits : s.admitsOption with
    | false => simp [readOption, hadmits]
    | true => cases hverbose : s.giveVerbose <;> simp [readOption, hadmits, readLetters, hverbose]
  · refine ⟨'-', "verbose".toList, by decide, fun s => ?_⟩
    cases hadmits : s.admitsOption with
    | false => simp [readOption, hadmits]
    | true => simp [readOption, hadmits, readWord]

/-- An argument that begins with a dash and more is read as an option. -/
theorem read_option {argument : String} {c : Char} {cs : List Char}
    (hargument : argument.toList = '-' :: c :: cs) (hdashes : argument ≠ "--") (s : State)
    (arguments : List String) :
    read s (argument :: arguments) =
      match readOption s (c :: cs) with
      | .go s => read s arguments
      | .stop request => request := by
  have hnew : (argument == "new") = false := by
    refine beq_false_of_ne ?_
    rintro rfl
    cases hargument
  have hhelp : (argument == "help") = false := by
    refine beq_false_of_ne ?_
    rintro rfl
    cases hargument
  rw [read, hnew, hhelp]
  cases hnext : readOption s (c :: cs) <;>
    simp only [Bool.and_false, Bool.false_eq_true, if_false, if_neg hdashes, hargument, hnext]

theorem read_flag {flag : String} (hflag : flag = "-v" ∨ flag = "--verbose") (s : State)
    (arguments : List String) :
    read s (flag :: arguments) =
      match s.admitsOption, s.giveVerbose with
      | true, some s => read s arguments
      | _, _ => .refused := by
  obtain ⟨c, cs, hlist, hoption⟩ := exists_readOption_flag hflag
  have hdashes : flag ≠ "--" := by rcases hflag with rfl | rfl <;> decide
  rw [read_option hlist hdashes, hoption]
  cases s.admitsOption with
  | false => rfl
  | true => cases s.giveVerbose <;> rfl

/-- What help can be asked for on has no flags. -/
theorem eq_of_isHelpTopic {topics topics' : List String} (h : WithFlags topics topics')
    (htopic : isHelpTopic topics' = true) : topics = topics' := by
  have hflag {name : String} {names : List String} (hname : name ≠ "-v" ∧ name ≠ "--verbose")
      (h : WithFlags names [name]) : names = [name] := by
    cases h with
    | cons argument h =>
      cases h
      rfl
    | flag hflag h => exact (hflag.elim hname.1 hname.2).elim
  rw [isHelpTopic, List.contains_iff_mem] at htopic
  simp only [List.mem_cons, List.not_mem_nil, or_false] at htopic
  rcases htopic with rfl | rfl | rfl
  · cases h
    rfl
  · exact hflag (by decide) h
  · exact hflag (by decide) h

/-- What comes of the arguments behind the subcommand. -/
def behindNew (clashes : Bool) : Request → Request
  | .create path => if clashes then .refused else .create path
  | request => request

theorem Agree.behindNew {r r' : Request} (h : Agree r r') (clashes : Bool) :
    Agree (behindNew clashes r) (CommandLine.behindNew clashes r') := by
  rcases h with rfl | rfl | hquiet
  · exact .inl rfl
  · exact .inr (.inl rfl)
  · rcases cases_of_quiet hquiet with rfl | ⟨path, isVerbose, isVerbose', rfl, rfl⟩
    · exact .inr (.inr rfl)
    · exact .inr (.inr rfl)

/-- Arguments with flags put in ask for the same, if they are understood.
Induction on the arguments, along the reader. -/
theorem agree_read {arguments arguments' : List String} (h : WithFlags arguments arguments')
    {s s' : State} (hs : s.Near s') : Agree (read s arguments) (read s' arguments') := by
  induction h generalizing s s' with
  | nil => exact hs.finish
  | @flag flag arguments arguments' hflag h ih =>
    -- only the second reader meets the flag, and may refuse it
    rw [read_flag hflag]
    cases s'.admitsOption with
    | false => exact .inr (.inl rfl)
    | true =>
      cases hverbose : s'.giveVerbose with
      | none => exact .inr (.inl rfl)
      | some s₁ => exact ih (hs.giveVerbose_some hverbose)
  | @cons argument arguments arguments' h ih =>
    -- the states agree in all that decides what the argument is
    have hawaits : s'.awaitsValue = s.awaitsValue := by rcases hs with rfl | rfl <;> rfl
    have hnew : s'.isNew = s.isNew := by rcases hs with rfl | rfl <;> rfl
    have hclashes : s'.clashes = s.clashes := by rcases hs with rfl | rfl <;> rfl
    have hbehind : (⟨true, s.path, none, s.isVerbose, false, false⟩ : State).Near
        ⟨true, s'.path, none, s'.isVerbose, false, false⟩ := by
      rcases hs with rfl | rfl
      · exact .inl rfl
      · exact .inr rfl
    rw [read, read, hawaits, hnew, hclashes]
    split
    · show Agree (behindNew s.clashes (read _ arguments)) (behindNew s.clashes (read _ arguments'))
      exact (ih hbehind).behindNew s.clashes
    · split
      · -- no flag may follow where help is asked for
        cases htopic : isHelpTopic arguments' with
        | false => exact .inr (.inl rfl)
        | true =>
          rw [eq_of_isHelpTopic h htopic, htopic]
          exact .inr (.inr rfl)
      · split
        · -- nothing at all may follow two dashes
          cases h with
          | nil => exact hs.finish
          | cons => exact .inr (.inl rfl)
          | flag => exact .inr (.inl rfl)
        · split
          · next c cs _ =>
            -- an option is read alike, or refused
            have hoption := agree_readOption hs (c :: cs)
            generalize readOption s (c :: cs) = next, readOption s' (c :: cs) = next' at hoption ⊢
            cases hoption with
            | refused => exact .inr (.inl rfl)
            | go hnear => exact ih hnear
            | stop request => exact .inr (.inr rfl)
          · cases s.awaitsValue with
            | false => exact .inl rfl
            | true => exact ih (hs.giveValue argument)

/-- The flag for more details changes nothing but the details. -/
theorem quiet_parse {arguments arguments' : List String} (h : WithFlags arguments arguments')
    (hrefused : parse arguments ≠ .refused) (hrefused' : parse arguments' ≠ .refused) :
    quiet (parse arguments') = quiet (parse arguments) :=
  ((agree_read h (.inl rfl)).resolve_left hrefused).resolve_left hrefused'

end AtomProbe.CommandLine
