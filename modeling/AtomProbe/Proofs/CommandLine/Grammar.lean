import AtomProbe.CommandLine

/-!
# `AtomProbe.Proofs.CommandLine.Grammar`: what arguments ask for

`Asks` says which arguments are understood and what they ask for, without
the reader: options of which each is given once, and perhaps the subcommand
with options of its own.

Between two arguments all that the reader knows is what the options before
have set (`State.giveAll?`). So it is compared with the grammar argument by
argument. What one argument sets is read, if nothing is set twice
(`Says.readOption_eq`), and what is read is set by an argument of the
grammar (`exists_says`).
-/

set_option autoImplicit false

namespace AtomProbe.CommandLine

/-! ### The grammar -/

/-- What an option sets. -/
inductive Setting
  | path (value : String)
  | verbose
  deriving DecidableEq

/-- The path that is set. -/
def Setting.path? : Setting → Option String
  | .path value => some value
  | .verbose => none

/-- Whether letters behind a dash set this, and whether the last of them
still lacks its value. Only the letter of the path has one, which begins
right behind the letter, or behind an equals sign. -/
inductive Letters : List Char → List Setting → Bool → Prop
  | verbose : Letters ['v'] [.verbose] false
  | cons {letters : List Char} {settings : List Setting} {lacksValue : Bool}
      (h : Letters letters settings lacksValue) :
      Letters ('v' :: letters) (.verbose :: settings) lacksValue
  | path : Letters ['p'] [] true
  | pathEquals (value : List Char) :
      Letters ('p' :: '=' :: value) [.path (String.ofList value)] false
  | pathValue {c : Char} (value : List Char) (hc : c ≠ '=') :
      Letters ('p' :: c :: value) [.path (String.ofList (c :: value))] false

/-- Whether an argument sets this, and whether its last option still lacks
its value. -/
inductive Says : String → List Setting → Bool → Prop
  | letters {letters : List Char} {settings : List Setting} {lacksValue : Bool}
      (h : Letters letters settings lacksValue) :
      Says (String.ofList ('-' :: letters)) settings lacksValue
  | verbose : Says "--verbose" [.verbose] false
  | path : Says "--path" [] true
  | pathEquals (value : String) : Says ("--path=" ++ value) [.path value] false

/-- Whether an argument can be the value of the option before: it is a
single dash, or does not begin with one. -/
def IsValue (argument : String) : Prop := argument = "-" ∨ argument.toList.head? ≠ some '-'

/-- Whether arguments are options that set this in order. -/
inductive Options : List String → List Setting → Prop
  | nil : Options [] []
  | cons {argument : String} {arguments : List String} {settings later : List Setting}
      (hsets : Says argument settings false) (hlater : Options arguments later) :
      Options (argument :: arguments) (settings ++ later)
  | value {argument value : String} {arguments : List String} {settings later : List Setting}
      (hsets : Says argument settings true) (hvalue : IsValue value)
      (hlater : Options arguments later) :
      Options (argument :: value :: arguments) (settings ++ .path value :: later)

/-- What may stand behind the last option. -/
inductive IsEnding : List String → Prop
  | nothing : IsEnding []
  | dashes : IsEnding ["--"]

/-- Whether the path is set at most once, and then to this, and so is the
flag. -/
structure Once (settings : List Setting) (path : Option String) (isVerbose : Bool) : Prop where
  path : settings.filterMap Setting.path? = path.toList
  isVerbose : settings.count .verbose = isVerbose.toNat

/-- Whether arguments are understood, and ask for this. Without the
subcommand something must be set. Behind it the flag is not understood,
and the path counts before the one in front of it. -/
inductive Asks : List String → Request → Prop
  | convert {options ending : List String} {settings : List Setting} {path : Option String}
      {isVerbose : Bool} (hoptions : Options options settings) (hending : IsEnding ending)
      (hsome : settings ≠ []) (honce : Once settings path isVerbose) :
      Asks (options ++ ending) (.convert path isVerbose)
  | create {outer inner ending : List String} {outerSettings innerSettings : List Setting}
      {outerPath innerPath : Option String} {isVerbose : Bool}
      (houter : Options outer outerSettings) (houterOnce : Once outerSettings outerPath isVerbose)
      (hinner : Options inner innerSettings) (hinnerOnce : Once innerSettings innerPath false)
      (hending : IsEnding ending) :
      Asks (outer ++ "new" :: (inner ++ ending)) (.create (innerPath.or outerPath))

theorem Options.append {options more : List String} {settings later : List Setting}
    (h : Options options settings) (hmore : Options more later) :
    Options (options ++ more) (settings ++ later) := by
  induction h with
  | nil => exact hmore
  | cons hsets _ ih =>
    rw [List.append_assoc]
    exact .cons hsets ih
  | value hsets hvalue _ ih =>
    rw [List.append_assoc, List.cons_append]
    exact .value hsets hvalue ih

/-! ### What the reader knows -/

namespace State

/-- The state once something is set, if it was not set before and may be. -/
def give? (s : State) : Setting → Option State
  | .path value => if s.path.isSome then none else some { s with path := some value }
  | .verbose => s.giveVerbose

/-- The state once all of this is set in order. -/
def giveAll? (s : State) (settings : List Setting) : Option State := settings.foldlM give? s

theorem giveAll?_cons (s : State) (setting : Setting) (later : List Setting) :
    s.giveAll? (setting :: later) = (s.give? setting).bind (·.giveAll? later) :=
  List.foldlM_cons

theorem giveAll?_append (s : State) (settings later : List Setting) :
    s.giveAll? (settings ++ later) = (s.giveAll? settings).bind (·.giveAll? later) :=
  List.foldlM_append

theorem giveAll?_singleton (s : State) (setting : Setting) :
    s.giveAll? [setting] = s.give? setting := by
  rw [giveAll?_cons]
  cases s.give? setting <;> rfl

theorem givePath_eq_go_iff {s s' : State} {value : String} :
    s.givePath value = .go s' ↔ s.giveAll? [.path value] = some s' := by
  rw [givePath, giveAll?_singleton, give?]
  cases s.path.isSome <;> simp

/-- Setting all of this sets neither the path nor the flag twice, and
changes nothing else. -/
theorem giveAll?_eq_some_iff {s s' : State} {settings : List Setting} :
    s.giveAll? settings = some s' ↔ ∃ path isVerbose,
      s' = { s with path := path, isVerbose := isVerbose } ∧
      s.path.toList ++ settings.filterMap Setting.path? = path.toList ∧
      s.isVerbose.toNat + settings.count .verbose = isVerbose.toNat ∧
      (s.isNew = true → .verbose ∉ settings) := by
  induction settings generalizing s with
  | nil =>
    have hnil : s.giveAll? [] = some s := rfl
    rw [hnil, Option.some_inj]
    constructor
    · rintro rfl
      exact ⟨s.path, s.isVerbose, rfl, List.append_nil _, rfl, fun _ => List.not_mem_nil⟩
    · rintro ⟨path, isVerbose, rfl, hpath, hverbose, -⟩
      obtain ⟨isNew, outerPath, path', isVerbose', awaitsValue, clashes⟩ := s
      obtain rfl : path' = path := by cases path' <;> cases path <;> simp_all
      obtain rfl : isVerbose' = isVerbose := by cases isVerbose' <;> cases isVerbose <;> simp_all
      rfl
  | cons setting settings ih =>
    rw [giveAll?_cons]
    cases setting with
    | path value =>
      cases hpath : s.path with
      | none =>
        have hgive : s.give? (.path value) = some { s with path := some value } := by
          rw [give?, hpath]
          rfl
        rw [hgive, Option.bind_some, ih]
        simp [Setting.path?]
      | some old =>
        have hgive : s.give? (.path value) = none := by
          rw [give?, hpath]
          rfl
        rw [hgive, Option.bind_none]
        refine ⟨nofun, ?_⟩
        rintro ⟨path, -, -, htwice, -⟩
        -- there is one path at most
        have hle := path.length_toList_le
        rw [← htwice] at hle
        simp [Setting.path?] at hle
    | verbose =>
      cases hverbose : s.isNew || s.isVerbose with
      | false =>
        have hgive : s.give? .verbose = some { s with isVerbose := true } := by
          rw [give?, giveVerbose, hverbose]
          rfl
        have hpaths : (Setting.verbose :: settings).filterMap Setting.path? =
            settings.filterMap Setting.path? := rfl
        rw [Bool.or_eq_false_iff] at hverbose
        rw [hgive, Option.bind_some, ih, hpaths]
        simp [hverbose, Nat.add_comm]
      | true =>
        have hgive : s.give? .verbose = none := by
          rw [give?, giveVerbose, hverbose]
          rfl
        rw [hgive, Option.bind_none]
        refine ⟨nofun, ?_⟩
        rintro ⟨-, isVerbose, -, -, htwice, hnew⟩
        rw [Bool.or_eq_true] at hverbose
        rcases hverbose with h | h
        · exact (hnew h List.mem_cons_self).elim
        · have hle := isVerbose.toNat_le
          rw [← htwice, h, List.count_cons_self, Bool.toNat_true] at hle
          omega

theorem admitsOption_of_giveAll? {s s' : State} {settings : List Setting}
    (h : s.giveAll? settings = some s') :
    s'.admitsOption = s.admitsOption ∧ s'.isNew = s.isNew := by
  obtain ⟨path, isVerbose, rfl, -⟩ := giveAll?_eq_some_iff.1 h
  exact ⟨rfl, rfl⟩

/-- The state once the last option may still lack its value. -/
def awaiting (s : State) (lacksValue : Bool) : State :=
  if lacksValue then { s with awaitsValue := true } else s

/-- The path is set by the value behind its option. -/
theorem giveValue_awaiting {s s' : State} {value : String} (hadmits : s.admitsOption = true)
    (h : s.give? (.path value) = some s') : (s.awaiting true).giveValue value = s' := by
  rw [give?] at h
  cases hpath : s.path with
  | some old =>
    rw [hpath] at h
    cases h
  | none =>
    rw [hpath] at h
    cases h
    rw [admitsOption, Bool.and_eq_true, Bool.not_eq_true', Bool.not_eq_true'] at hadmits
    simp [awaiting, giveValue, hpath, hadmits]

/-- It is given twice if the path was set before. -/
theorem clashes_giveValue_awaiting {s : State} {value : String} (h : s.give? (.path value) = none) :
    ((s.awaiting true).giveValue value).clashes = true := by
  rw [give?] at h
  cases hpath : s.path.isSome with
  | true => exact hpath
  | false =>
    rw [hpath] at h
    cases h

theorem isNew_awaiting (s : State) (lacksValue : Bool) :
    (s.awaiting lacksValue).isNew = s.isNew := by
  rw [awaiting]
  split <;> rfl

end State

/-! ### One argument -/

section
variable {s s' : State} {settings : List Setting} {lacksValue : Bool}

theorem Letters.readLetters_eq {letters : List Char} (h : Letters letters settings lacksValue)
    (hgive : s.giveAll? settings = some s') :
    readLetters s letters = .go (s'.awaiting lacksValue) := by
  induction h generalizing s with
  | verbose =>
    rw [State.giveAll?_singleton] at hgive
    change s.giveVerbose = some s' at hgive
    rw [readLetters, hgive]
    rfl
  | cons h ih =>
    rw [State.giveAll?_cons] at hgive
    obtain ⟨s₁, hverbose, hgive⟩ := Option.bind_eq_some_iff.1 hgive
    change s.giveVerbose = some s₁ at hverbose
    rw [readLetters, hverbose]
    exact ih hgive
  | path =>
    cases hgive
    rfl
  | pathEquals value => exact State.givePath_eq_go_iff.2 hgive
  | @pathValue c value hc =>
    have hread : readLetters s ('p' :: c :: value) = s.givePath (String.ofList (c :: value)) :=
      readLetters.eq_4 s (c :: value) nofun fun _ h => hc (List.cons.inj h).1
    rw [hread]
    exact State.givePath_eq_go_iff.2 hgive

theorem exists_letters {letters : List Char} (hne : letters ≠ [])
    (h : readLetters s letters = .go s') :
    ∃ settings lacksValue s₁, Letters letters settings lacksValue ∧
      s.giveAll? settings = some s₁ ∧ s' = s₁.awaiting lacksValue := by
  fun_induction readLetters s letters with
  | case1 => exact (hne rfl).elim
  | case2 s => exact ⟨[], true, s, .path, rfl, (Next.go.inj h).symm⟩
  | case3 s value =>
    exact ⟨_, false, s', .pathEquals value, State.givePath_eq_go_iff.1 h, rfl⟩
  | case4 s value hempty hequals =>
    obtain ⟨c, value, rfl⟩ := List.exists_cons_of_ne_nil hempty
    have hc : c ≠ '=' := by
      rintro rfl
      exact hequals value rfl
    exact ⟨_, false, s', .pathValue value hc, State.givePath_eq_go_iff.1 h, rfl⟩
  | case5 s letters s₁ hverbose ih =>
    cases letters with
    | nil =>
      refine ⟨_, false, s₁, .verbose, ?_, (Next.go.inj h).symm⟩
      rw [State.giveAll?_singleton]
      exact hverbose
    | cons c letters =>
      obtain ⟨settings, lacksValue, s₂, hletters, hgive, heq⟩ := ih (List.cons_ne_nil c letters) h
      refine ⟨_, lacksValue, s₂, .cons hletters, ?_, heq⟩
      rw [State.giveAll?_cons]
      exact Option.bind_eq_some_iff.2 ⟨s₁, hverbose, hgive⟩
  | case6 | case7 | case8 => cases h

theorem Says.exists_toList {argument : String} {settings : List Setting} {lacksValue : Bool}
    (h : Says argument settings lacksValue) :
    argument ≠ "--" ∧ ∃ c cs, argument.toList = '-' :: c :: cs := by
  have hdashes {argument : String} (h : argument.toList ≠ ['-', '-']) : argument ≠ "--" := by
    rintro rfl
    exact h rfl
  cases h with
  | letters hletters =>
    cases hletters <;> exact ⟨hdashes (by simp), _, _, String.toList_ofList⟩
  | verbose => exact ⟨by decide, _, _, rfl⟩
  | path => exact ⟨by decide, _, _, rfl⟩
  | pathEquals value => exact ⟨hdashes (by simp), _, _, String.toList_append⟩

theorem readOption_letters (hadmits : s.admitsOption = true) {letters : List Char}
    (h : letters.head? ≠ some '-') : readOption s letters = readLetters s letters := by
  unfold readOption
  rw [hadmits]
  cases letters with
  | nil => rfl
  | cons c cs =>
    have hc : c ≠ '-' := fun heq => h (congrArg some heq)
    simp [hc]

theorem readOption_word (hadmits : s.admitsOption = true) (word : List Char) :
    readOption s ('-' :: word) = readWord s word := by
  unfold readOption
  rw [hadmits]
  rfl

theorem readWord_path (s : State) : readWord s "path".toList = .go (s.awaiting true) := by
  simp [readWord, State.awaiting]

theorem readWord_pathEquals (s : State) (value : List Char) :
    readWord s ("path=".toList ++ value) = s.givePath (String.ofList value) := by
  simp [readWord]

theorem readWord_verbose (s : State) :
    readWord s "verbose".toList = ((s.giveVerbose).map .go).getD (.stop .refused) := by
  simp [readWord]

/-- A word is its name, and what begins with an equals sign behind it. -/
theorem cases_of_readWord {word : List Char} (h : readWord s word = .go s') :
    (word = "path".toList ∧ s' = s.awaiting true) ∨
    (∃ value, word = "path=".toList ++ value ∧ s.givePath (String.ofList value) = .go s') ∨
    (word = "verbose".toList ∧ s.giveVerbose = some s') := by
  have hword : word.takeWhile (· != '=') ++ word.dropWhile (· != '=') = word :=
    List.takeWhile_append_dropWhile
  have hequals : ∀ c cs, word.dropWhile (· != '=') = c :: cs → c = '=' := by
    intro c cs heq
    have hhead := List.head?_dropWhile_not (· != '=') word
    simpa [heq] using hhead
  unfold readWord at h
  generalize word.takeWhile (· != '=') = name, word.dropWhile (· != '=') = rest at h hword hequals
  subst hword
  dsimp only at h
  split at h
  · next hname =>
    rw [← String.toList_ofList (l := name), hname, List.append_nil]
    exact .inl ⟨rfl, (Next.go.inj h).symm⟩
  · next c value hname =>
    obtain rfl := hequals c value rfl
    rw [← String.toList_ofList (l := name), hname]
    exact .inr (.inl ⟨value, rfl, h⟩)
  · next hname =>
    rw [← String.toList_ofList (l := name), hname, List.append_nil]
    cases hverbose : s.giveVerbose with
    | none =>
      rw [hverbose] at h
      cases h
    | some s₁ =>
      rw [hverbose] at h
      cases h
      exact .inr (.inr ⟨rfl, rfl⟩)
  · cases h
  · cases h

/-- What one argument sets is read, as long as nothing is set twice. -/
theorem Says.readOption_eq {argument : String} {option : List Char}
    (h : Says argument settings lacksValue) (hargument : argument.toList = '-' :: option)
    (hadmits : s.admitsOption = true) (hgive : s.giveAll? settings = some s') :
    readOption s option = .go (s'.awaiting lacksValue) := by
  cases h with
  | @letters letters _ _ hletters =>
    rw [String.toList_ofList] at hargument
    obtain rfl := (List.cons.inj hargument).2
    have hhead : letters.head? ≠ some '-' := by cases hletters <;> simp
    rw [readOption_letters hadmits hhead]
    exact hletters.readLetters_eq hgive
  | verbose =>
    obtain rfl : '-' :: "verbose".toList = option := (List.cons.inj hargument).2
    rw [State.giveAll?_singleton] at hgive
    change s.giveVerbose = some s' at hgive
    rw [readOption_word hadmits, readWord_verbose, hgive]
    rfl
  | path =>
    obtain rfl : '-' :: "path".toList = option := (List.cons.inj hargument).2
    cases hgive
    rw [readOption_word hadmits, readWord_path]
  | pathEquals value =>
    rw [String.toList_append] at hargument
    obtain rfl : '-' :: ("path=".toList ++ value.toList) = option := (List.cons.inj hargument).2
    rw [readOption_word hadmits, readWord_pathEquals, String.ofList_toList]
    exact State.givePath_eq_go_iff.2 hgive

theorem exists_says {c : Char} {cs : List Char} (hadmits : s.admitsOption = true)
    (h : readOption s (c :: cs) = .go s') :
    ∃ settings lacksValue s₁, Says (String.ofList ('-' :: c :: cs)) settings lacksValue ∧
      s.giveAll? settings = some s₁ ∧ s' = s₁.awaiting lacksValue := by
  by_cases hc : c = '-'
  · subst hc
    rw [readOption_word hadmits] at h
    rcases cases_of_readWord h with ⟨rfl, rfl⟩ | ⟨value, rfl, hpath⟩ | ⟨rfl, hverbose⟩
    · exact ⟨[], true, s, .path, rfl, rfl⟩
    · have hargument : String.ofList ('-' :: '-' :: ("path=".toList ++ value)) =
          "--path=" ++ String.ofList value := by
        refine String.toList_inj.1 ?_
        simp only [String.toList_append, String.toList_ofList]
        rfl
      rw [hargument]
      exact ⟨_, false, s', .pathEquals _, State.givePath_eq_go_iff.1 hpath, rfl⟩
    · refine ⟨_, false, s', .verbose, ?_, rfl⟩
      rw [State.giveAll?_singleton]
      exact hverbose
  · rw [readOption_letters hadmits (by simpa using hc)] at h
    obtain ⟨settings, lacksValue, s₁, hletters, hgive, rfl⟩ :=
      exists_letters (List.cons_ne_nil c cs) h
    exact ⟨settings, lacksValue, s₁, .letters hletters, hgive, rfl⟩

end

end AtomProbe.CommandLine
