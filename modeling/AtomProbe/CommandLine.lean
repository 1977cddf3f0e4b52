/-!
# `AtomProbe.CommandLine`: the arguments of the program

The program takes a path and may be verbose; the subcommand `new` makes
a template configuration. An option that takes a value takes the next
argument, whatever it says, unless it begins with a dash and more. An
option may be given once; the path may be given once more behind the
subcommand, and then counts.
-/

set_option autoImplicit false

namespace AtomProbe

/-- What the arguments ask for. -/
inductive Request
  /-- Nothing that the program understands. -/
  | refused
  | help
  /-- Make a template configuration. -/
  | create (path : Option String)
  /-- Convert the entries of a configuration. -/
  | convert (path : Option String) (isVerbose : Bool)
  deriving DecidableEq, Repr

namespace CommandLine

/-- What the arguments so far say. -/
structure State where
  /-- Behind the subcommand. -/
  isNew : Bool
  /-- The path before the subcommand. -/
  outerPath : Option String
  path : Option String
  isVerbose : Bool
  /-- The last argument asks for a value. -/
  awaitsValue : Bool
  /-- The path was given twice. -/
  clashes : Bool
  deriving DecidableEq, Repr

/-- Before the first argument. -/
def State.start : State := ⟨false, none, none, false, false, false⟩

/-- What comes of one argument. -/
inductive Next
  | go (s : State)
  | stop (r : Request)

namespace State

/-- Whether an option may follow. -/
def admitsOption (s : State) : Bool := !s.awaitsValue && !s.clashes

/-- The path, given with its option in one argument. -/
def givePath (s : State) (path : String) : Next :=
  if s.path.isSome then .stop .refused else .go { s with path := some path }

/-- The option for more details. -/
def giveVerbose (s : State) : Option State :=
  if s.isNew || s.isVerbose then none else some { s with isVerbose := true }

/-- The value of the option before. -/
def giveValue (s : State) (value : String) : State :=
  { s with awaitsValue := false, path := some value, clashes := s.path.isSome }

/-- The end of the arguments. -/
def finish (s : State) : Request :=
  if s.awaitsValue || s.clashes then .refused
  else if s.isNew then .create (s.path.or s.outerPath)
  else if s.path.isNone && !s.isVerbose then .refused
  else .convert s.path s.isVerbose

end State

/-- Read letters behind a dash. -/
def readLetters (s : State) : List Char → Next
  | [] => .go s
  | 'p' :: [] => .go { s with awaitsValue := true }
  | 'p' :: '=' :: value => s.givePath (String.ofList value)
  | 'p' :: value => s.givePath (String.ofList value)
  | 'v' :: letters =>
    match s.giveVerbose with
    | some s => readLetters s letters
    | none => .stop .refused
  | 'h' :: _ => .stop .help
  | _ => .stop .refused

/-- Read a word behind two dashes, with a value behind an equals sign. -/
def readWord (s : State) (word : List Char) : Next :=
  let name := String.ofList (word.takeWhile (· != '='))
  match name, word.dropWhile (· != '=') with
  | "path", [] => .go { s with awaitsValue := true }
  | "path", _ :: value => s.givePath (String.ofList value)
  | "verbose", [] => ((s.giveVerbose).map .go).getD (.stop .refused)
  | "help", [] => .stop .help
  | _, _ => .stop .refused

/-- Read an argument that begins with a dash and more. -/
def readOption (s : State) (option : List Char) : Next :=
  if !s.admitsOption then .stop .refused
  else
    match option with
    | '-' :: word => readWord s word
    | letters => readLetters s letters

/-- Whether help is asked for on something that there is. -/
def isHelpTopic (topics : List String) : Bool :=
  [[], ["new"], ["help"]].contains topics

/-- Read arguments. -/
def read (s : State) : List String → Request
  | [] => s.finish
  | argument :: arguments =>
    if !s.awaitsValue && !s.isNew && argument == "new" then
      -- behind the subcommand the path may be given anew
      match read ⟨true, s.path, none, s.isVerbose, false, false⟩ arguments with
      | .create path => if s.clashes then .refused else .create path
      | request => request
    else if !s.awaitsValue && !s.isNew && argument == "help" then
      if isHelpTopic arguments then .help else .refused
    -- two dashes end the options, and no argument is left to follow them
    else if argument = "--" then
      if arguments.isEmpty then s.finish else .refused
    else
      match argument.toList with
      | '-' :: c :: cs =>
        match readOption s (c :: cs) with
        | .go s => read s arguments
        | .stop request => request
      | _ => if s.awaitsValue then read (s.giveValue argument) arguments else .refused

/-- What the arguments ask for. -/
def parse (arguments : List String) : Request := read .start arguments

end CommandLine

end AtomProbe
