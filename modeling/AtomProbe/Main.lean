import AtomProbe.Program

/-!
# `AtomProbe.Main`: the program

The outer layer: files of the system, and a journal that is shown and
kept in the log file.
-/

set_option autoImplicit false

namespace AtomProbe.Main

/-- The number of the cause that the system reports. -/
def systemCode : IO.Error → UInt32
  | .noFileOrDirectory _ code _ => code
  | .inappropriateType _ code _ => code
  | .invalidArgument _ code _ => code
  | .resourceExhausted _ code _ => code
  | .permissionDenied _ code _ => code
  | _ => 0

/-- The cause that the system reports. -/
def fileError (e : IO.Error) : FileError :=
  match (systemCode e).toNat with
  | 2 => .notFound
  | 20 => .notADirectory
  | 21 => .isADirectory
  | 36 => .nameTooLong
  | _ => .other (toString e)

/-- The result of an action on files. -/
def attempt {α : Type} (action : IO α) : IO (Except FileError α) := do
  try
    return .ok (← action)
  catch e => return .error (fileError e)

/-- A run of the program knows whether details are kept. -/
abbrev Run := ReaderT (IO.Ref Bool) IO

instance : Storage Run where
  isPresent path := do return (← attempt (IO.FS.realPath path)).isOk
  read path := attempt (IO.FS.readBinFile path)
  write path content := attempt (IO.FS.writeBinFile path content)
  size path := attempt do
    let file ← IO.FS.realPath path
    return (← file.metadata).byteSize.toNat

instance : Journal Run where
  report r := do
    if r.level = .detail ∧ ¬ (← (← read).get) then return
    let line := s!"[{r.level.name}] {r.text}"
    IO.eprintln line
    let _ ← attempt do
      let log ← IO.FS.Handle.mk Program.logPath .append
      log.putStrLn line
  keepDetails := do (← read).set true

instance : Listener Run where
  send _ := return true

/-- How the program is used. -/
def usage : String :=
  "Usage: apm_mapper_cli [new] --path <path> [--verbose]"

end AtomProbe.Main

/-- Do what the arguments ask for. -/
def main (arguments : List String) : IO UInt32 := do
  match AtomProbe.CommandLine.parse arguments with
  | .refused => IO.eprintln AtomProbe.Main.usage
  | .help => IO.println AtomProbe.Main.usage
  | _ => pure ()
  (AtomProbe.Program.run arguments : AtomProbe.Main.Run UInt32).run (← IO.mkRef false)
