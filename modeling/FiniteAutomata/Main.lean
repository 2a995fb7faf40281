import FiniteAutomata.CommandLine.Run

/-!
The program. Files are those of the disk, and what a command prints goes to standard output; a
complaint goes to standard error.
-/
namespace FiniteAutomata.CommandLine

/-- Why the disk did not give a file, by the number that the system has for it. The number may come
with a minus sign. -/
def numberedFault (code : UInt32) (reason : String) : Files.Fault :=
  match (min code (0 - code)).toNat with
  | 2 => .missing
  | 20 => .notDirectory
  | 21 => .directory
  | 36 => .nameTooLong
  | n => .other (reason ++ " (os error " ++ toString n ++ ")")

def diskFault : IO.Error → Files.Fault
  | .noFileOrDirectory _ code reason | .inappropriateType _ code reason
  | .invalidArgument _ code reason | .permissionDenied _ code reason => numberedFault code reason
  | e => .other (toString e)

def diskText (path : String) : IO (Except Files.Fault String) := do
  if path.contains '\x00' then return .error .nullCharacter
  try
    match String.fromUTF8? (← IO.FS.readBinFile path) with
    | some text => return .ok text
    | none => return .error .notText
  catch e => return .error (diskFault e)

/-- The files of the disk. A path leads to something unless there is nothing there to read. -/
def disk (home : Option String) : Files IO where
  read := diskText
  isThere path := do
    match ← diskText path with
    | .error .missing | .error .notDirectory | .error .nameTooLong | .error .nullCharacter =>
      return false
    | _ => return true
  home

def usage : String :=
  "Usage: [-c CONFIG] analyze [--clean] [-o table|json|dot] FILE\n" ++
  "       [-c CONFIG] table [-o table|json] FILE\n" ++
  "       [-c CONFIG] validate FILE"

/-- What is said about arguments that ask for no command. -/
def Refusal.message : Refusal → String
  | .help | .noArguments => usage
  | .version => "0.1.0"
  | .missingCommand => "error: a command is required"
  | .unknownCommand => "error: unrecognized command"
  | .unknownArgument => "error: unexpected argument"
  | .surplusValue => "error: unexpected value for an option"
  | .badValue => "error: invalid or missing value for an option"
  | .missingFile => "error: a file is required"
  | .repeated => "error: an option cannot be used more than once"

/-- Whether arguments that ask for no command ask for something else that they get. -/
def Refusal.isRequest : Refusal → Bool
  | .help | .version => true
  | _ => false

/-- Says what became of a command line, and gives the code to end with. -/
def Outcome.finish : Outcome → IO UInt32
  | .refused r => do
    if r.isRequest then
      IO.println r.message
      return 0
    else
      IO.eprintln r.message
      return 2
  | .unsettled e => do
    IO.eprintln ("Error: " ++ e.message)
    return 1
  | .ran _ printed => do
    IO.print printed.text
    match printed.outcome with
    | .ok () => return 0
    | .error e =>
      IO.eprintln ("Error: " ++ e.message)
      return 1

end FiniteAutomata.CommandLine

def main (args : List String) : IO UInt32 := do
  let home := (← IO.getEnv "HOME").filter (· ≠ "")
  let outcome ← FiniteAutomata.CommandLine.run (FiniteAutomata.CommandLine.disk home) args
  outcome.finish
