import FiniteAutomata.Settings

/-!
The arguments of the command line. A command has options, which may stand anywhere, and one file.
The value of an option is attached to it, or is the next argument. A value that stands apart waits
until the next option or file, or the end, and is looked at only then; an unknown option is noticed
before it.
-/
namespace FiniteAutomata.CommandLine

inductive Verb
  | analyze
  | table
  | validate
deriving DecidableEq, Repr

namespace Verb

def all : List Verb := [.analyze, .table, .validate]

def name : Verb → String
  | .analyze => "analyze"
  | .table => "table"
  | .validate => "validate"

def ofName? (name : String) : Option Verb := all.find? (·.name = name)

end Verb

/-- Why arguments ask for no command. -/
inductive Refusal
  | help
  | version
  | noArguments
  | missingCommand
  | unknownCommand
  | unknownArgument
  | surplusValue
  | badValue
  | missingFile
  | repeated
deriving DecidableEq, Repr

inductive Switch
  | config
  | output
  | clean
  | help
  | version
deriving DecidableEq, Repr

namespace Switch

def takesValue : Switch → Bool
  | .config | .output => true
  | .clean | .help | .version => false

def long : Switch → String
  | .config => "config"
  | .output => "output"
  | .clean => "clean"
  | .help => "help"
  | .version => "version"

def short? : Switch → Option Char
  | .config => some 'c'
  | .output => some 'o'
  | .clean => none
  | .help => some 'h'
  | .version => some 'V'

/-- The options known before a command and behind each command. -/
def known : Option Verb → List Switch
  | none => [.config, .help, .version]
  | some .analyze => [.config, .output, .clean, .help]
  | some .table => [.config, .output, .help]
  | some .validate => [.config, .help]

end Switch

/-- What has been chosen before a command, or behind it. -/
structure Choices where
  config : Option String
  output : Option Format
  clean : Bool
  file : Option String
deriving DecidableEq, Repr

/-- Nothing chosen yet. -/
def Choices.blank : Choices := ⟨none, none, false, none⟩

/-- What a value is for. -/
inductive Slot
  | option (switch : Switch)
  | file
deriving DecidableEq, Repr

/-- Arguments half read. -/
structure Progress where
  choices : Choices
  /-- A slot that waits for its value, or whose value waits to be looked at. -/
  waiting : Option (Slot × Option String)
  /-- Whether everything from here on is a file. -/
  filesOnly : Bool
deriving DecidableEq, Repr

namespace Progress

def start : Progress := ⟨.blank, none, false⟩

/-- Whether the next argument is the value of an option. -/
def wantsValue (p : Progress) : Bool := p.waiting.any (·.2.isNone)

end Progress

namespace Choices

/-- Takes a value for a slot. No path is empty, and no option comes twice. -/
def take (c : Choices) (slot : Slot) (value : String) : Except Refusal Choices :=
  match slot with
  | .file => if value = "" then .error .badValue else .ok { c with file := some value }
  | .option .config =>
    if c.config.isSome then .error .repeated
    else if value = "" then .error .badValue
    else .ok { c with config := some value }
  | .option .output =>
    if c.output.isSome then .error .repeated
    else
      match Format.ofName? value with
      | some format => .ok { c with output := some format }
      | none => .error .badValue
  | .option _ => .error .surplusValue

/-- Takes an option without a value. -/
def takeFlag (c : Choices) : Switch → Except Refusal Choices
  | .help => .error .help
  | .version => .error .version
  | .clean => if c.clean then .error .repeated else .ok { c with clean := true }
  | .config | .output => .error .badValue

end Choices

namespace Progress

/-- Looks at the value that waits. -/
def settle (p : Progress) : Except Refusal Choices :=
  match p.waiting with
  | none => .ok p.choices
  | some (_, none) => .error .badValue
  | some (slot, some value) => p.choices.take slot value

/-- A slot whose value is yet to come or to be looked at. -/
def await (p : Progress) (slot : Slot) (value : Option String) : Except Refusal Progress :=
  p.settle.map fun choices => { p with choices, waiting := some (slot, value) }

/-- An option with a value attached. -/
def attach (p : Progress) (switch : Switch) (value : String) : Except Refusal Progress := do
  let choices ← p.settle
  let choices ← choices.take (.option switch) value
  return { p with choices, waiting := none }

def flag (p : Progress) (switch : Switch) : Except Refusal Progress := do
  let choices ← p.settle
  let choices ← choices.takeFlag switch
  return { p with choices, waiting := none }

/-- An option by its long name, which an equals sign and a value may follow. -/
def readLong (verb : Option Verb) (p : Progress) (text : List Char) : Except Refusal Progress :=
  let name := String.ofList (text.takeWhile (· ≠ '='))
  match (Switch.known verb).find? (·.long = name) with
  | none => .error .unknownArgument
  | some switch =>
    match text.dropWhile (· ≠ '=') with
    | _ :: value =>
      if switch.takesValue then p.attach switch (String.ofList value) else .error .surplusValue
    | [] => if switch.takesValue then p.await (.option switch) none else p.flag switch

/-- Options by their letters. The value of an option may follow its letter. -/
def readShort (verb : Option Verb) (p : Progress) : List Char → Except Refusal Progress
  | [] => .ok p
  | c :: cs =>
    match (Switch.known verb).find? (·.short? = some c) with
    | none => .error .unknownArgument
    | some switch =>
      if switch.takesValue then
        match cs with
        | [] => p.await (.option switch) none
        | '=' :: value => p.attach switch (String.ofList value)
        | value => p.attach switch (String.ofList value)
      else
        match p.flag switch with
        | .ok p => p.readShort verb cs
        | .error r => .error r

/-- An argument that belongs to no option: the file of a command, of which there is one. -/
def readFile (verb : Option Verb) (p : Progress) (arg : String) : Except Refusal Progress :=
  match verb with
  | none =>
    if p.filesOnly ∧ (arg = "help" ∨ (Verb.ofName? arg).isSome) then .error .unknownArgument
    else .error .unknownCommand
  | some _ =>
    let hasFile := p.choices.file.isSome || p.waiting.any (·.1 = .file)
    if hasFile then .error .unknownArgument else p.await .file (some arg)

/-- Reads one argument. -/
def read (verb : Option Verb) (p : Progress) (arg : String) : Except Refusal Progress :=
  if p.filesOnly then p.readFile verb arg
  else
    match arg.toList with
    | ['-', '-'] => .ok { p with filesOnly := true }
    | '-' :: '-' :: text => p.readLong verb text
    | '-' :: c :: cs => p.readShort verb (c :: cs)
    | _ =>
      match p.waiting with
      | some (slot, none) => .ok { p with waiting := some (slot, some arg) }
      | _ => p.readFile verb arg

end Progress

/-- A command with all that was chosen for it. -/
structure Request where
  verb : Verb
  file : String
  config : Option String
  output : Option Format
  clean : Bool
deriving DecidableEq, Repr

/-- The choices behind a command, which needs a file. -/
def readChoices (verb : Verb) (p : Progress) : List String → Except Refusal (Choices × String)
  | [] => do
    let choices ← p.settle
    match choices.file with
    | some file => return (choices, file)
    | none => throw .missingFile
  | arg :: args => do
    let p ← p.read (some verb) arg
    readChoices verb p args

/-- Help for commands by their names, of which there is at most one. -/
def helpFor : List String → Refusal
  | [] => .help
  | [name] => if name = "help" ∨ (Verb.ofName? name).isSome then .help else .unknownCommand
  | _ => .unknownCommand

/-- Arguments up to a command and behind it. What waits before the command is looked at last. An
option given on both sides counts behind the command. -/
def readRequest (p : Progress) : List String → Except Refusal Request
  | [] => do
    let choices ← p.settle
    throw (if choices.config.isSome then .missingCommand else .noArguments)
  | arg :: args =>
    let verb := if p.filesOnly || p.wantsValue then none else Verb.ofName? arg
    match verb with
    | some verb => do
      let (chosen, file) ← readChoices verb .start args
      let before ← p.settle
      return ⟨verb, file, chosen.config.or before.config, chosen.output, chosen.clean⟩
    | none =>
      if arg = "help" ∧ ¬p.filesOnly ∧ ¬p.wantsValue then .error (helpFor args)
      else
        match p.read none arg with
        | .ok p => readRequest p args
        | .error r => .error r

def Request.ofArguments (args : List String) : Except Refusal Request := readRequest .start args

end FiniteAutomata.CommandLine
