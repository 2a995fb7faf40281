import FiniteAutomata.Analysis.Dot
import FiniteAutomata.Analysis.Written
import FiniteAutomata.CommandLine.Arguments
import FiniteAutomata.Session.Command

/-!
Carrying out commands. Each command loads its file into a session of its own, asks the store what
it wants to know, prints the answer and deletes the session. Where files come from is left open.
-/
namespace FiniteAutomata.CommandLine

variable {m : Type → Type} [Monad m]

/-- What a command printed, also before it failed. -/
structure Printed where
  text : String
  outcome : Except Error Unit

def Printed.failed (e : Error) : Printed := ⟨"", .error e⟩

/-! ### Settings -/

def settingsIn (files : Files m) (path : String) : m (Except Error Settings) := do
  match ← files.read path with
  | .error fault => return .error (.settingsFile path fault)
  | .ok text =>
    match Settings.ofText? text with
    | some settings => return .ok settings
    | none => return .error .settings

/-- Where settings are looked for. -/
def settingsPaths (home : Option String) : List String :=
  ["config.toml"] ++ (home.map (· ++ "/.automaton-workbench/config.toml")).toList ++
    ["/etc/automaton-workbench/config.toml"]

/-- The settings of the first path that leads to anything. -/
def firstSettings (files : Files m) : List String → m (Except Error Settings)
  | [] => return .ok .usual
  | path :: paths => do
    if ← files.isThere path then settingsIn files path else firstSettings files paths

def settingsFor (files : Files m) : Option String → m (Except Error Settings)
  | some path => settingsIn files path
  | none => firstSettings files (settingsPaths files.home)

/-! ### Commands -/

/-- A file whose name ends in `json` is a saved graph, any other is a document. -/
def sourceOf (path text : String) : Source :=
  if (Files.extension? path).any fun e => e.map Char.toLower = "json" then .saved text
  else .document text

def loadFile (files : Files m) (path : String) : m (Attempt Error Graph) := do
  match ← files.read path with
  | .error fault => return ⟨.error (.file fault), .initial⟩
  | .ok text => return (sourceOf path text).load .initial

/-- Asks a store for something. -/
def ask (c : Session.Command) : EStateM Error Session.Store Session.Answer := fun store =>
  match store.perform c with
  | (.ok answer, left) => .ok answer left
  | (.error e, left) => .error e left

/-- The graph that a session holds. -/
def graphOf (token : Session.Token) : EStateM Error Session.Store Graph := do
  match (← get).find (.session token) with
  | .ok (_, g) => return g
  | .error e => throw e

/-- Opens a session for a graph, which is given the usual name if it has none. -/
def openSession (settings : Settings) (g : Graph) : EStateM Error Session.Store Session.Token := do
  let g := if g.name = "" then g.rename settings.defaultName else g
  let token ← modifyGet (·.create (some g.name))
  modify (·.replace token g)
  return token

/-- Works on a graph in a session of its own, which is deleted at the end. -/
def inSession (settings : Settings) (g : Graph)
    (work : Session.Token → EStateM Error Session.Store String) :
    EStateM Error Session.Store String := do
  let token ← openSession settings g
  let text ← work token
  let _ ← ask (.delete token)
  return text

/-- Loads a file and prints what is found out about it in a session. -/
def printFrom (files : Files m) (generator : Session.Generator) (settings : Settings)
    (path : String) (work : Session.Token → EStateM Error Session.Store String) : m Printed := do
  let made ← loadFile files path
  match made.outcome with
  | .error e => return .failed e
  | .ok g =>
    let store := Session.Store.emptyWith generator settings.defaultName made.supply
    match (inSession settings g work).run store with
    | .ok text _ => return ⟨text, .ok ()⟩
    | .error e _ => return .failed e

def analysisText (format : Format) (g : Graph) : String :=
  match format with
  | .table => g.report.text
  | .json => g.report.toJson.page
  | .dot => g.dot

def analyze (files : Files m) (generator : Session.Generator) (settings : Settings) (path : String)
    (format : Format) (clean : Bool) : m Printed :=
  printFrom files generator settings path fun token => do
    if clean then
      let _ ← ask (.edit (.session token) .clean)
    return analysisText format (← graphOf token)

def tableText (format : Format) (g : Graph) : String :=
  if format = .json then g.table.toJson.page else g.table.text

def table (files : Files m) (generator : Session.Generator) (settings : Settings) (path : String)
    (format : Format) : m Printed :=
  if format = .dot then return .failed .tableAsDot
  else
    printFrom files generator settings path fun token =>
      return tableText format (← graphOf token)

def warnings (g : Graph) : List String :=
  (if g.initialStates.isEmpty then ["No initial state"] else []) ++
    (if g.initialStates.length > 1 then ["More than one initial state"] else []) ++
    (if g.acceptingStates.isEmpty then ["No accepting state"] else [])

def linesText (ls : List String) : String := String.join (ls.map (· ++ "\n"))

def validationText (path : String) (g : Graph) : String :=
  linesText <|
    ["📋 Automaton Validation Report", "━━━━━━━━━━━━━━━━━━━━━━━━━━━━━━━━━━━━━━━━━━━",
      "File: " ++ Text.quoted path, "Name: " ++ g.name, "States: " ++ toString g.stateCount,
      "Transitions: " ++ toString g.transitionCount, ""] ++
    (if (warnings g).isEmpty then []
      else ["⚠️  Warnings:"] ++ (warnings g).map ("   " ++ ·) ++ [""]) ++
    ["✅ Automaton is valid!"]

def validate (files : Files m) (path : String) : m Printed := do
  match (← loadFile files path).outcome with
  | .error e => return ⟨"❌ Failed to load automaton: " ++ e.message ++ "\n", .error e⟩
  | .ok g => return ⟨validationText path g, .ok ()⟩

def execute (files : Files m) (generator : Session.Generator) (settings : Settings) (r : Request) :
    m Printed :=
  let format := r.output.getD settings.format
  match r.verb with
  | .analyze => analyze files generator settings r.file format r.clean
  | .table => table files generator settings r.file format
  | .validate => validate files r.file

/-- What became of a command line. -/
inductive Outcome
  | refused (refusal : Refusal)
  | unsettled (error : Error)
  | ran (settings : Settings) (printed : Printed)

def runWith (generator : Session.Generator) (files : Files m) (args : List String) :
    m Outcome := do
  match Request.ofArguments args with
  | .error refusal => return .refused refusal
  | .ok request =>
    match ← settingsFor files request.config with
    | .error e => return .unsettled e
    | .ok settings => return .ran settings (← execute files generator settings request)

def run (files : Files m) (args : List String) : m Outcome := runWith .numbered files args

end FiniteAutomata.CommandLine
