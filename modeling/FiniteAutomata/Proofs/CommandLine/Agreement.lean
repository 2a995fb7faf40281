import FiniteAutomata.CommandLine.Run
import FiniteAutomata.Proofs.Document.Loading
import FiniteAutomata.Proofs.Graph.Listing
import FiniteAutomata.Proofs.Session.Move

/-!
What the commands print. Each command works on a session, but what it prints is a rendering of the
graph that its file is loaded as, or tells why there is none (`Prints`). A graph without a name goes
by the usual one, and an analysis is of the cleaned graph where that is asked for. A validation
counts what an analysis counts, and warns by the marks of the states (`execute_prints`).
-/
namespace FiniteAutomata

namespace CommandLine

open Session (Store)

variable {m : Type → Type} [Monad m]

/-- The format that is asked for, or else the one that is set. -/
def Request.format (r : Request) (settings : Settings) : Format := r.output.getD settings.format

/-- The loaded graph with a name. -/
def titled (settings : Settings) (g : Graph) : Graph :=
  if g.name = "" then g.rename settings.defaultName else g

/-- What is analysed of a loaded graph. -/
def Request.subject (r : Request) (settings : Settings) (g : Graph) : Graph :=
  if r.clean then (titled settings g).clean.2 else titled settings g

/-- The warnings about a graph, in a fixed order. Each is there exactly if its number of states is
as it says. -/
structure Warns (g : Graph) (ws : List String) : Prop where
  ordered : ws.Sublist ["No initial state", "More than one initial state", "No accepting state"]
  none_initial : "No initial state" ∈ ws ↔ g.states.countP (·.initial) = 0
  several_initial : "More than one initial state" ∈ ws ↔ 1 < g.states.countP (·.initial)
  none_accepting : "No accepting state" ∈ ws ↔ g.states.countP (·.accepting) = 0

/-- What a command prints and whether it succeeds, by what its file is loaded as. -/
inductive Prints (settings : Settings) (r : Request) : Except Error Graph → Printed → Prop
  | failed {e : Error} (hverb : r.verb ≠ .validate) : Prints settings r (.error e) ⟨"", .error e⟩
  | invalid {e : Error} (hverb : r.verb = .validate) :
      Prints settings r (.error e)
        ⟨"❌ Failed to load automaton: " ++ e.message ++ "\n", .error e⟩
  | report {g : Graph} (hverb : r.verb = .analyze) (hformat : r.format settings = .table) :
      Prints settings r (.ok g) ⟨(r.subject settings g).report.text, .ok ()⟩
  | reportJson {g : Graph} (hverb : r.verb = .analyze) (hformat : r.format settings = .json) :
      Prints settings r (.ok g) ⟨(r.subject settings g).report.toJson.page, .ok ()⟩
  | drawing {g : Graph} (hverb : r.verb = .analyze) (hformat : r.format settings = .dot) :
      Prints settings r (.ok g) ⟨(r.subject settings g).dot, .ok ()⟩
  | table {g : Graph} (hverb : r.verb = .table) (hformat : r.format settings = .table) :
      Prints settings r (.ok g) ⟨g.table.text, .ok ()⟩
  | tableJson {g : Graph} (hverb : r.verb = .table) (hformat : r.format settings = .json) :
      Prints settings r (.ok g) ⟨g.table.toJson.page, .ok ()⟩
  | valid {g : Graph} {ws : List String} (hverb : r.verb = .validate) (hws : Warns g ws) :
      Prints settings r (.ok g)
        ⟨linesText
          (["📋 Automaton Validation Report", "━━━━━━━━━━━━━━━━━━━━━━━━━━━━━━━━━━━━━━━━━━━",
            "File: " ++ Text.quoted r.file, "Name: " ++ g.name,
            "States: " ++ toString (titled settings g).report.stateCount,
            "Transitions: " ++ toString (titled settings g).report.transitionCount, ""] ++
          (if ws.isEmpty then [] else ["⚠️  Warnings:"] ++ ws.map ("   " ++ ·) ++ [""]) ++
          ["✅ Automaton is valid!"]), .ok ()⟩

/-! ### Sessions -/

section Run

variable {s : Store} {t : Session.Token} {g : Graph}

theorem run_graphOf (hgraph : s.sessionGraph? t = some g) : (graphOf t).run s = .ok g s := by
  obtain ⟨k, hget, hheld⟩ := Store.sessionGraph?_eq_some_iff.mp hgraph
  have hfind : s.find (.session t) = .ok (k, g) := Store.find_of_graph? hget hheld
  simp only [graphOf, EStateM.run_bind, EStateM.run_get, hfind, EStateM.run_pure]

theorem run_ask {c : Session.Command} {answer : Session.Answer}
    (hanswer : (s.perform c).1 = .ok answer) : (ask c).run s = .ok answer (s.perform c).2 := by
  rw [EStateM.run, ask]
  generalize s.perform c = outcome at hanswer ⊢
  obtain ⟨_, left⟩ := outcome
  cases hanswer
  rfl

/-- A graph is cleaned in its session. -/
theorem exists_run_clean (hgraph : s.sessionGraph? t = some g) :
    ∃ answer left, (ask (.edit (.session t) .clean)).run s = .ok answer left ∧
      left.sessionGraph? t = some g.clean.2 := by
  obtain ⟨k, hget, hheld⟩ := Store.sessionGraph?_eq_some_iff.mp hgraph
  have hhandle : (Session.Target.session t).handle? s = some k := hget
  have hanswer : (s.perform (.edit (.session t) .clean)).1 =
      .ok (.effect (.cleaned g.clean.1)) := by
    simp only [Store.perform, Store.find_of_graph? hhandle hheld]
    rfl
  have hkept : (s.perform (.edit (.session t) .clean)).2.get? t = s.get? t :=
    (Store.move_perform s _).get?_eq (Option.some_ne_none t).symm
  refine ⟨_, _, run_ask hanswer, Store.sessionGraph?_eq_some_iff.mpr ⟨k, hkept.trans hget, ?_⟩⟩
  exact Store.graph?_perform_edit hhandle hheld .clean

/-- A session that is opened for a graph holds that graph, with a name. -/
theorem exists_run_openSession (settings : Settings) (g : Graph) (s : Store) :
    ∃ t left, (openSession settings g).run s = .ok t left ∧
      left.sessionGraph? t = some (titled settings g) :=
  ⟨_, _, rfl, Store.sessionGraph?_replace_self ..⟩

/-- What is said of a graph in its session is what is said of the graph, and then the session is no
more. -/
theorem exists_run_inSession {settings : Settings} {text : String}
    {work : Session.Token → EStateM Error Store String}
    (hwork : ∀ s t, s.sessionGraph? t = some (titled settings g) →
      ∃ left, (work t).run s = .ok text left)
    (s : Store) :
    ∃ t left, (inSession settings g work).run s = .ok text left ∧ left.contains t = false := by
  obtain ⟨t, opened, hopen, hgraph⟩ := exists_run_openSession settings g s
  obtain ⟨worked, hworked⟩ := hwork opened t hgraph
  refine ⟨t, (worked.delete t).2, ?_, ?_⟩
  · simp only [inSession, EStateM.run_bind, hopen, hworked]
    rfl
  · rw [Store.contains, Store.get?_delete, if_pos rfl, Option.isSome_none]

end Run

/-- What is printed of a file that is worked on in a session. -/
theorem printFrom_eq (files : Files m) (generator : Session.Generator) {settings : Settings}
    (path : String) {work : Session.Token → EStateM Error Store String}
    {printed : Except Error Graph → Printed} (hfailed : ∀ e, printed (.error e) = .failed e)
    (hprinted : ∀ g, ∃ text, printed (.ok g) = ⟨text, .ok ()⟩ ∧
      ∀ s t, s.sessionGraph? t = some (titled settings g) →
        ∃ left, (work t).run s = .ok text left) :
    printFrom files generator settings path work =
      (do return printed (← loadFile files path).outcome) := by
  rw [printFrom]
  refine congrArg _ (funext fun made => ?_)
  cases made.outcome with
  | error e => rw [hfailed]
  | ok g =>
    obtain ⟨text, htext, hwork⟩ := hprinted g
    obtain ⟨t, left, hrun, -⟩ := exists_run_inSession hwork
      (.emptyWith generator settings.defaultName made.supply)
    simp only [hrun, htext]

/-! ### Commands -/

theorem table_titled (settings : Settings) (g : Graph) : (titled settings g).table = g.table := by
  rw [titled]
  split <;> rfl

theorem report_titled (settings : Settings) (g : Graph) :
    (titled settings g).report.stateCount = g.stateCount ∧
      (titled settings g).report.transitionCount = g.transitionCount := by
  rw [titled]
  split <;> exact ⟨rfl, rfl⟩

/-- What an analysis prints of what its file is loaded as. -/
def analysed (settings : Settings) (r : Request) : Except Error Graph → Printed
  | .error e => .failed e
  | .ok g => ⟨analysisText (r.format settings) (r.subject settings g), .ok ()⟩

theorem analyze_eq (files : Files m) (generator : Session.Generator) (settings : Settings)
    (r : Request) :
    analyze files generator settings r.file (r.format settings) r.clean =
      (do return analysed settings r (← loadFile files r.file).outcome) := by
  refine printFrom_eq files generator r.file (fun e => rfl) fun g => ⟨_, rfl, fun s t hgraph => ?_⟩
  cases hclean : r.clean with
  | false =>
    refine ⟨s, ?_⟩
    simp only [Bool.false_eq_true, if_false, EStateM.run_bind, run_graphOf hgraph, Request.subject,
      hclean]
    rfl
  | true =>
    obtain ⟨answer, left, hrun, hleft⟩ := exists_run_clean hgraph
    refine ⟨left, ?_⟩
    simp only [if_true, EStateM.run_bind, hrun, run_graphOf hleft, Request.subject, hclean]
    rfl

theorem analysed_prints {settings : Settings} {r : Request} (hverb : r.verb = .analyze)
    (outcome : Except Error Graph) : Prints settings r outcome (analysed settings r outcome) := by
  cases outcome with
  | error e => exact .failed (by simp [hverb])
  | ok g =>
    rw [analysed]
    cases hformat : r.format settings with
    | table => exact .report hverb hformat
    | json => exact .reportJson hverb hformat
    | dot => exact .drawing hverb hformat

/-- What a table command prints of what its file is loaded as. -/
def tabulated (settings : Settings) (r : Request) : Except Error Graph → Printed
  | .error e => .failed e
  | .ok g => ⟨tableText (r.format settings) g, .ok ()⟩

theorem table_eq (files : Files m) (generator : Session.Generator) (settings : Settings)
    (r : Request) (hformat : r.format settings ≠ .dot) :
    table files generator settings r.file (r.format settings) =
      (do return tabulated settings r (← loadFile files r.file).outcome) := by
  rw [table, if_neg hformat]
  refine printFrom_eq files generator r.file (fun e => rfl) fun g => ⟨_, rfl, fun s t hgraph => ?_⟩
  refine ⟨s, ?_⟩
  simp only [EStateM.run_bind, run_graphOf hgraph, tableText, table_titled]
  rfl

theorem tabulated_prints {settings : Settings} {r : Request} (hverb : r.verb = .table)
    (hformat : r.format settings ≠ .dot) (outcome : Except Error Graph) :
    Prints settings r outcome (tabulated settings r outcome) := by
  cases outcome with
  | error e => exact .failed (by simp [hverb])
  | ok g =>
    rw [tabulated]
    cases hformat' : r.format settings with
    | table => exact .table hverb hformat'
    | json => exact .tableJson hverb hformat'
    | dot => exact absurd hformat' hformat

/-- What a validation prints of what its file is loaded as. -/
def validated (r : Request) : Except Error Graph → Printed
  | .error e => ⟨"❌ Failed to load automaton: " ++ e.message ++ "\n", .error e⟩
  | .ok g => ⟨validationText r.file g, .ok ()⟩

theorem validate_eq (files : Files m) (r : Request) :
    validate files r.file = (do return validated r (← loadFile files r.file).outcome) := by
  rw [validate]
  refine congrArg _ (funext fun made => ?_)
  cases made.outcome <;> rfl

theorem sublist_singleton {due : Prop} [Decidable due] (w : String) :
    (if due then [w] else []).Sublist [w] := by
  split
  · exact List.Sublist.refl _
  · exact List.nil_sublist _

theorem warns_warnings (g : Graph) : Warns g (warnings g) := by
  have hinitial : g.initialStates.length = g.states.countP (·.initial) :=
    g.length_filter_listedStates _
  have haccepting : g.acceptingStates.length = g.states.countP (·.accepting) :=
    g.length_filter_listedStates _
  constructor
  · exact ((sublist_singleton _).append (sublist_singleton _)).append (sublist_singleton _)
  all_goals
    simp only [warnings, List.mem_append, List.isEmpty_iff_length_eq_zero, hinitial, haccepting,
      List.mem_ite_nil_right, List.mem_singleton, gt_iff_lt]
    simp

theorem validated_prints {settings : Settings} {r : Request} (hverb : r.verb = .validate)
    (outcome : Except Error Graph) : Prints settings r outcome (validated r outcome) := by
  cases outcome with
  | error e => exact .invalid hverb
  | ok g =>
    have hvalid : Prints settings r (.ok g) _ := .valid hverb (warns_warnings g)
    obtain ⟨hstates, htransitions⟩ := report_titled settings g
    rw [hstates, htransitions] at hvalid
    exact hvalid

/-! ### Main statement -/

/-- Carrying out a command comes to loading its file and printing the graph that is loaded, or the
reason why none is. A table that is asked for as a drawing is refused before the file is read. -/
theorem execute_prints (files : Files m) (generator : Session.Generator) (settings : Settings)
    (r : Request) :
    (r.verb = .table → r.format settings = .dot →
        execute files generator settings r = pure ⟨"", .error .tableAsDot⟩) ∧
      (¬(r.verb = .table ∧ r.format settings = .dot) →
        ∃ printed : Except Error Graph → Printed,
          execute files generator settings r =
              (do return printed (← loadFile files r.file).outcome) ∧
            ∀ outcome, Prints settings r outcome (printed outcome)) := by
  constructor
  · intro hverb hformat
    rw [Request.format] at hformat
    rw [execute, hverb, hformat]
    rfl
  · intro hdrawn
    cases hverb : r.verb with
    | analyze =>
      refine ⟨analysed settings r, ?_, analysed_prints hverb⟩
      rw [← analyze_eq files generator, execute, hverb]
      rfl
    | table =>
      have hformat : r.format settings ≠ .dot := fun hdot => hdrawn ⟨hverb, hdot⟩
      refine ⟨tabulated settings r, ?_, tabulated_prints hverb hformat⟩
      rw [← table_eq files generator settings r hformat, execute, hverb]
      rfl
    | validate =>
      refine ⟨validated r, ?_, validated_prints hverb⟩
      rw [← validate_eq, execute, hverb]

/-- A document without a name, with a transition and with a state that no transition touches. -/
def served : String :=
  "automaton \"\" \x7b\n  state p \x7b initial: true \x7d\n  state q \x7b \x7d\n" ++
    "  state r \x7b \x7d\n  p - a -> q\n\x7d"

def servedTokens : Document.Tokens where
  toList := [
    ⟨.automaton, "automaton", ⟨1, 1⟩⟩, ⟨.string, "", ⟨1, 11⟩⟩, ⟨.openBrace, "\x7b", ⟨1, 14⟩⟩,
    ⟨.state, "state", ⟨2, 3⟩⟩, ⟨.identifier, "p", ⟨2, 9⟩⟩, ⟨.openBrace, "\x7b", ⟨2, 11⟩⟩,
    ⟨.identifier, "initial", ⟨2, 13⟩⟩, ⟨.colon, ":", ⟨2, 20⟩⟩, ⟨.trueWord, "true", ⟨2, 22⟩⟩,
    ⟨.closeBrace, "\x7d", ⟨2, 27⟩⟩, ⟨.state, "state", ⟨3, 3⟩⟩, ⟨.identifier, "q", ⟨3, 9⟩⟩,
    ⟨.openBrace, "\x7b", ⟨3, 11⟩⟩, ⟨.closeBrace, "\x7d", ⟨3, 13⟩⟩, ⟨.state, "state", ⟨4, 3⟩⟩,
    ⟨.identifier, "r", ⟨4, 9⟩⟩, ⟨.openBrace, "\x7b", ⟨4, 11⟩⟩, ⟨.closeBrace, "\x7d", ⟨4, 13⟩⟩,
    ⟨.identifier, "p", ⟨5, 3⟩⟩, ⟨.dash, "-", ⟨5, 5⟩⟩, ⟨.identifier, "a", ⟨5, 7⟩⟩,
    ⟨.arrow, "->", ⟨5, 9⟩⟩, ⟨.identifier, "q", ⟨5, 12⟩⟩, ⟨.closeBrace, "\x7d", ⟨6, 1⟩⟩]
  finish := ⟨6, 2⟩

def servedDocument : Document where
  name := ""
  metadata := []
  alphabet := []
  states := [⟨"p", true, false, none, none, ⟨2, 3⟩⟩, ⟨"q", false, false, none, none, ⟨3, 3⟩⟩,
    ⟨"r", false, false, none, none, ⟨4, 3⟩⟩]
  transitions := [⟨"p", "q", ["a"], ⟨5, 3⟩⟩]

/-- The graph that the document describes. -/
def servedGraph : Graph := servedDocument.drawn .initial

/-- A single file. -/
def shelf : Files Id where
  read path := if path = "a" then .ok served else .error .missing
  isThere path := decide (path = "a")
  home := none

def analysis : Request := ⟨.analyze, "a", none, some .json, true⟩

def tabulation : Request := ⟨.table, "a", none, none, false⟩

def drawnTable : Request := ⟨.table, "a", none, some .dot, false⟩

theorem extension?_shelf : Files.extension? "a" = none := by
  have hparts : "a".splitOn "/" = ["a"] := by
    rw [String.splitOn, if_neg (by decide), String.splitOnAux, if_neg (by decide +kernel),
      if_neg (by decide +kernel), String.splitOnAux, if_pos (by decide +kernel)]
    decide +kernel
  rw [Files.extension?, Files.parts, hparts]
  decide +kernel

theorem loadFile_shelf : (loadFile shelf "a").outcome = .ok servedGraph := by
  have hscan : Document.scan served = .ok servedTokens := by decide +kernel
  have hwrites : Document.Writes served servedDocument := ⟨_, hscan, by with_unfolding_all rfl⟩
  have hsound : servedDocument.Sound :=
    ⟨by decide, by simp [Document.Resolved, Document.identifiers, servedDocument]⟩
  have hload := Document.load_of_writes hwrites hsound .initial
  have hsource : loadFile shelf "a" = (sourceOf "a" served).load .initial := rfl
  rw [hsource, sourceOf, extension?_shelf]
  exact congrArg Attempt.outcome hload

/-- The table is of all states, and the analysis of those that cleaning leaves. -/
theorem execute_prints_served :
    execute shelf .numbered .usual drawnTable = ⟨"", .error .tableAsDot⟩ ∧
      servedGraph.states.map (·.label) = ["p", "q", "r"] ∧
      execute shelf .numbered .usual tabulation = ⟨servedGraph.table.text, .ok ()⟩ ∧
      (analysis.subject .usual servedGraph).states.map (·.label) = ["p", "q"] ∧
      execute shelf .numbered .usual analysis =
        ⟨(analysis.subject .usual servedGraph).report.toJson.page, .ok ()⟩ := by
  refine ⟨(execute_prints shelf .numbered .usual drawnTable).1 rfl rfl, by decide, ?_, by decide,
    ?_⟩
  · obtain ⟨printed, hexecute, hprints⟩ :=
      (execute_prints shelf .numbered .usual tabulation).2 (by decide)
    have hprinted := hprints (.ok servedGraph)
    rw [hexecute.trans (congrArg printed loadFile_shelf)]
    generalize printed (.ok servedGraph) = p at hprinted ⊢
    cases hprinted with
    | table => rfl
    | tableJson _ hformat => cases hformat
    | report hverb => cases hverb
    | reportJson hverb => cases hverb
    | drawing hverb => cases hverb
    | valid hverb => cases hverb
  · obtain ⟨printed, hexecute, hprints⟩ :=
      (execute_prints shelf .numbered .usual analysis).2 (by decide)
    have hprinted := hprints (.ok servedGraph)
    rw [hexecute.trans (congrArg printed loadFile_shelf)]
    generalize printed (.ok servedGraph) = p at hprinted ⊢
    cases hprinted with
    | reportJson => rfl
    | report _ hformat => cases hformat
    | drawing _ hformat => cases hformat
    | table hverb => cases hverb
    | tableJson hverb => cases hverb
    | valid hverb => cases hverb

end CommandLine

end FiniteAutomata
