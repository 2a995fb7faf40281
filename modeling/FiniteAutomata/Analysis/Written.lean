import FiniteAutomata.Analysis.Report
import FiniteAutomata.Analysis.Table
import FiniteAutomata.Json.Basic
import FiniteAutomata.Text.Blank

/-!
Reports and tables written out, as text for the eye and as JSON.
-/
namespace FiniteAutomata

def yesNo (b : Bool) : String := if b then "yes" else "no"

namespace Report

def text (r : Report) : String :=
  String.join <| (· ++ "\n") <$>
    ["Automaton Analysis - " ++ r.name,
     String.ofList (List.replicate 80 '='),
     "",
     "Summary:",
     "  Type:          " ++ Graph.kindName r.deterministic,
     "  Deterministic: " ++ yesNo r.deterministic,
     "  Complete:      " ++ yesNo r.complete,
     "  States:        " ++ toString r.stateCount,
     "  Transitions:   " ++ toString r.transitionCount,
     "  Alphabet:      " ++ bracedList r.alphabet.toList,
     "  Initial State: " ++ r.initialState.getD "-",
     "  Accepting:     " ++ bracedList r.acceptingStates.toList,
     "",
     "Language:",
     "  Regex:         " ++ r.expression,
     "  " ++ r.language]

def toJson (r : Report) : Json :=
  .object
    [("name", .string r.name),
     ("type", .string (Graph.kindName r.deterministic)),
     ("isDeterministic", .bool r.deterministic),
     ("isComplete", .bool r.complete),
     ("statesCount", .natural r.stateCount),
     ("transitionsCount", .natural r.transitionCount),
     ("alphabet", .list (r.alphabet.toList.map .string)),
     ("initialState", (r.initialState.map .string).getD .null),
     ("acceptingStates", .list (r.acceptingStates.toList.map .string)),
     ("regex", .string r.expression),
     ("languageDescription", .string r.language)]

end Report

namespace Table

/-- An arrow for an initial state and a star for an accepting one. -/
def Row.marker (r : Row) : String :=
  match r.initial, r.accepting with
  | true, true => "->*"
  | true, false => "->"
  | false, true => "*"
  | false, false => ""

/-- Blanks before a text of fewer than `width` characters. -/
def padLeft (width : Nat) (s : String) : String :=
  String.ofList (List.replicate (width - s.length) ' ') ++ s

/-- Blanks behind a text of fewer than `width` characters. -/
def padRight (width : Nat) (s : String) : String :=
  s ++ String.ofList (List.replicate (width - s.length) ' ')

def cellText (destinations : OrderedSet StateRef) : String :=
  if destinations.isEmpty then "-" else bracedList (destinations.toList.map (·.label))

def Row.texts (r : Row) : List String :=
  (padLeft 3 r.marker ++ " " ++ r.state.label) :: r.cells.map fun (_, cell) => cellText cell

def header (t : Table) : List String := "State" :: t.symbols

def lines (t : Table) : List (List String) := t.header :: t.rows.map Row.texts

/-- The widths of columns that have room for every line. Each line has as many cells as there are
columns. -/
def widths (columns : Nat) (lines : List (List String)) : List Nat :=
  (List.range columns).map fun k => (lines.map fun line => (line.getD k "").length).foldl max 0

def lineText (widths : List Nat) (cells : List String) : String :=
  " | ".intercalate (List.zipWith padRight widths cells)

/-- The lines of a table, with a rule below the header that is as long as the longest of them could
be. There is no bound on that here, while a formatter that keeps widths in 16 bits has no rule of
more than 65535 characters. -/
def text (t : Table) : String :=
  let widths := widths t.header.length t.lines
  let total := widths.foldl (· + ·) 0 + 3 * (widths.length - 1)
  let line (cells : List String) := Text.trimEnd (lineText widths cells) ++ "\n"
  line t.header ++ String.ofList (List.replicate total '-') ++ "\n" ++
    String.join (t.rows.map fun r => line r.texts)

def refJson (s : StateRef) : Json :=
  .object [("label", .string s.label), ("id", .natural s.id.number)]

def Row.toJson (r : Row) : Json :=
  .object
    [("state", refJson r.state), ("initial", .bool r.initial), ("accepting", .bool r.accepting),
     ("cells", .object (r.cells.map fun (symbol, cell) =>
       (symbol, .list (cell.toList.map refJson))))]

def toJson (t : Table) : Json :=
  .object [("symbols", .list (t.symbols.map .string)), ("rows", .list (t.rows.map Row.toJson))]

end Table

/-- A JSON value on lines of its own. -/
def Json.page (v : Json) : String := v.prettyText ++ "\n"

end FiniteAutomata
