import FiniteAutomata.Graph.Basic

/-!
Graphs as DOT text: a doubled circle for an accepting state, an arrow out of nowhere for an initial
one, and an arrow with its symbol for each transition.
-/
namespace FiniteAutomata

namespace Dot

/-- A backslash before every backslash and every quote. -/
def escape : List Char → List Char
  | [] => []
  | c :: cs => if c = '\\' ∨ c = '"' then '\\' :: c :: escape cs else c :: escape cs

def quoted (s : String) : String := "\"" ++ String.ofList (escape s.toList) ++ "\""

def stateLine (s : State) : String :=
  "  " ++ quoted s.id.text ++ " [label=" ++ quoted s.label ++ ", shape=" ++
    (if s.accepting then "doublecircle" else "circle") ++ "];\n"

def initialLines (s : State) : String :=
  let entry := quoted ("start_" ++ s.id.text)
  "  " ++ entry ++ " [shape=point, style=invis];\n" ++
    "  " ++ entry ++ " -> " ++ quoted s.id.text ++ ";\n"

def transitionLine (t : Transition) : String :=
  "  " ++ quoted t.source.text ++ " -> " ++ quoted t.target.text ++
    " [label=" ++ quoted t.shownSymbol ++ "];\n"

end Dot

namespace Graph

def dot (g : Graph) : String :=
  let entries := g.initialStates.map Dot.initialLines
  "digraph Automaton \x7b\n  rankdir=LR;\n  label=" ++ Dot.quoted g.name ++
    ";\n  node [shape=circle];\n\n" ++
    String.join (g.listedStates.map Dot.stateLine) ++
    (if entries.isEmpty then "" else "\n") ++ String.join entries ++ "\n" ++
    String.join (g.transitions.map Dot.transitionLine) ++ "\x7d\n"

end Graph

end FiniteAutomata
