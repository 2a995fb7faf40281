import FiniteAutomata.Graph.Basic

/-!
Determinism and completeness. A graph is deterministic when reading never leaves a choice, and
complete when moreover it never gets stuck on a symbol of the alphabet.
-/
namespace FiniteAutomata.Graph

/-- Whether no symbol occurs twice on the transitions that leave a state. -/
def hasDistinctMoves (g : Graph) (id : StateId) : Bool :=
  let symbols := (g.outgoing id).map (·.symbol)
  (OrderedSet.ofList symbols).size = symbols.length

/-- One initial state, no move that reads nothing, and no symbol twice at any state. A graph
without states is deterministic. -/
def isDeterministic (g : Graph) : Bool :=
  g.isEmpty ||
    (g.initialStates.length = 1 && !g.transitions.any (·.isSilent) &&
      g.states.all fun s => g.hasDistinctMoves s.id)

def hasMove (g : Graph) (id : StateId) (symbol : String) : Bool :=
  (g.outgoing id).any (·.symbol = symbol)

/-- Deterministic, with a symbol to read, and with a move on every symbol at every state. -/
def isComplete (g : Graph) : Bool :=
  g.isDeterministic && !g.alphabet.isEmpty &&
    g.states.all fun s => g.alphabet.toList.all (g.hasMove s.id)

/-- The kind of automaton, as it is shown. -/
def kindName (deterministic : Bool) : String :=
  if deterministic then "AFD (Automate Fini Déterministe)"
  else "AFN (Automate Fini Non-Déterministe)"

end FiniteAutomata.Graph
