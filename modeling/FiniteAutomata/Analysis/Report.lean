import FiniteAutomata.Analysis.Determinism
import FiniteAutomata.Analysis.Shape

/-!
Everything that an analysis finds out about a graph, in one record.
-/
namespace FiniteAutomata

/-- A set of texts between braces. -/
def bracedList (texts : List String) : String := "\x7b" ++ ", ".intercalate texts ++ "\x7d"

structure Report where
  name : String
  deterministic : Bool
  complete : Bool
  stateCount : Nat
  transitionCount : Nat
  alphabet : OrderedSet String
  initialState : Option String
  acceptingStates : OrderedSet String
  expression : String
  language : String

namespace Graph

/-- The language in words, as far as it can be told at a glance. -/
def languageSummary (g : Graph) : String :=
  if g.isEmpty then "Langage vide (∅)"
  else if g.initialState?.isNone then "Pas d'état initial défini"
  else if g.acceptingStates.isEmpty then "Langage vide (aucun état acceptant)"
  else
    let alphabet := if g.alphabet.isEmpty then "∅" else bracedList g.alphabet.toList
    "L(A) = \x7b mots sur " ++ alphabet ++ " reconnus par cet automate \x7d"

def report (g : Graph) : Report where
  name := g.name
  deterministic := g.isDeterministic
  complete := g.isComplete
  stateCount := g.stateCount
  transitionCount := g.transitionCount
  alphabet := g.alphabet
  initialState := g.initialState?.map (·.label)
  acceptingStates := .ofList (g.acceptingStates.map (·.label))
  expression := g.expression
  language := g.languageSummary

end Graph

end FiniteAutomata
