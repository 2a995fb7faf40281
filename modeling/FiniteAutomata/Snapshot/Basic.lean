import FiniteAutomata.Graph.Basic
import FiniteAutomata.Supply

/-!
Snapshots: a graph as it is saved. The numbers in a snapshot only say which states a transition
joins; a graph loaded from it gets new ones.
-/
namespace FiniteAutomata

structure Snapshot where
  name : String
  states : List State
  transitions : List Transition
  alphabet : List String

namespace Snapshot

/-- Why a snapshot makes no graph. The numbers are the snapshot's own. -/
inductive Fault
  | duplicateState (id : StateId)
  | unknownEndpoint (id : StateId)
deriving DecidableEq, Repr

def ofGraph (g : Graph) : Snapshot :=
  ⟨g.name, g.listedStates, g.transitions, g.alphabet.toList⟩

/-- The new numbers of the states of a snapshot. -/
abbrev Renumbering := List (StateId × StateId)

/-- Adds states under new numbers. -/
def addStates (supply : Supply) (ids : Renumbering) (g : Graph) :
    List State → Attempt Fault (Renumbering × Graph)
  | [] => ⟨.ok (ids, g), supply⟩
  | s :: ss =>
    match ids.lookup s.id with
    | some _ => ⟨.error (.duplicateState s.id), supply⟩
    | none =>
      let id := supply.nextState
      addStates supply.afterState ((s.id, id) :: ids) (g.insertState { s with id }) ss

/-- Adds transitions under new numbers. -/
def addTransitions (supply : Supply) (ids : Renumbering) (g : Graph) :
    List Transition → Attempt Fault Graph
  | [] => ⟨.ok g, supply⟩
  | t :: ts =>
    match ids.lookup t.source, ids.lookup t.target with
    | none, _ => ⟨.error (.unknownEndpoint t.source), supply⟩
    | some _, none => ⟨.error (.unknownEndpoint t.target), supply⟩
    | some source, some target =>
      addTransitions supply.afterTransition ids
        (g.insertTransition ⟨supply.nextTransition, source, target, t.symbol⟩) ts

/-- The graph that a snapshot describes. Its alphabet is that of its transitions. -/
def toGraph (s : Snapshot) (supply : Supply) : Attempt Fault Graph :=
  let placed := addStates supply [] (.named s.name) s.states
  match placed.outcome with
  | .error e => ⟨.error e, placed.supply⟩
  | .ok (ids, g) => addTransitions placed.supply ids g s.transitions

end Snapshot

end FiniteAutomata
