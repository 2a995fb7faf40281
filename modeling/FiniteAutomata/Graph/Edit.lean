import FiniteAutomata.Graph.Basic

/-!
Changes to a graph as data. States and transitions take their numbers from a supply that many
graphs share, so `Graph.edit` goes from a supply and a graph to a supply and a graph.
-/
namespace FiniteAutomata

namespace Graph

inductive Edit
  | addState (position : Point)
  | addLabeledState (label : String) (position : Point)
  | removeState (id : StateId)
  | updateState (id : StateId) (position : Point) (initial accepting : Option Bool)
  | addTransition (source target : StateId) (symbol : String)
  | removeTransition (id : TransitionId)
  | clean
  | rename (name : String)

/-- What a change answers. -/
inductive Effect
  | state (s : State)
  | removedState (s : Option State)
  | transition (t : Transition)
  | removedTransition (t : Option Transition)
  | cleaned (count : Nat)
  | renamed

/-- A graph and a supply after a change, and what the change answers. -/
structure Edited where
  answer : Except Fault Effect
  supply : Supply
  graph : Graph

/-- Adds a state with the next number. -/
def addLabeledState (g : Graph) (supply : Supply) (label : String) (position : Point) : Edited :=
  let s : State := ⟨supply.nextState, label, position, false, false⟩
  ⟨.ok (.state s), supply.afterState, g.insertState s⟩

/-- Carries out a change. What a refused change leaves is what it had made of graph and supply when
it was refused. -/
def edit (g : Graph) (supply : Supply) : Edit → Edited
  | .addState position => g.addLabeledState supply g.freeLabel position
  | .addLabeledState label position => g.addLabeledState supply label position
  | .removeState id =>
    let (removed, h) := g.removeState id
    ⟨.ok (.removedState removed), supply, h⟩
  | .updateState id position initial accepting =>
    match (updateState id position initial accepting).run g with
    | .ok s h => ⟨.ok (.state s), supply, h⟩
    | .error fault h => ⟨.error fault, supply, h⟩
  | .addTransition source target symbol =>
    match (addTransition source target symbol).run (supply, g) with
    | .ok t (later, h) => ⟨.ok (.transition t), later, h⟩
    | .error fault (later, h) => ⟨.error fault, later, h⟩
  | .removeTransition id =>
    let (removed, h) := g.removeTransition id
    ⟨.ok (.removedTransition removed), supply, h⟩
  | .clean =>
    let (count, h) := g.clean
    ⟨.ok (.cleaned count), supply, h⟩
  | .rename name => ⟨.ok .renamed, supply, g.rename name⟩

/-- A supply and a graph after a row of changes. -/
def editAll (supply : Supply) (g : Graph) : List Edit → Supply × Graph
  | [] => (supply, g)
  | e :: es =>
    let done := g.edit supply e
    editAll done.supply done.graph es

end Graph

end FiniteAutomata
