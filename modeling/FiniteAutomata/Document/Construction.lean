import FiniteAutomata.Document.Basic
import FiniteAutomata.Document.Token
import FiniteAutomata.Graph.Basic
import FiniteAutomata.Supply

/-!
From a document to the graph it describes. Every declared state becomes a state, and every symbol
of a declared transition becomes a transition between the states that the document's names stand
for. The first state declared again, or else the first name that stands for no state, is an error.
-/
namespace FiniteAutomata.Document

/-- A state without a position stands in a row with the others, in the order of declaration. -/
def defaultPosition (index : Nat) : Point := ⟨100.0 + index.toFloat * 150.0, 200.0⟩

/-- The states that names stand for. -/
abbrev Names := List (String × StateId)

/-- The state made from a declaration that `index` declarations precede. -/
def StateDecl.toState (d : StateDecl) (id : StateId) (index : Nat) : State :=
  ⟨id, d.label.getD d.id, d.position.getD (defaultPosition index), d.initial, d.accepting⟩

/-- Adds the declared states to a graph with `index` states whose names are known. -/
def addStates (supply : Supply) (index : Nat) (names : Names) (g : Graph) :
    List StateDecl → Attempt Complaint (Names × Graph)
  | [] => ⟨.ok (names, g), supply⟩
  | d :: ds =>
    match names.lookup d.id with
    | some _ => ⟨.error ⟨.declaredTwice d.id, d.location⟩, supply⟩
    | none =>
      let id := supply.nextState
      addStates supply.afterState (index + 1) ((d.id, id) :: names)
        (g.insertState (d.toState id index)) ds

/-- Adds one transition for each symbol. -/
def addSymbols (supply : Supply) (g : Graph) (source target : StateId) :
    List String → Graph × Supply
  | [] => (g, supply)
  | symbol :: rest =>
    addSymbols supply.afterTransition
      (g.insertTransition ⟨supply.nextTransition, source, target, symbol⟩) source target rest

def addTransitions (supply : Supply) (names : Names) (g : Graph) :
    List TransitionDecl → Attempt Complaint Graph
  | [] => ⟨.ok g, supply⟩
  | d :: ds =>
    match names.lookup d.source, names.lookup d.target with
    | none, _ => ⟨.error ⟨.undeclared d.source, d.location⟩, supply⟩
    | some _, none => ⟨.error ⟨.undeclared d.target, d.location⟩, supply⟩
    | some source, some target =>
      let (h, supply) := addSymbols supply g source target d.symbols
      addTransitions supply names h ds

/-- The graph that a document describes. -/
def toGraph (d : Document) (supply : Supply) : Attempt Complaint Graph :=
  let placed := addStates supply 0 [] (.named d.name) d.states
  match placed.outcome with
  | .error e => ⟨.error e, placed.supply⟩
  | .ok (names, g) => addTransitions placed.supply names g d.transitions

end FiniteAutomata.Document
