import FiniteAutomata.Graph.Arena
import FiniteAutomata.Graph.Edit

/-!
Graphs in an arena. States are its nodes and transitions its edges, and two tables lead from their
numbers to their slots. Every change is made to the arena and to the tables alike. The slots say
nothing about age, because a free slot is given out again; whatever is listed is put in order by
numbers and labels.
-/
namespace FiniteAutomata

open Function (update)

/-- The number of the state from which a transition is seen in a direction. -/
def Transition.seenFrom (t : Transition) : Direction → StateId
  | .outgoing => t.source
  | .incoming => t.target

/-- Transitions in the order in which they were made. -/
def Transition.inOrder (ts : List Transition) : List Transition :=
  ts.mergeSort fun t u => t.id.number ≤ u.id.number

structure Housed (A : Arena State Transition) where
  name : String
  contents : A.Contents
  stateSlot : StateId → Option Nat
  transitionSlot : TransitionId → Option Nat
  alphabet : OrderedSet String

namespace Housed

variable {A : Arena State Transition}

def named (name : String) : Housed A := ⟨name, A.empty, fun _ => none, fun _ => none, ∅⟩

def rename (a : Housed A) (name : String) : Housed A := { a with name }

/-! ### Looking at a graph -/

/-- The states in the order of their slots. -/
def states (a : Housed A) : List State := (A.nodes a.contents).filterMap (A.node? a.contents)

def transitionAt (a : Housed A) (k : Nat) : Option Transition :=
  (A.edge? a.contents k).map (·.weight)

/-- The transitions in the order of their slots. -/
def arrows (a : Housed A) : List Transition := (A.edges a.contents).filterMap a.transitionAt

def stateCount (a : Housed A) : Nat := (A.nodes a.contents).length

def transitionCount (a : Housed A) : Nat := (A.edges a.contents).length

def hasState (a : Housed A) (id : StateId) : Bool := (a.stateSlot id).isSome

def state? (a : Housed A) (id : StateId) : Option State :=
  (a.stateSlot id).bind (A.node? a.contents)

def transition? (a : Housed A) (id : TransitionId) : Option Transition :=
  (a.transitionSlot id).bind a.transitionAt

def listedStates (a : Housed A) : List State := a.states.mergeSort State.precedes

def transitions (a : Housed A) : List Transition := Transition.inOrder a.arrows

/-- The transitions that a state sees in a direction. -/
def transitionsAt (a : Housed A) (id : StateId) (d : Direction) : List Transition :=
  match a.stateSlot id with
  | none => []
  | some i => Transition.inOrder ((A.edgesAt a.contents i d).filterMap a.transitionAt)

def outgoing (a : Housed A) (id : StateId) : List Transition := a.transitionsAt id .outgoing

def incoming (a : Housed A) (id : StateId) : List Transition := a.transitionsAt id .incoming

/-- Of the states whose circles hold a point, the one with the least number. -/
def stateAt? (a : Housed A) (p : Point) : Option State :=
  (a.states.filter (·.contains p)).minOn? (·.id.number)

/-- The label of the least number whose label is free. -/
def freeLabel (a : Housed A) : String :=
  let count := a.states.length
  let isFree (n : Nat) : Bool := !a.states.any (·.label = Graph.numberedLabel n)
  Graph.numberedLabel (((List.range (count + 1)).find? isFree).getD count)

/-! ### Changing a graph -/

def insertState (a : Housed A) (s : State) : Housed A :=
  let (slot, contents) := A.addNode a.contents s
  { a with contents, stateSlot := update a.stateSlot s.id (some slot) }

/-- Puts a transition between two slots. -/
def insertTransition (a : Housed A) (source target : Nat) (t : Transition) : Housed A :=
  let (slot, contents) := A.addEdge a.contents source target t
  { a with
    contents
    transitionSlot := update a.transitionSlot t.id (some slot)
    alphabet := if t.isSilent then a.alphabet else a.alphabet.insert t.symbol }

def addTransition (source target : StateId) (symbol : String) :
    EStateM Graph.Fault (Supply × Housed A) Transition := do
  let some i := (← get).2.stateSlot source | throw (.unknownEndpoint source)
  let some j := (← get).2.stateSlot target | throw (.unknownEndpoint target)
  let id ← Supply.takeTransition
  let t : Transition := ⟨id, source, target, symbol⟩
  modify fun (supply, a) => (supply, a.insertTransition i j t)
  return t

/-- Collects the alphabet again from what is left. -/
def recollected (a : Housed A) : Housed A := { a with alphabet := Graph.symbolsOf a.arrows }

/-- The numbers of the transitions at a slot. -/
def touching (a : Housed A) (slot : Nat) : List TransitionId :=
  let seen := A.edgesAt a.contents slot .outgoing ++ A.edgesAt a.contents slot .incoming
  (seen.filterMap a.transitionAt).map (·.id)

/-- Empties the slot of a state. Its transitions leave the arena with it and are taken out of their
table. -/
def vacate (a : Housed A) (id : StateId) (slot : Nat) : Option State × Housed A :=
  let gone := a.touching slot
  let (removed, contents) := A.removeNode a.contents slot
  (removed,
    { a with
      contents
      stateSlot := update a.stateSlot id none
      transitionSlot := fun t => if t ∈ gone then none else a.transitionSlot t })

def removeState (a : Housed A) (id : StateId) : Option State × Housed A :=
  match a.stateSlot id with
  | none => (none, a)
  | some i =>
    let (removed, left) := a.vacate id i
    (removed, left.recollected)

def removeTransition (a : Housed A) (id : TransitionId) : Option Transition × Housed A :=
  match a.transitionSlot id with
  | none => (none, a)
  | some k =>
    let (removed, contents) := A.removeEdge a.contents k
    let left : Housed A :=
      { a with contents, transitionSlot := update a.transitionSlot id none }
    (removed, left.recollected)

/-- Changes the state in a slot. -/
def changeState (a : Housed A) (slot : Nat) (f : State → State) : Housed A :=
  { a with contents := A.changeNode a.contents slot f }

/-- Before a state is marked initial, all states lose that mark. -/
def unmarkedFor (a : Housed A) (initial : Option Bool) : Housed A :=
  { a with
    contents :=
      if initial = some true then A.changeNodes a.contents fun s => { s with initial := false }
      else a.contents }

/-- Moves a state and sets the flags that are given. The slot of a state is never empty, so the last
error does not occur. -/
def updateState (id : StateId) (position : Point) (initial accepting : Option Bool) :
    EStateM Graph.Fault (Housed A) State := do
  let some i := (← get).stateSlot id | throw (.unknownState id)
  modify (·.unmarkedFor initial)
  modify (·.changeState i (·.redrawn position initial accepting))
  let some s := A.node? (← get).contents i | throw (.unknownState id)
  return s

/-- Sets both flags of a state and leaves all other states alone. -/
def setFlags (id : StateId) (initial accepting : Bool) : EStateM Graph.Fault (Housed A) Unit := do
  let some i := (← get).stateSlot id | throw (.unknownState id)
  modify (·.changeState i fun s => { s with initial, accepting })

/-- Puts in a state that is read from somewhere. It is made without flags like any other, and then
its flags are set. -/
def importState (s : State) : EStateM Graph.Fault (Housed A) Unit := do
  modify (·.insertState { s with initial := false, accepting := false })
  setFlags s.id s.initial s.accepting

/-- The states without transitions that are not initial. -/
def strayStates (a : Housed A) : List State :=
  let alone := (A.nodes a.contents).filter fun i => (A.neighbors a.contents i).isEmpty
  (alone.filterMap (A.node? a.contents)).filter fun s => !s.initial

def clean (a : Housed A) : Nat × Housed A :=
  (a.strayStates.length, a.strayStates.foldl (fun b s => (b.removeState s.id).2) a)

/-- A graph in an arena and a supply after a change, and what the change answers. -/
structure Edited (A : Arena State Transition) where
  answer : Except Graph.Fault Graph.Effect
  supply : Supply
  graph : Housed A

def addLabeledState (a : Housed A) (supply : Supply) (label : String) (position : Point) :
    Edited A :=
  let s : State := ⟨supply.nextState, label, position, false, false⟩
  ⟨.ok (.state s), supply.afterState, a.insertState s⟩

def edit (a : Housed A) (supply : Supply) : Graph.Edit → Edited A
  | .addState position => a.addLabeledState supply a.freeLabel position
  | .addLabeledState label position => a.addLabeledState supply label position
  | .removeState id =>
    let (removed, b) := a.removeState id
    ⟨.ok (.removedState removed), supply, b⟩
  | .updateState id position initial accepting =>
    match (updateState id position initial accepting).run a with
    | .ok s b => ⟨.ok (.state s), supply, b⟩
    | .error fault b => ⟨.error fault, supply, b⟩
  | .addTransition source target symbol =>
    match (addTransition source target symbol).run (supply, a) with
    | .ok t (later, b) => ⟨.ok (.transition t), later, b⟩
    | .error fault (later, b) => ⟨.error fault, later, b⟩
  | .removeTransition id =>
    let (removed, b) := a.removeTransition id
    ⟨.ok (.removedTransition removed), supply, b⟩
  | .clean =>
    let (count, b) := a.clean
    ⟨.ok (.cleaned count), supply, b⟩
  | .rename name => ⟨.ok .renamed, supply, a.rename name⟩

/-- A supply and a graph in an arena after a row of changes. -/
def editAll (supply : Supply) (a : Housed A) : List Graph.Edit → Supply × Housed A
  | [] => (supply, a)
  | e :: es =>
    let done := a.edit supply e
    editAll done.supply done.graph es

end Housed

end FiniteAutomata
