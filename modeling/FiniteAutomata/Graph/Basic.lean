import FiniteAutomata.OrderedSet
import FiniteAutomata.Supply

/-!
Automata as drawings: a name, states and transitions in the order in which they were made, and the
alphabet of their transitions. Making a transition adds its symbol to the alphabet, and every
removal collects the alphabet again from what is left (`symbolsOf`). A change that can be refused is
carried out step by step, and whatever it wrote before it is refused stays written.
-/
namespace FiniteAutomata

structure Graph where
  name : String
  states : List State
  transitions : List Transition
  alphabet : OrderedSet String

namespace Graph

/-- Why a change to a graph is refused. -/
inductive Fault
  | unknownState (id : StateId)
  | unknownEndpoint (id : StateId)
deriving DecidableEq, Repr

def named (name : String) : Graph := ⟨name, [], [], ∅⟩

/-- The graph that nobody has named yet. -/
def unnamed : Graph := named "Automate"

instance : Inhabited Graph := ⟨unnamed⟩

def rename (g : Graph) (name : String) : Graph := { g with name }

/-! ### Looking at a graph -/

def isEmpty (g : Graph) : Bool := g.states.isEmpty

def stateCount (g : Graph) : Nat := g.states.length

def transitionCount (g : Graph) : Nat := g.transitions.length

def state? (g : Graph) (id : StateId) : Option State := g.states.find? (·.id = id)

def hasState (g : Graph) (id : StateId) : Bool := g.states.any (·.id = id)

def transition? (g : Graph) (id : TransitionId) : Option Transition :=
  g.transitions.find? (·.id = id)

/-- The states by label, and by number where labels are equal. -/
def listedStates (g : Graph) : List State := g.states.mergeSort State.precedes

def outgoing (g : Graph) (id : StateId) : List Transition := g.transitions.filter (·.source = id)

def incoming (g : Graph) (id : StateId) : List Transition := g.transitions.filter (·.target = id)

def initialStates (g : Graph) : List State := g.listedStates.filter (·.initial)

/-- The state where reading begins. Of several initial states it is the one listed first. -/
def initialState? (g : Graph) : Option State := g.initialStates.head?

def acceptingStates (g : Graph) : List State := g.listedStates.filter (·.accepting)

/-- The oldest state whose circle holds a point. -/
def stateAt? (g : Graph) (p : Point) : Option State := g.states.find? (·.contains p)

/-- The symbols of transitions that read something. -/
def symbolsOf (ts : List Transition) : OrderedSet String :=
  .ofList ((ts.filter fun t => !t.isSilent).map (·.symbol))

/-! ### Labels -/

def numberedLabel (n : Nat) : String := "q" ++ toString n

def carriesLabel (g : Graph) (label : String) : Bool := g.states.any (·.label = label)

/-- The least number whose label is free. One of the first `stateCount + 1` numbers has a free
label, because each state takes only one away. -/
def freeNumber (g : Graph) : Nat :=
  ((List.range (g.stateCount + 1)).find? fun n => !g.carriesLabel (numberedLabel n)).getD
    g.stateCount

/-- The label that the next unlabelled state is given. -/
def freeLabel (g : Graph) : String := numberedLabel g.freeNumber

/-! ### Changing a graph -/

def insertState (g : Graph) (s : State) : Graph := { g with states := g.states ++ [s] }

def insertTransition (g : Graph) (t : Transition) : Graph :=
  { g with
    transitions := g.transitions ++ [t]
    alphabet := if t.isSilent then g.alphabet else g.alphabet.insert t.symbol }

/-- Makes a transition if both its ends are states of the graph. It takes the next number. -/
def addTransition (source target : StateId) (symbol : String) :
    EStateM Fault (Supply × Graph) Transition := do
  unless (← get).2.hasState source do throw (.unknownEndpoint source)
  unless (← get).2.hasState target do throw (.unknownEndpoint target)
  let id ← Supply.takeTransition
  let t : Transition := ⟨id, source, target, symbol⟩
  modify fun (supply, g) => (supply, g.insertTransition t)
  return t

/-- The graph without a state and without the transitions that touch it. -/
def withoutState (g : Graph) (id : StateId) : Graph :=
  let kept := g.transitions.filter fun t => !t.touches id
  { g with
    states := g.states.filter (·.id ≠ id)
    transitions := kept
    alphabet := symbolsOf kept }

def withoutTransition (g : Graph) (id : TransitionId) : Graph :=
  let kept := g.transitions.filter (·.id ≠ id)
  { g with transitions := kept, alphabet := symbolsOf kept }

/-- The removed state, if there was one, and the graph without it. -/
def removeState (g : Graph) (id : StateId) : Option State × Graph :=
  match g.state? id with
  | some s => (some s, g.withoutState id)
  | none => (none, g)

def removeTransition (g : Graph) (id : TransitionId) : Option Transition × Graph :=
  match g.transition? id with
  | some t => (some t, g.withoutTransition id)
  | none => (none, g)

/-- Before a state is marked initial, all states lose that mark. -/
def unmarkedFor (g : Graph) (initial : Option Bool) : Graph :=
  { g with
    states :=
      if initial = some true then g.states.map fun s => { s with initial := false } else g.states }

/-- Puts a state where the one with its number is. -/
def replaceState (g : Graph) (s : State) : Graph :=
  { g with states := g.states.map fun t => if t.id = s.id then s else t }

/-- Moves a state and sets the flags that are given. A state that becomes initial becomes the only
initial one. -/
def updateState (id : StateId) (position : Point) (initial accepting : Option Bool) :
    EStateM Fault Graph State := do
  let some s := (← get).state? id | throw (.unknownState id)
  let updated := s.redrawn position initial accepting
  modify (·.unmarkedFor initial)
  modify (·.replaceState updated)
  return updated

/-! ### Cleaning -/

/-- Whether no transition touches a state. -/
def isIsolated (g : Graph) (s : State) : Bool := !g.transitions.any (·.touches s.id)

/-- The states that cleaning removes: isolated and not initial. -/
def strayStates (g : Graph) : List State := g.states.filter fun s => g.isIsolated s && !s.initial

/-- Removes the stray states and says how many there were. -/
def clean (g : Graph) : Nat × Graph :=
  (g.strayStates.length, g.strayStates.foldl (fun h s => h.withoutState s.id) g)

end Graph

end FiniteAutomata
