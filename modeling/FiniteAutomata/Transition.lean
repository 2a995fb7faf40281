import FiniteAutomata.State

/-!
Transitions: numbered arrows from state to state, each with a symbol. Three symbols mark a move
that reads nothing (`isEpsilon`).
-/
namespace FiniteAutomata

/-- The number of a transition. No two transitions ever made share one. -/
structure TransitionId where
  number : Nat
deriving DecidableEq, Repr

/-- The symbol under which a move that reads nothing is shown. -/
def epsilon : String := "ε"

/-- Whether a symbol stands for the empty word. -/
def isEpsilon (symbol : String) : Bool :=
  symbol = "" || symbol = epsilon || symbol = "epsilon"

structure Transition where
  id : TransitionId
  source : StateId
  target : StateId
  symbol : String
deriving DecidableEq, Repr

namespace Transition

def isSilent (t : Transition) : Bool := isEpsilon t.symbol

def isLoop (t : Transition) : Bool := t.source = t.target

/-- Whether the transition begins or ends at a state. -/
def touches (t : Transition) (id : StateId) : Bool := t.source = id || t.target = id

/-- The symbol as it is drawn. -/
def shownSymbol (t : Transition) : String := if t.isSilent then epsilon else t.symbol

end Transition

end FiniteAutomata
