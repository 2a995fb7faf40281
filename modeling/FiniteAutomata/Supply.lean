import FiniteAutomata.Transition

/-!
The supply of numbers for states and transitions. Everything that makes states or transitions takes
their numbers from here, in order, so no number is given out twice.
-/
namespace FiniteAutomata

/-- The numbers that the next state and the next transition get. -/
structure Supply where
  states : Nat
  transitions : Nat
deriving DecidableEq, Repr

namespace Supply

def initial : Supply := ⟨0, 0⟩

def nextState (s : Supply) : StateId := ⟨s.states⟩

def nextTransition (s : Supply) : TransitionId := ⟨s.transitions⟩

def afterState (s : Supply) : Supply := { s with states := s.states + 1 }

def afterTransition (s : Supply) : Supply := { s with transitions := s.transitions + 1 }

/-- Takes the next number for a transition. -/
def takeTransition {ε σ : Type} : EStateM ε (Supply × σ) TransitionId :=
  modifyGet fun (s, rest) => (s.nextTransition, s.afterTransition, rest)

end Supply

/-- What became of building something, and the supply behind it. Numbers that a failed attempt took
are not given back. -/
structure Attempt (ε α : Type) where
  outcome : Except ε α
  supply : Supply

end FiniteAutomata
