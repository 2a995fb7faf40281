/-!
States: numbered, labelled, placed in the plane, and marked initial or accepting or neither.
States are listed by label and then by number (`State.precedes`).
-/
namespace FiniteAutomata

/-- The number of a state. No two states ever made share one. -/
structure StateId where
  number : Nat
deriving DecidableEq, Repr

namespace StateId

instance : Ord StateId := ⟨compareOn number⟩

instance : Std.TransOrd StateId := inferInstanceAs (Std.TransCmp (compareOn number))

instance : Std.LawfulEqOrd StateId where
  compare_self {a} := Nat.instLawfulEqOrd.compare_self (a := a.number)
  eq_of_compare {_ _} h := congrArg mk (Std.compare_eq_iff_eq.1 h)

def text (id : StateId) : String := "s" ++ toString id.number

end StateId

structure Point where
  x : Float
  y : Float

structure State where
  id : StateId
  label : String
  position : Point
  initial : Bool
  accepting : Bool

namespace State

/-- The radius of the circle that a state is drawn with. -/
def radius : Float := 30.0

/-- Whether a point lies in the circle of a state. -/
def contains (s : State) (p : Point) : Bool :=
  let dx := p.x - s.position.x
  let dy := p.y - s.position.y
  (dx * dx + dy * dy).sqrt ≤ radius

/-- A state that was moved and got the flags that are given. -/
def redrawn (s : State) (position : Point) (initial accepting : Option Bool) : State :=
  { s with
    position
    initial := initial.getD s.initial
    accepting := accepting.getD s.accepting }

/-- The order in which states are listed: by label, and by number where labels are equal. -/
def order : State → State → Ordering := compareLex (compareOn label) (compareOn id)

instance : Std.TransCmp order :=
  inferInstanceAs (Std.TransCmp (compareLex (compareOn label) (compareOn id)))

def precedes (s t : State) : Bool := (order s t).isLE

theorem precedes_total (s t : State) : precedes s t || precedes t s := by
  have h : order s t = (order t s).swap := Std.OrientedCmp.eq_swap
  simp only [precedes, h]
  cases order t s <;> rfl

theorem precedes_trans {s t u : State} (hst : precedes s t) (htu : precedes t u) :
    precedes s u :=
  Std.TransCmp.isLE_trans hst htu

end State

end FiniteAutomata
