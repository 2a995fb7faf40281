import FiniteAutomata.Graph.Basic

/-!
The table of a graph: a row for each state in the order of listing, a column for each symbol of
the alphabet, and in each cell the states reached.
-/
namespace FiniteAutomata

/-- A state as a table names it. -/
structure StateRef where
  label : String
  id : StateId
deriving DecidableEq, Repr

namespace StateRef

def ofState (s : State) : StateRef := ⟨s.label, s.id⟩

instance : Ord StateRef := ⟨compareLex (compareOn label) (compareOn id)⟩

instance : Std.TransOrd StateRef :=
  inferInstanceAs (Std.TransCmp (compareLex (compareOn label) (compareOn id)))

instance : Std.LawfulEqOrd StateRef where
  compare_self {a} := show (compare a.label a.label).then (compare a.id a.id) = .eq by simp
  eq_of_compare {a b} h := by
    have h : (compare a.label b.label).then (compare a.id b.id) = .eq := h
    rw [Ordering.then_eq_eq, Std.compare_eq_iff_eq, Std.compare_eq_iff_eq] at h
    cases a; cases b
    simp_all

end StateRef

namespace Table

structure Row where
  state : StateRef
  initial : Bool
  accepting : Bool
  cells : List (String × OrderedSet StateRef)

end Table

structure Table where
  symbols : List String
  rows : List Table.Row

namespace Table

/-- The states reached from a state on a symbol, or nothing where the table has no such cell. -/
def destinations? (t : Table) (id : StateId) (symbol : String) : Option (OrderedSet StateRef) :=
  (t.rows.find? (·.state.id = id)).bind fun row => row.cells.lookup symbol

end Table

namespace Graph

/-- The states that one transition on exactly `symbol` leads to. -/
def destinations (g : Graph) (id : StateId) (symbol : String) : OrderedSet StateRef :=
  .ofList (((g.outgoing id).filter (·.symbol = symbol)).filterMap fun t =>
    (g.state? t.target).map .ofState)

def row (g : Graph) (s : State) : Table.Row :=
  ⟨.ofState s, s.initial, s.accepting,
    g.alphabet.toList.map fun symbol => (symbol, g.destinations s.id symbol)⟩

def table (g : Graph) : Table := ⟨g.alphabet.toList, g.listedStates.map g.row⟩

end Graph

end FiniteAutomata
