import FiniteAutomata.Analysis.Table
import FiniteAutomata.Proofs.Graph.Drawing
import FiniteAutomata.Proofs.Mirror.Report
import FiniteAutomata.Proofs.Placement.Edit

/-!
Views and places. Two graphs that are the same without places show the same in every view that does
not ask where a state lies (`sameButPlaces`): in lists, tables, reports and DOT texts, in the label
of the next state and in the number of states to be cleaned away.
-/
namespace FiniteAutomata.Graph

/-- What is known of two graphs is the same, but for the places of their states. -/
structure SameButPlaces (g h : Graph) : Prop where
  name_eq : h.name = g.name
  states_eq : h.listedStates.map (fun s => (s.id, s.label, s.initial, s.accepting)) =
    g.listedStates.map fun s => (s.id, s.label, s.initial, s.accepting)
  transitions_eq : h.transitions = g.transitions
  alphabet_eq : h.alphabet = g.alphabet
  freeLabel_eq : h.freeLabel = g.freeLabel
  table_eq : h.table = g.table
  report_eq : h.report = g.report
  dot_eq : h.dot = g.dot
  cleaned_eq : h.clean.1 = g.clean.1

variable (g : Graph)

theorem row_unplaced (s : State) : g.unplaced.row s.unplaced = g.row s := by
  have hdestinations (symbol : String) :
      g.unplaced.destinations s.id symbol = g.destinations s.id symbol := by
    simp only [destinations, state?_unplaced, Option.map_map]
    rfl
  simp only [row, State.unplaced, hdestinations]
  rfl

theorem table_unplaced : g.unplaced.table = g.table := by
  have hrows : g.unplaced.row ∘ State.unplaced = g.row := funext g.row_unplaced
  rw [table, table, listedStates_unplaced, List.map_map, hrows]
  rfl

theorem drawing_unplaced : g.unplaced.drawing = g.drawing := by
  simp only [drawing, initialStates, listedStates_unplaced, List.filter_map, List.map_map]
  rfl

/-- A graph shows what it shows without places. -/
theorem mirrors_unplaced : Mirrors id g g.unplaced where
  name_eq := rfl
  listed := by
    rw [listedStates_unplaced, List.forall₂_map_right_iff, List.forall₂_same]
    exact fun _ _ => ⟨rfl, rfl, rfl, rfl⟩
  arrows := List.Perm.refl _
  injective := Set.injOn_id _

variable {g} {h : Graph} {supply later : Supply}

theorem report_unplaced (hg : WellFormed supply g) : g.unplaced.report = g.report :=
  g.mirrors_unplaced.report_eq hg (hg.redraw fun _ => rfl)

/-- Graphs that are the same without places differ in nothing else. -/
theorem sameButPlaces (hg : WellFormed supply g) (hh : WellFormed later h)
    (heq : h.unplaced = g.unplaced) : SameButPlaces g h where
  name_eq := show h.unplaced.name = g.unplaced.name by rw [heq]
  states_eq := by
    have hmarks (k : Graph) :
        k.listedStates.map (fun s => (s.id, s.label, s.initial, s.accepting)) =
          k.unplaced.listedStates.map fun s => (s.id, s.label, s.initial, s.accepting) := by
      rw [listedStates_unplaced, List.map_map]
      rfl
    rw [hmarks h, heq, ← hmarks g]
  transitions_eq := show h.unplaced.transitions = g.unplaced.transitions by rw [heq]
  alphabet_eq := show h.unplaced.alphabet = g.unplaced.alphabet by rw [heq]
  freeLabel_eq := by rw [← h.freeLabel_unplaced, heq, freeLabel_unplaced]
  table_eq := by rw [← h.table_unplaced, heq, table_unplaced]
  report_eq := by rw [← report_unplaced hh, heq, report_unplaced hg]
  dot_eq := by rw [dot_eq_text, dot_eq_text, ← h.drawing_unplaced, heq, drawing_unplaced]
  cleaned_eq := by
    have hcount (k : Graph) : k.unplaced.clean.1 = k.clean.1 := by rw [clean_unplaced]
    rw [← hcount h, heq, hcount g]

end FiniteAutomata.Graph
