import FiniteAutomata.Proofs.Graph.Made

/-!
The course of a graph, turn by turn: at each turn the graph is changed, or other graphs take numbers
from the supply. What no change of a course spoils is still so at its end (`course_keeps`), and
every course of a graph that can be made leads to one that can be made (`Made.course`).
-/
namespace FiniteAutomata

/-- The supply after so many numbers were taken from it. -/
def Supply.taken (supply : Supply) (states transitions : Nat) : Supply :=
  ⟨supply.states + states, supply.transitions + transitions⟩

theorem Supply.le_taken (supply : Supply) (states transitions : Nat) :
    supply ≤ supply.taken states transitions :=
  ⟨Nat.le_add_right _ _, Nat.le_add_right _ _⟩

namespace Graph

/-- What happens next: the graph is changed, or others take so many numbers. -/
inductive Turn
  | change (e : Edit)
  | elsewhere (states transitions : Nat)

def turn (supply : Supply) (g : Graph) : Turn → Supply × Graph
  | .change e => ((g.edit supply e).supply, (g.edit supply e).graph)
  | .elsewhere states transitions => (supply.taken states transitions, g)

/-- The supply and the graph after the turns, one after the other. -/
def course (supply : Supply) (g : Graph) : List Turn → Supply × Graph
  | [] => (supply, g)
  | t :: ts => course (turn supply g t).1 (turn supply g t).2 ts

/-- What the changes of a course and the taking of numbers keep holds at its end. -/
theorem course_keeps {P : Supply → Graph → Prop} {ts : List Turn}
    (hchange : ∀ supply g e, .change e ∈ ts → P supply g →
      P (g.edit supply e).supply (g.edit supply e).graph)
    (hwait : ∀ supply later g, supply ≤ later → P supply g → P later g)
    {supply : Supply} {g : Graph} (hstart : P supply g) :
    P (course supply g ts).1 (course supply g ts).2 := by
  induction ts generalizing supply g with
  | nil => exact hstart
  | cons t ts ih =>
    refine ih (fun supply g e he => hchange supply g e (List.mem_cons_of_mem t he)) ?_
    cases t with
    | change e => exact hchange supply g e (List.mem_cons_self ..) hstart
    | elsewhere states transitions =>
      exact hwait supply _ g (supply.le_taken states transitions) hstart

theorem Made.course {supply : Supply} {g : Graph} (hmade : Made supply g) (ts : List Turn) :
    Made (course supply g ts).1 (course supply g ts).2 :=
  course_keeps (fun _ _ e _ h => h.edited e) (fun _ _ _ hle h => h.kept hle) hmade

/-- What is known of a graph by itself does not depend on the numbers that others take. -/
theorem WellFormed.course_keeps {P : Graph → Prop} {ts : List Turn} {supply : Supply} {g : Graph}
    (hwf : WellFormed supply g)
    (hchange : ∀ later h e, .change e ∈ ts → WellFormed later h → P h →
      P (h.edit later e).graph)
    (hstart : P g) :
    WellFormed (course supply g ts).1 (course supply g ts).2 ∧ P (course supply g ts).2 :=
  Graph.course_keeps (P := fun later h => WellFormed later h ∧ P h)
    (fun later h e he hkept =>
      ⟨(strokes_edit h later e).wellFormed hkept.1, hchange later h e he hkept.1 hkept.2⟩)
    (fun _ _ _ hle hkept => ⟨hkept.1.wait hle, hkept.2⟩) ⟨hwf, hstart⟩

end Graph

end FiniteAutomata
