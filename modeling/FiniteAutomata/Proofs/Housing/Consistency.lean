import FiniteAutomata.Proofs.Housing.Shadow
import FiniteAutomata.Proofs.Housing.Shelf

/-!
Consistent views, wherever a graph is kept. In every graph that can be made what is listed, what is
counted and what is looked up agree, and in every arena the tables stay in step with the slots
(`made_consistent`). The alphabet is kept up when a transition comes and collected anew when
something goes, and it always holds exactly the symbols that are read somewhere
(`mem_alphabet_iff`).
-/
namespace FiniteAutomata.Graph

variable {supply : Supply} {g : Graph}

/-- The views of a graph agree, and in an arena they are built on tables that are in step with
it. -/
theorem made_consistent (h : Made supply g) :
    g.listings.Consistent ∧
      ∀ A : Arena State Transition, A.Lawful →
        (∃ a : Housed A, Housed.Shadows A supply g a) ∧
          ∀ a : Housed A, Housed.Shadows A supply g a → a.InStep ∧ a.listings.Consistent := by
  have hwf := h.wellFormed
  refine ⟨hwf.consistent, fun A hA => ⟨Housed.exists_shadow hA hwf, fun a ha => ?_⟩⟩
  have hkept := ha.keeps hA
  exact ⟨hkept.inStep, hkept.listings_eq hA hwf ▸ hwf.consistent⟩

/-- Edits by which a state goes that a loop and two parallel transitions touch, after an edit that
is refused and before one that cleans. -/
def cascade : List Edit :=
  let origin : Point := ⟨0, 0⟩
  [.addState origin, .addState origin, .addLabeledState "q0" origin,
    .updateState ⟨0⟩ origin (some true) none,
    .addTransition ⟨0⟩ ⟨1⟩ "a", .addTransition ⟨0⟩ ⟨1⟩ "a", .addTransition ⟨1⟩ ⟨1⟩ "b",
    .addTransition ⟨0⟩ ⟨2⟩ "c", .addTransition ⟨0⟩ ⟨7⟩ "d", .addTransition ⟨2⟩ ⟨0⟩ "ε",
    .removeState ⟨1⟩, .removeState ⟨1⟩, .removeTransition ⟨9⟩, .clean]

/-- The graph and the supply that these edits lead to. -/
def cascaded : Supply × Graph := editAll .initial .unnamed cascade

def cascadedHouse : Housed (shelves State Transition) :=
  (Housed.editAll .initial (.named "Automate") cascade).2

theorem made_cascaded : Made cascaded.1 cascaded.2 := (Made.named ..).editedAll cascade

theorem shadows_cascaded :
    Housed.Shadows (shelves State Transition) cascaded.1 cascaded.2 cascadedHouse :=
  (Housed.Shadows.named ..).editedAll (lawful_shelves ..) cascade

/-- No slot is left of the loop and the parallel transitions. -/
theorem made_consistent_cascaded :
    Made cascaded.1 cascaded.2 ∧ cascaded.2.transitions.map (·.symbol) = ["c", "ε"] ∧
      cascaded.2.listings.Consistent ∧
      [⟨0⟩, ⟨1⟩, ⟨2⟩, ⟨3⟩, ⟨4⟩].map cascadedHouse.transitionSlot =
        [none, none, none, some 3, some 4] ∧
      cascadedHouse.InStep ∧ cascadedHouse.listings.Consistent := by
  obtain ⟨hconsistent, hhoused⟩ := made_consistent made_cascaded
  exact ⟨made_cascaded, by decide, hconsistent, by decide,
    (hhoused _ (lawful_shelves ..)).2 _ shadows_cascaded⟩

/-- The alphabet holds exactly the symbols on transitions that are no mark of the empty word, and so
it does in an arena. -/
theorem mem_alphabet_iff (h : Made supply g) (symbol : String) :
    (symbol ∈ g.alphabet ↔
      (∃ t ∈ g.transitions, t.symbol = symbol) ∧
        symbol ≠ "" ∧ symbol ≠ "ε" ∧ symbol ≠ "epsilon") ∧
      ∀ A : Arena State Transition, A.Lawful →
        (∃ a : Housed A, Housed.Shadows A supply g a) ∧
          ∀ a : Housed A, Housed.Shadows A supply g a →
            (symbol ∈ a.alphabet ↔
              (∃ t ∈ a.transitions, t.symbol = symbol) ∧
                symbol ≠ "" ∧ symbol ≠ "ε" ∧ symbol ≠ "epsilon") := by
  have hwf := h.wellFormed
  refine ⟨hwf.mem_alphabet symbol, fun A hA => ⟨Housed.exists_shadow hA hwf, fun a ha => ?_⟩⟩
  have hkept := ha.keeps hA
  rw [hkept.alphabet_eq, hkept.transitions_eq hA hwf]
  exact hwf.mem_alphabet symbol

theorem mem_alphabet_iff_cascaded :
    Made cascaded.1 cascaded.2 ∧ "c" ∈ cascaded.2.alphabet ∧ ¬"a" ∈ cascaded.2.alphabet ∧
      "c" ∈ cascadedHouse.alphabet ∧ ¬"a" ∈ cascadedHouse.alphabet := by
  obtain ⟨hkept, hhoused⟩ := mem_alphabet_iff made_cascaded "c"
  obtain ⟨hgone, hhoused'⟩ := mem_alphabet_iff made_cascaded "a"
  have hshelves := lawful_shelves State Transition
  have hkept' := (hhoused _ hshelves).2 _ shadows_cascaded
  have hgone' := (hhoused' _ hshelves).2 _ shadows_cascaded
  have htransitions : cascadedHouse.transitions = cascaded.2.transitions :=
    (shadows_cascaded.keeps hshelves).transitions_eq hshelves made_cascaded.wellFormed
  rw [htransitions] at hkept' hgone'
  have hread : (∃ t ∈ cascaded.2.transitions, t.symbol = "c") ∧
      "c" ≠ "" ∧ "c" ≠ "ε" ∧ "c" ≠ "epsilon" := by decide
  have hunread : ¬∃ t ∈ cascaded.2.transitions, t.symbol = "a" := by decide
  exact ⟨made_cascaded, hkept.mpr hread, fun ha => hunread (hgone.mp ha).1, hkept'.mpr hread,
    fun ha => hunread (hgone'.mp ha).1⟩

end FiniteAutomata.Graph
