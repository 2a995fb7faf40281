import FiniteAutomata.Proofs.Graph.Cleaning
import FiniteAutomata.Proofs.Language.Determinism

/-!
What cleaning does, all in all (`cleaned`). It removes the states that are not initial and that no
transition touches, and nothing else. No run from an initial state enters such a state, so the graph
accepts the same texts as before. Initial states and transitions stay, so a graph that was
deterministic still is, and a graph that was not becomes so only if no state is left. In a complete
graph every state has a transition, so nothing is removed.
-/
namespace FiniteAutomata.Graph

variable {supply : Supply} {g : Graph}

/-- What cleaning makes of a graph, and the number that it answers with. -/
structure Cleaned (g : Graph) (count : Nat) (h : Graph) : Prop where
  states_eq : h.states = g.states.filter fun s =>
    s.initial ∨ ∃ t ∈ g.transitions, t.source = s.id ∨ t.target = s.id
  count_eq : count = (g.states.filter fun s =>
    s.initial = false ∧ ∀ t ∈ g.transitions, t.source ≠ s.id ∧ t.target ≠ s.id).length
  name_eq : h.name = g.name
  transitions_eq : h.transitions = g.transitions
  alphabet_eq : h.alphabet = g.alphabet
  clean_again : h.clean = (0, h)
  accepts_iff : ∀ text, h.Accepts text ↔ g.Accepts text
  isDeterministic_eq : (h.isEmpty → g.isEmpty) → h.isDeterministic = g.isDeterministic
  of_isComplete : g.isComplete → count = 0 ∧ h = g

/-! ### States -/

theorem not_isIsolated_iff {s : State} :
    ¬g.isIsolated s ↔ ∃ t ∈ g.transitions, t.source = s.id ∨ t.target = s.id := by
  simp only [isIsolated, Transition.touches, Bool.not_eq_true', Bool.not_eq_false,
    List.any_eq_true, Bool.or_eq_true, decide_eq_true_eq]

theorem strayStates_eq (g : Graph) :
    g.strayStates = g.states.filter fun s =>
      s.initial = false ∧ ∀ t ∈ g.transitions, t.source ≠ s.id ∧ t.target ≠ s.id := by
  apply List.filter_congr
  intro s _
  rw [Bool.eq_iff_iff, decide_eq_true_eq, ← isIsolated_iff, Bool.and_eq_true, Bool.not_eq_true',
    and_comm]

theorem settledStates_eq (g : Graph) :
    g.settledStates = g.states.filter fun s =>
      s.initial ∨ ∃ t ∈ g.transitions, t.source = s.id ∨ t.target = s.id := by
  apply List.filter_congr
  intro s _
  rw [Bool.eq_iff_iff, decide_eq_true_eq, ← not_isIsolated_iff]
  cases g.isIsolated s <;> cases s.initial <;> simp

/-- Where no state is stray there is nothing to clean. -/
theorem clean_of_strayStates_eq_nil (hnone : g.strayStates = []) : g.clean = (0, g) := by
  rw [clean, hnone]
  rfl

/-- The graph with the states that cleaning leaves. -/
def settled (g : Graph) : Graph := { g with states := g.settledStates }

/-- No state that cleaning leaves is stray, because the transitions are the same. -/
theorem strayStates_settled (g : Graph) : g.settled.strayStates = [] := by
  apply List.eq_nil_iff_forall_not_mem.mpr
  intro s hs
  obtain ⟨hsettled, hisolated, hinitial⟩ := mem_strayStates.mp hs
  rcases (mem_settledStates.mp hsettled).2 with hinit | hconnected
  · exact Bool.false_ne_true (hinitial.symm.trans hinit)
  · exact hconnected hisolated

/-! ### Language -/

theorem run_settled_iff {a b : StateId} {ts : List Transition} :
    g.settled.Run a ts b ↔ g.Run a ts b := by
  have hkept : g.settled.transitions ⊆ g.transitions := List.Subset.refl _
  have hsame : g.transitions ⊆ g.settled.transitions := List.Subset.refl _
  exact ⟨Run.mono hkept, Run.mono hsame⟩

/-- A state where a run from an initial state ends is initial itself or has a transition into it. -/
theorem WellFormed.mem_settledStates_of_run (hwf : WellFormed supply g) {first last : State}
    {ts : List Transition} (hfirst : first ∈ g.states) (hinitial : first.initial)
    (hlast : last ∈ g.states) (hrun : g.Run first.id ts last.id) : last ∈ g.settledStates := by
  refine mem_settledStates.mpr ⟨hlast, ?_⟩
  rcases hrun.eq_or_entered with hid | ⟨t, ht, htarget⟩
  · rw [← hwf.state_eq hfirst hlast hid]
    exact Or.inl hinitial
  · exact Or.inr (not_isIsolated_iff.mpr ⟨t, ht, Or.inr htarget⟩)

theorem WellFormed.accepts_settled_iff (hwf : WellFormed supply g) (text : String) :
    g.settled.Accepts text ↔ g.Accepts text := by
  constructor
  · rintro ⟨first, hfirst, hinitial, last, hlast, haccepting, ts, hrun, hspelling⟩
    exact ⟨first, (mem_settledStates.mp hfirst).1, hinitial, last, (mem_settledStates.mp hlast).1,
      haccepting, ts, run_settled_iff.mp hrun, hspelling⟩
  · rintro ⟨first, hfirst, hinitial, last, hlast, haccepting, ts, hrun, hspelling⟩
    have hlast' := hwf.mem_settledStates_of_run hfirst hinitial hlast hrun
    exact ⟨first, mem_settledStates.mpr ⟨hfirst, Or.inl hinitial⟩, hinitial, last, hlast',
      haccepting, ts, run_settled_iff.mpr hrun, hspelling⟩

/-! ### Determinism and completeness -/

/-- Determinism is said of initial states and of transitions, unless there are no states. -/
theorem isDeterministic_settled (hwf : WellFormed supply g) (hwf' : WellFormed supply g.settled)
    (hkept : g.settled.states = [] → g.states = []) :
    g.settled.isDeterministic = g.isDeterministic := by
  have hstates : g.settled.states = [] ↔ g.states = [] := by
    refine ⟨hkept, fun hnone => ?_⟩
    rw [settled, settledStates, hnone, List.filter_nil]
  have hinitial (s : State) :
      s ∈ g.settled.states ∧ s.initial ↔ s ∈ g.states ∧ s.initial := by
    rw [settled, mem_settledStates, and_assoc]
    exact and_congr_right fun _ => and_iff_right_of_imp Or.inl
  rw [Bool.eq_iff_iff, hwf'.isDeterministic_iff, hwf.isDeterministic_iff]
  exact or_congr hstates (and_congr_left' (existsUnique_congr hinitial))

theorem strayStates_of_isComplete (hcomplete : g.isComplete) : g.strayStates = [] := by
  obtain ⟨-, ⟨symbol, hsymbol⟩, hmoves⟩ := isComplete_iff_moves.mp hcomplete
  apply List.eq_nil_iff_forall_not_mem.mpr
  intro s hs
  obtain ⟨hmem, hisolated, -⟩ := mem_strayStates.mp hs
  obtain ⟨t, ht, hsource, -⟩ := hmoves s hmem symbol hsymbol
  exact (isIsolated_iff.mp hisolated t ht).1 hsource

/-! ### Main statement -/

theorem cleaned (hmade : Made supply g) : Cleaned g g.clean.1 g.clean.2 := by
  have hwf := hmade.wellFormed
  have hwf' : WellFormed supply g.clean.2 := (hmade.edited .clean).wellFormed
  have hclean : g.clean = (g.strayStates.length, g.settled) := clean_eq hwf
  rw [hclean] at hwf' ⊢
  constructor
  case states_eq => exact g.settledStates_eq
  case count_eq => rw [strayStates_eq]
  case name_eq => rfl
  case transitions_eq => rfl
  case alphabet_eq => rfl
  case clean_again => exact clean_of_strayStates_eq_nil g.strayStates_settled
  case accepts_iff => exact hwf.accepts_settled_iff
  case isDeterministic_eq =>
    intro hkept
    apply isDeterministic_settled hwf hwf'
    intro hnone
    exact List.isEmpty_iff.mp (hkept (List.isEmpty_iff.mpr hnone))
  case of_isComplete =>
    intro hcomplete
    have hsame := clean_of_strayStates_eq_nil (strayStates_of_isComplete hcomplete)
    exact Prod.ext_iff.mp (hclean.symm.trans hsame)

/-- An initial state alone, an accepting state alone, and a state that only a loop touches. -/
def scattered : Supply × Graph :=
  editAll .initial .unnamed
    [.addState ⟨0, 0⟩, .updateState ⟨0⟩ ⟨0, 0⟩ (some true) (some true), .addState ⟨1, 0⟩,
      .updateState ⟨1⟩ ⟨1, 0⟩ none (some true), .addState ⟨2, 0⟩, .addTransition ⟨2⟩ ⟨2⟩ "a"]

theorem cleaned_scattered :
    Made scattered.1 scattered.2 ∧ scattered.2.stateCount = 3 ∧ scattered.2.clean.1 = 1 ∧
      Cleaned scattered.2 scattered.2.clean.1 scattered.2.clean.2 := by
  have hmade : Made scattered.1 scattered.2 := (Made.named .initial "Automate").editedAll _
  exact ⟨hmade, by decide, by decide, cleaned hmade⟩

end FiniteAutomata.Graph
