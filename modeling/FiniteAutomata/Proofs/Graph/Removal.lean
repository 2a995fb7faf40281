import FiniteAutomata.Proofs.Graph.Initial

/-!
Removals in a row. A call takes away what it names, and a state takes the transitions that touch it
along, so what is left after a row of calls is what none of them has named or touched
(`editAll_removals`). Only what the calls name matters for that, not in which order they name it,
nor how often (`removed`).
-/
namespace FiniteAutomata.Graph

variable {supply : Supply} {g : Graph}

/-- A call that removes a state or a transition. -/
inductive Removal
  | state (id : StateId)
  | transition (id : TransitionId)
deriving DecidableEq

def Removal.edit : Removal → Edit
  | .state id => .removeState id
  | .transition id => .removeTransition id

/-- What is left of a graph after a row of calls, and what one more call would answer. -/
structure Removed (supply : Supply) (g : Graph) (rs : List Removal) (h : Graph) : Prop where
  name_eq : h.name = g.name
  states_eq : h.states = g.states.filter fun s => .state s.id ∉ rs
  transitions_eq : h.transitions = g.transitions.filter fun t =>
    .transition t.id ∉ rs ∧ .state t.source ∉ rs ∧ .state t.target ∉ rs
  mem_alphabet : ∀ symbol, symbol ∈ h.alphabet ↔
    (∃ t ∈ h.transitions, t.symbol = symbol) ∧ symbol ≠ "" ∧ symbol ≠ "ε" ∧ symbol ≠ "epsilon"
  state_answer : ∀ id, ∃ found,
    (h.edit supply (Removal.state id).edit).answer = .ok (.removedState found) ∧
      ∀ s, found = some s ↔ s ∈ h.states ∧ s.id = id
  transition_answer : ∀ id, ∃ found,
    (h.edit supply (Removal.transition id).edit).answer = .ok (.removedTransition found) ∧
      ∀ t, found = some t ↔ t ∈ h.transitions ∧ t.id = id

/-- The graph without what the calls name and without the transitions at states that they name. -/
def without (g : Graph) (rs : List Removal) : Graph :=
  let kept := g.transitions.filter fun t =>
    .transition t.id ∉ rs ∧ .state t.source ∉ rs ∧ .state t.target ∉ rs
  { g with
    states := g.states.filter fun s => .state s.id ∉ rs
    transitions := kept
    alphabet := symbolsOf kept }

theorem mem_transitions_without {rs : List Removal} {t : Transition} :
    t ∈ (g.without rs).transitions ↔ t ∈ g.transitions ∧
      .transition t.id ∉ rs ∧ .state t.source ∉ rs ∧ .state t.target ∉ rs := by
  rw [without, List.mem_filter, decide_eq_true_eq]

theorem hasState_without {rs : List Removal} {id : StateId} (h : g.hasState id)
    (hid : .state id ∉ rs) : (g.without rs).hasState id := by
  obtain ⟨s, hs, rfl⟩ := hasState_iff.mp h
  exact hasState_iff.mpr ⟨s, List.mem_filter.mpr ⟨hs, decide_eq_true hid⟩, rfl⟩

theorem wellFormed_without (hwf : WellFormed supply g) (rs : List Removal) :
    WellFormed supply (g.without rs) where
  states_increasing := hwf.states_increasing.sublist List.filter_sublist
  transitions_increasing := hwf.transitions_increasing.sublist List.filter_sublist
  state_given_out s hs := hwf.state_given_out s (List.mem_filter.mp hs).1
  transition_given_out t ht := hwf.transition_given_out t (List.mem_filter.mp ht).1
  source_present t ht := by
    obtain ⟨hmem, -, hsource, -⟩ := mem_transitions_without.mp ht
    exact hasState_without (hwf.source_present t hmem) hsource
  target_present t ht := by
    obtain ⟨hmem, -, -, htarget⟩ := mem_transitions_without.mp ht
    exact hasState_without (hwf.target_present t hmem) htarget
  alphabet_eq := rfl

/-! ### One call -/

theorem name_removeState (g : Graph) (id : StateId) : (g.removeState id).2.name = g.name := by
  unfold removeState
  split <;> rfl

theorem name_removeTransition (g : Graph) (id : TransitionId) :
    (g.removeTransition id).2.name = g.name := by
  unfold removeTransition
  split <;> rfl

/-- One call takes away what it names, whether that is there or not. -/
theorem WellFormed.graph_edit_removal (hwf : WellFormed supply g) (r : Removal) :
    (g.edit supply r.edit).graph = g.without [r] := by
  have hedited := (strokes_edit g supply r.edit).wellFormed hwf
  refine hedited.graph_eq (wellFormed_without hwf [r]) ?_ ?_ ?_
  · cases r with
    | state id => exact g.name_removeState id
    | transition id => exact g.name_removeTransition id
  · cases r with
    | state id =>
      rw [Removal.edit, edit, states_removeState, without]
      simp
    | transition id =>
      rw [Removal.edit, edit, states_removeTransition, without]
      simp
  · cases r with
    | state id =>
      rw [Removal.edit, edit, transitions_removeState hwf, without]
      simp [Transition.touches]
    | transition id =>
      rw [Removal.edit, edit, transitions_removeTransition, without]
      simp

theorem supply_edit_removal (r : Removal) : (g.edit supply r.edit).supply = supply := by
  cases r <;> rfl

/-! ### Calls in a row -/

theorem WellFormed.without_nil (hwf : WellFormed supply g) : g.without [] = g := by
  refine (wellFormed_without hwf []).graph_eq hwf rfl ?_ ?_
  · rw [Graph.without]
    simp
  · rw [Graph.without]
    simp

/-- What a call leaves and the others leave of that is what all of them leave. -/
theorem WellFormed.without_without (hwf : WellFormed supply g) (r : Removal)
    (rs : List Removal) : (g.without [r]).without rs = g.without (r :: rs) := by
  have hfirst := wellFormed_without hwf [r]
  refine (wellFormed_without hfirst rs).graph_eq (wellFormed_without hwf (r :: rs)) rfl ?_ ?_
  · simp only [Graph.without, List.filter_filter]
    apply List.filter_congr
    intro s _
    rw [← Bool.decide_and, decide_eq_decide]
    grind
  · simp only [Graph.without, List.filter_filter]
    apply List.filter_congr
    intro t _
    rw [← Bool.decide_and, decide_eq_decide]
    grind

/-- A row of calls leaves what none of them takes away. -/
theorem WellFormed.editAll_removals (hwf : WellFormed supply g) (rs : List Removal) :
    editAll supply g (rs.map (·.edit)) = (supply, g.without rs) := by
  induction rs generalizing g with
  | nil => rw [hwf.without_nil, List.map_nil, editAll]
  | cons r rs ih =>
    rw [List.map_cons, editAll, supply_edit_removal, hwf.graph_edit_removal r,
      ih (wellFormed_without hwf [r]), hwf.without_without]

/-- What is left depends on the calls only through what they name. -/
theorem without_congr {rs rs' : List Removal} (hsame : ∀ r, r ∈ rs' ↔ r ∈ rs) :
    g.without rs' = g.without rs := by
  simp only [without, hsame]

/-! ### Answers -/

theorem fst_removeState (g : Graph) (id : StateId) : (g.removeState id).1 = g.state? id := by
  rw [removeState]
  cases g.state? id <;> rfl

theorem fst_removeTransition (g : Graph) (id : TransitionId) :
    (g.removeTransition id).1 = g.transition? id := by
  rw [removeTransition]
  cases g.transition? id <;> rfl

theorem answer_removeState (g : Graph) (supply : Supply) (id : StateId) :
    (g.edit supply (.removeState id)).answer = .ok (.removedState (g.state? id)) := by
  rw [← fst_removeState]
  rfl

theorem answer_removeTransition (g : Graph) (supply : Supply) (id : TransitionId) :
    (g.edit supply (.removeTransition id)).answer =
      .ok (.removedTransition (g.transition? id)) := by
  rw [← fst_removeTransition]
  rfl

/-! ### Main statement -/

theorem WellFormed.removed_without (hwf : WellFormed supply g) (rs : List Removal) :
    Removed supply g rs (g.without rs) := by
  have hleft := wellFormed_without hwf rs
  constructor
  case name_eq => rfl
  case states_eq => rfl
  case transitions_eq => rfl
  case mem_alphabet => exact hleft.mem_alphabet
  case state_answer =>
    exact fun id => ⟨_, answer_removeState _ _ id, fun _ => hleft.state?_eq_some_iff⟩
  case transition_answer =>
    exact fun id => ⟨_, answer_removeTransition _ _ id, fun _ => hleft.transition?_eq_some_iff⟩

/-- Calls in any order, made any number of times, leave the same. -/
theorem removed (hmade : Made supply g) (rs : List Removal) :
    ∃ h, Removed supply g rs h ∧
      ∀ rs' : List Removal, (∀ r, r ∈ rs' ↔ r ∈ rs) →
        editAll supply g (rs'.map (·.edit)) = (supply, h) := by
  have hwf := hmade.wellFormed
  refine ⟨g.without rs, hwf.removed_without rs, fun rs' hsame => ?_⟩
  rw [hwf.editAll_removals, without_congr hsame]

/-- Three states, one with a loop, and a way from the one to the next. -/
def bundle : Supply × Graph :=
  editAll .initial .unnamed
    [.addState ⟨0, 0⟩, .addState ⟨1, 0⟩, .addState ⟨2, 0⟩, .addTransition ⟨0⟩ ⟨1⟩ "a",
      .addTransition ⟨1⟩ ⟨1⟩ "b", .addTransition ⟨2⟩ ⟨0⟩ "c", .addTransition ⟨1⟩ ⟨2⟩ "c"]

/-- A transition that goes before its state does, one that has gone with it, and a state that is not
there. -/
def unbundling : List Removal :=
  [.transition ⟨0⟩, .state ⟨1⟩, .transition ⟨1⟩, .state ⟨9⟩, .state ⟨1⟩]

theorem removed_bundle :
    Made bundle.1 bundle.2 ∧
      (∀ r, r ∈ unbundling.reverse ++ unbundling ↔ r ∈ unbundling) ∧
      ∃ h, Removed bundle.1 bundle.2 unbundling h ∧ h.alphabet = .ofList ["c"] ∧
        editAll bundle.1 bundle.2 ((unbundling.reverse ++ unbundling).map (·.edit)) =
          (bundle.1, h) := by
  have hmade : Made bundle.1 bundle.2 := (Made.named .initial "Automate").editedAll _
  have hsame (r : Removal) : r ∈ unbundling.reverse ++ unbundling ↔ r ∈ unbundling := by
    simp
  obtain ⟨h, hremoved, hrows⟩ := removed hmade unbundling
  have halphabet : (editAll bundle.1 bundle.2 (unbundling.map (·.edit))).2.alphabet =
      .ofList ["c"] := by decide +kernel
  rw [hrows unbundling fun _ => Iff.rfl] at halphabet
  exact ⟨hmade, hsame, h, hremoved, halphabet, hrows _ hsame⟩

end FiniteAutomata.Graph
