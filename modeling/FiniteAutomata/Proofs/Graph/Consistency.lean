import FiniteAutomata.Proofs.Graph.Made
import Mathlib.Data.List.Nodup

/-!
What the views of a graph say of each other. In every well-formed graph no number is carried twice,
each transition joins two states of that graph, looking up finds exactly what is listed
(`WellFormed.consistent`), and the alphabet holds exactly the symbols that are read somewhere
(`WellFormed.mem_alphabet`).
-/
namespace FiniteAutomata

/-- What can be listed, counted and looked up. -/
structure Listings where
  states : List State
  transitions : List Transition
  stateCount : Nat
  transitionCount : Nat
  hasState : StateId → Bool
  state? : StateId → Option State
  transition? : TransitionId → Option Transition
  outgoing : StateId → List Transition
  incoming : StateId → List Transition

/-- The listings, the look-ups and the counts agree. -/
structure Listings.Consistent (l : Listings) : Prop where
  state_ids_nodup : (l.states.map (·.id)).Nodup
  transition_ids_nodup : (l.transitions.map (·.id)).Nodup
  source_listed : ∀ t ∈ l.transitions, ∃ s ∈ l.states, s.id = t.source
  target_listed : ∀ t ∈ l.transitions, ∃ s ∈ l.states, s.id = t.target
  state?_isSome_iff : ∀ id, (l.state? id).isSome ↔ id ∈ l.states.map (·.id)
  state?_eq_some_iff : ∀ id s, l.state? id = some s ↔ s ∈ l.states ∧ s.id = id
  transition?_isSome_iff : ∀ id, (l.transition? id).isSome ↔ id ∈ l.transitions.map (·.id)
  transition?_eq_some_iff : ∀ id t, l.transition? id = some t ↔ t ∈ l.transitions ∧ t.id = id
  hasState_iff_listed : ∀ id, l.hasState id ↔ id ∈ l.states.map (·.id)
  stateCount_eq : l.stateCount = l.states.length
  transitionCount_eq : l.transitionCount = l.transitions.length

namespace Graph

def listings (g : Graph) : Listings :=
  ⟨g.listedStates, g.transitions, g.stateCount, g.transitionCount, g.hasState, g.state?,
    g.transition?, g.outgoing, g.incoming⟩

namespace WellFormed

variable {supply : Supply} {g : Graph}

theorem state_ids_nodup (h : WellFormed supply g) : (g.states.map (·.id)).Nodup := by
  refine List.pairwise_map.mpr (h.states_increasing.imp ?_)
  intro s t hlt heq
  rw [heq] at hlt
  exact Nat.lt_irrefl _ hlt

theorem transition_ids_nodup (h : WellFormed supply g) : (g.transitions.map (·.id)).Nodup := by
  refine List.pairwise_map.mpr (h.transitions_increasing.imp ?_)
  intro t u hlt heq
  rw [heq] at hlt
  exact Nat.lt_irrefl _ hlt

theorem states_nodup (h : WellFormed supply g) : g.states.Nodup := h.state_ids_nodup.of_map

theorem transitions_nodup (h : WellFormed supply g) : g.transitions.Nodup :=
  h.transition_ids_nodup.of_map

theorem outgoing_nodup (h : WellFormed supply g) (id : StateId) : (g.outgoing id).Nodup :=
  h.transitions_nodup.filter _

theorem state?_eq_some_iff (h : WellFormed supply g) {id : StateId} {s : State} :
    g.state? id = some s ↔ s ∈ g.states ∧ s.id = id :=
  find?_key_eq_some_iff h.state_ids_nodup id s

theorem transition?_eq_some_iff (h : WellFormed supply g) {id : TransitionId} {t : Transition} :
    g.transition? id = some t ↔ t ∈ g.transitions ∧ t.id = id :=
  find?_key_eq_some_iff h.transition_ids_nodup id t

/-- Two states of a graph with one number are one state. -/
theorem state_eq (h : WellFormed supply g) {s t : State} (hs : s ∈ g.states) (ht : t ∈ g.states)
    (hid : s.id = t.id) : s = t := by
  have hs' := h.state?_eq_some_iff.mpr ⟨hs, hid⟩
  have ht' := h.state?_eq_some_iff.mpr ⟨ht, rfl⟩
  exact Option.some.inj (hs'.symm.trans ht')

theorem transition_eq (h : WellFormed supply g) {t u : Transition} (ht : t ∈ g.transitions)
    (hu : u ∈ g.transitions) (hid : t.id = u.id) : t = u := by
  have ht' := h.transition?_eq_some_iff.mpr ⟨ht, hid⟩
  have hu' := h.transition?_eq_some_iff.mpr ⟨hu, rfl⟩
  exact Option.some.inj (ht'.symm.trans hu')

theorem state_id_ne_nextState (h : WellFormed supply g) {s : State} (hs : s ∈ g.states) :
    s.id ≠ supply.nextState := by
  intro heq
  have hlt := h.state_given_out s hs
  rw [heq] at hlt
  exact Nat.lt_irrefl _ hlt

theorem transition_id_ne_nextTransition (h : WellFormed supply g) {t : Transition}
    (ht : t ∈ g.transitions) : t.id ≠ supply.nextTransition := by
  intro heq
  have hlt := h.transition_given_out t ht
  rw [heq] at hlt
  exact Nat.lt_irrefl _ hlt

/-- The alphabet holds the symbols that are read somewhere. -/
theorem mem_alphabet (h : WellFormed supply g) (symbol : String) :
    symbol ∈ g.alphabet ↔
      (∃ t ∈ g.transitions, t.symbol = symbol) ∧
        symbol ≠ "" ∧ symbol ≠ "ε" ∧ symbol ≠ "epsilon" := by
  rw [h.alphabet_eq, mem_symbolsOf]
  constructor
  · rintro ⟨t, ht, hread, rfl⟩
    exact ⟨⟨t, ht, rfl⟩, isSilent_eq_false_iff.mp hread⟩
  · rintro ⟨⟨t, ht, rfl⟩, hmarks⟩
    exact ⟨t, ht, isSilent_eq_false_iff.mpr hmarks, rfl⟩

/-- A graph is known by its name, its states and its transitions. -/
theorem graph_eq {later : Supply} {h : Graph} (hg : WellFormed supply g) (hh : WellFormed later h)
    (hname : g.name = h.name) (hstates : g.states = h.states)
    (htransitions : g.transitions = h.transitions) : g = h := by
  have halphabet : g.alphabet = h.alphabet := by
    rw [hg.alphabet_eq, hh.alphabet_eq, htransitions]
  exact Graph.ext hname hstates htransitions halphabet

theorem consistent (h : WellFormed supply g) : g.listings.Consistent where
  state_ids_nodup := (g.listedStates_perm.map _).nodup_iff.mpr h.state_ids_nodup
  transition_ids_nodup := h.transition_ids_nodup
  source_listed t ht := by
    obtain ⟨s, hs, hid⟩ := hasState_iff.mp (h.source_present t ht)
    exact ⟨s, mem_listedStates.mpr hs, hid⟩
  target_listed t ht := by
    obtain ⟨s, hs, hid⟩ := hasState_iff.mp (h.target_present t ht)
    exact ⟨s, mem_listedStates.mpr hs, hid⟩
  state?_isSome_iff id := by
    simp only [listings, state?, List.find?_isSome, decide_eq_true_eq, List.mem_map,
      mem_listedStates]
  state?_eq_some_iff id s := by
    simp only [listings, h.state?_eq_some_iff, mem_listedStates]
  transition?_isSome_iff id := by
    simp only [listings, transition?, List.find?_isSome, decide_eq_true_eq, List.mem_map]
  transition?_eq_some_iff id t := h.transition?_eq_some_iff
  hasState_iff_listed id := by
    simp only [listings, hasState_iff, List.mem_map, mem_listedStates]
  stateCount_eq := g.listedStates_perm.length_eq.symm
  transitionCount_eq := rfl

end WellFormed

end Graph
end FiniteAutomata
