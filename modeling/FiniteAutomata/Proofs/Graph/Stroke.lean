import FiniteAutomata.Proofs.Graph.Listing
import FiniteAutomata.Supply
import Mathlib.Logic.Relation
import Mathlib.Order.Basic

/-!
Strokes, the smallest changes to a graph and the supply of numbers. Whatever makes or changes a
graph is a row of strokes, so a law of all graphs is proved once for each stroke. The law proved
here is `WellFormed`: numbers rise in the order of making and were all given out, the ends of a
transition are states of the same graph, and the alphabet is that of the transitions.
-/
namespace FiniteAutomata

/-- A supply comes behind another if it has given out at least as many numbers of either kind. -/
instance : Preorder Supply where
  le a b := a.states ≤ b.states ∧ a.transitions ≤ b.transitions
  le_refl a := ⟨Nat.le_refl a.states, Nat.le_refl a.transitions⟩
  le_trans _ _ _ hab hbc := ⟨Nat.le_trans hab.1 hbc.1, Nat.le_trans hab.2 hbc.2⟩

theorem Supply.le_afterState (s : Supply) : s ≤ s.afterState := ⟨Nat.le_succ _, Nat.le_refl _⟩

theorem Supply.le_afterTransition (s : Supply) : s ≤ s.afterTransition :=
  ⟨Nat.le_refl _, Nat.le_succ _⟩

namespace Graph

/-- One smallest change. A graph may also be left alone, and a copy of it kept, while others take
numbers from the supply (`wait`). -/
inductive Stroke : Supply × Graph → Supply × Graph → Prop
  | wait {supply later : Supply} {g : Graph} (hle : supply ≤ later) :
      Stroke (supply, g) (later, g)
  | rename {supply : Supply} {g : Graph} (name : String) :
      Stroke (supply, g) (supply, g.rename name)
  | place {supply : Supply} {g : Graph} (s : State) (hid : s.id = supply.nextState) :
      Stroke (supply, g) (supply.afterState, g.insertState s)
  | join {supply : Supply} {g : Graph} (source target : StateId) (symbol : String)
      (hsource : g.hasState source) (htarget : g.hasState target) :
      Stroke (supply, g) (supply.afterTransition,
        g.insertTransition ⟨supply.nextTransition, source, target, symbol⟩)
  | redraw {supply : Supply} {g : Graph} (f : State → State) (hf : ∀ s, (f s).id = s.id) :
      Stroke (supply, g) (supply, { g with states := g.states.map f })
  | dropState {supply : Supply} {g : Graph} (id : StateId) :
      Stroke (supply, g) (supply, g.withoutState id)
  | dropTransition {supply : Supply} {g : Graph} (id : TransitionId) :
      Stroke (supply, g) (supply, g.withoutTransition id)

/-- A row of strokes. -/
abbrev Strokes : Supply × Graph → Supply × Graph → Prop := Relation.ReflTransGen Stroke

/-- What is true of every graph, given the supply that its numbers came from. -/
structure WellFormed (supply : Supply) (g : Graph) : Prop where
  states_increasing : g.states.Pairwise fun s t => s.id.number < t.id.number
  transitions_increasing : g.transitions.Pairwise fun t u => t.id.number < u.id.number
  state_given_out : ∀ s ∈ g.states, s.id.number < supply.states
  transition_given_out : ∀ t ∈ g.transitions, t.id.number < supply.transitions
  source_present : ∀ t ∈ g.transitions, g.hasState t.source
  target_present : ∀ t ∈ g.transitions, g.hasState t.target
  alphabet_eq : g.alphabet = symbolsOf g.transitions

theorem wellFormed_named (supply : Supply) (name : String) : WellFormed supply (named name) where
  states_increasing := List.Pairwise.nil
  transitions_increasing := List.Pairwise.nil
  state_given_out _ hs := absurd hs List.not_mem_nil
  transition_given_out _ ht := absurd ht List.not_mem_nil
  source_present _ ht := absurd ht List.not_mem_nil
  target_present _ ht := absurd ht List.not_mem_nil
  alphabet_eq := rfl

namespace WellFormed

variable {supply : Supply} {g : Graph}

theorem wait (h : WellFormed supply g) {later : Supply} (hle : supply ≤ later) :
    WellFormed later g :=
  { h with
    state_given_out := fun s hs => Nat.lt_of_lt_of_le (h.state_given_out s hs) hle.1
    transition_given_out := fun t ht => Nat.lt_of_lt_of_le (h.transition_given_out t ht) hle.2 }

theorem rename (h : WellFormed supply g) (name : String) : WellFormed supply (g.rename name) :=
  { h with }

/-- A state with the next number comes behind all others. -/
theorem insertState (h : WellFormed supply g) (s : State) (hid : s.id = supply.nextState) :
    WellFormed supply.afterState (g.insertState s) where
  states_increasing := by
    refine List.pairwise_append.mpr ⟨h.states_increasing, List.pairwise_singleton .., ?_⟩
    intro t ht u hu
    rw [List.mem_singleton.mp hu, hid]
    exact h.state_given_out t ht
  transitions_increasing := h.transitions_increasing
  state_given_out t ht := by
    rcases List.mem_append.mp ht with ht | ht
    · exact Nat.lt_succ_of_lt (h.state_given_out t ht)
    · rw [List.mem_singleton.mp ht, hid]
      exact Nat.lt_succ_self _
  transition_given_out := h.transition_given_out
  source_present t ht := hasState_insertState s (h.source_present t ht)
  target_present t ht := hasState_insertState s (h.target_present t ht)
  alphabet_eq := h.alphabet_eq

/-- A transition with the next number comes behind all others, and its symbol is all that the
alphabet may gain. -/
theorem insertTransition (h : WellFormed supply g) {source target : StateId} (symbol : String)
    (hsource : g.hasState source) (htarget : g.hasState target) :
    WellFormed supply.afterTransition
      (g.insertTransition ⟨supply.nextTransition, source, target, symbol⟩) where
  states_increasing := h.states_increasing
  transitions_increasing := by
    refine List.pairwise_append.mpr ⟨h.transitions_increasing, List.pairwise_singleton .., ?_⟩
    intro t ht u hu
    rw [List.mem_singleton.mp hu]
    exact h.transition_given_out t ht
  state_given_out := h.state_given_out
  transition_given_out t ht := by
    rcases List.mem_append.mp ht with ht | ht
    · exact Nat.lt_succ_of_lt (h.transition_given_out t ht)
    · rw [List.mem_singleton.mp ht]
      exact Nat.lt_succ_self _
  source_present t ht := by
    rcases List.mem_append.mp ht with ht | ht
    · exact h.source_present t ht
    · rw [List.mem_singleton.mp ht]
      exact hsource
  target_present t ht := by
    rcases List.mem_append.mp ht with ht | ht
    · exact h.target_present t ht
    · rw [List.mem_singleton.mp ht]
      exact htarget
  alphabet_eq := by
    change (if _ then g.alphabet else g.alphabet.insert symbol) = symbolsOf (g.transitions ++ [_])
    rw [symbolsOf_concat, h.alphabet_eq]

/-- Drawing states anew leaves their numbers. -/
theorem redraw (h : WellFormed supply g) {f : State → State} (hf : ∀ s, (f s).id = s.id) :
    WellFormed supply { g with states := g.states.map f } :=
  { h with
    states_increasing := by
      rw [List.pairwise_map]
      simpa only [hf] using h.states_increasing
    state_given_out := by
      intro s hs
      obtain ⟨t, ht, rfl⟩ := List.mem_map.mp hs
      rw [hf]
      exact h.state_given_out t ht
    source_present := fun t ht => hasState_map_states hf (h.source_present t ht)
    target_present := fun t ht => hasState_map_states hf (h.target_present t ht) }

/-- The transitions that stay touch none but the states that stay. -/
theorem withoutState (h : WellFormed supply g) (id : StateId) :
    WellFormed supply (g.withoutState id) where
  states_increasing := h.states_increasing.sublist List.filter_sublist
  transitions_increasing := h.transitions_increasing.sublist List.filter_sublist
  state_given_out s hs := h.state_given_out s (List.mem_filter.mp hs).1
  transition_given_out t ht := h.transition_given_out t (List.mem_filter.mp ht).1
  source_present t ht := by
    obtain ⟨hmem, hsource, -⟩ := mem_transitions_withoutState.mp ht
    exact hasState_withoutState (h.source_present t hmem) hsource
  target_present t ht := by
    obtain ⟨hmem, -, htarget⟩ := mem_transitions_withoutState.mp ht
    exact hasState_withoutState (h.target_present t hmem) htarget
  alphabet_eq := rfl

theorem withoutTransition (h : WellFormed supply g) (id : TransitionId) :
    WellFormed supply (g.withoutTransition id) where
  states_increasing := h.states_increasing
  transitions_increasing := h.transitions_increasing.sublist List.filter_sublist
  state_given_out := h.state_given_out
  transition_given_out t ht := h.transition_given_out t (List.mem_filter.mp ht).1
  source_present t ht := h.source_present t (List.mem_filter.mp ht).1
  target_present t ht := h.target_present t (List.mem_filter.mp ht).1
  alphabet_eq := rfl

end WellFormed

/-- A stroke keeps the law, so a row of strokes does. -/
theorem Stroke.wellFormed {a b : Supply × Graph} (h : Stroke a b) (ha : WellFormed a.1 a.2) :
    WellFormed b.1 b.2 := by
  cases h with
  | wait hle => exact ha.wait hle
  | rename name => exact ha.rename name
  | place s hid => exact ha.insertState s hid
  | join source target symbol hsource htarget => exact ha.insertTransition symbol hsource htarget
  | redraw f hf => exact ha.redraw hf
  | dropState id => exact ha.withoutState id
  | dropTransition id => exact ha.withoutTransition id

theorem Stroke.supply_le {a b : Supply × Graph} (h : Stroke a b) : a.1 ≤ b.1 := by
  cases h with
  | wait hle => exact hle
  | place => exact Supply.le_afterState _
  | join => exact Supply.le_afterTransition _
  | _ => exact le_refl _

theorem Strokes.supply_le {a b : Supply × Graph} (h : Strokes a b) : a.1 ≤ b.1 := by
  induction h with
  | refl => exact le_refl _
  | tail _ hstroke ih => exact le_trans ih hstroke.supply_le

theorem Strokes.wellFormed {a b : Supply × Graph} (h : Strokes a b) (ha : WellFormed a.1 a.2) :
    WellFormed b.1 b.2 := by
  induction h with
  | refl => exact ha
  | tail _ hstroke ih => exact hstroke.wellFormed ih

end Graph

end FiniteAutomata
