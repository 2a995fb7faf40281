import FiniteAutomata.Proofs.Language.Determinism
import Mathlib.Data.List.ProdSigma

/-!
How many transitions a deterministic graph has. Every transition that reads something takes a slot:
the pair of the state that it leaves and the symbol that it reads. In a deterministic graph no two
transitions take the same slot, so there are at most as many as there are slots, and as many only if
every slot is taken. That every slot is taken is what completeness adds (`isComplete_iff_count`).
-/
namespace FiniteAutomata

def Transition.slot (t : Transition) : StateId × String := (t.source, t.symbol)

namespace Graph

variable {supply : Supply} {g : Graph}

/-- The pairs of a state and a symbol of the alphabet. -/
def slots (g : Graph) : List (StateId × String) := (g.states.map (·.id)) ×ˢ g.alphabet.toList

/-- The slots that transitions take, in the order of the transitions. -/
def takenSlots (g : Graph) : List (StateId × String) := g.transitions.map (·.slot)

theorem length_slots (g : Graph) : g.slots.length = g.stateCount * g.alphabet.size := by
  rw [slots, List.length_product, List.length_map]
  rfl

theorem length_takenSlots (g : Graph) : g.takenSlots.length = g.transitionCount :=
  List.length_map ..

theorem mem_slots {slot : StateId × String} :
    slot ∈ g.slots ↔ g.hasState slot.1 ∧ slot.2 ∈ g.alphabet := by
  obtain ⟨id, symbol⟩ := slot
  rw [slots, List.mem_product, List.mem_map, hasState_iff]
  exact Iff.rfl

theorem mem_takenSlots {slot : StateId × String} :
    slot ∈ g.takenSlots ↔ ∃ t ∈ g.transitions, t.source = slot.1 ∧ t.symbol = slot.2 := by
  rw [takenSlots, List.mem_map]
  exact exists_congr fun t => and_congr_right fun _ => Prod.ext_iff

namespace WellFormed

theorem nodup_slots (hwf : WellFormed supply g) : g.slots.Nodup :=
  hwf.state_ids_nodup.product g.alphabet.nodup

/-- No slot is taken twice if a transition is known by its source and its symbol. -/
theorem nodup_takenSlots (hwf : WellFormed supply g) (hdecided : g.Decided) :
    g.takenSlots.Nodup := by
  refine (List.nodup_map_iff_inj_on hwf.transition_ids_nodup.of_map).mpr ?_
  intro t ht u hu hslot
  obtain ⟨hsource, hsymbol⟩ := Prod.ext_iff.mp hslot
  exact hdecided t ht u hu hsource hsymbol

/-- Where every transition reads something, all of them take slots of the graph. -/
theorem takenSlots_subset (hwf : WellFormed supply g)
    (hread : ∀ t ∈ g.transitions, t.isSilent = false) : g.takenSlots ⊆ g.slots := by
  intro slot htaken
  obtain ⟨t, ht, hsource, hsymbol⟩ := mem_takenSlots.mp htaken
  apply mem_slots.mpr
  constructor
  · rw [← hsource]
    exact hwf.source_present t ht
  · rw [← hsymbol, hwf.alphabet_eq, mem_symbolsOf]
    exact ⟨t, ht, hread t ht, rfl⟩

theorem takenSlots_subperm (hwf : WellFormed supply g) (hdeterministic : g.isDeterministic) :
    g.takenSlots.Subperm g.slots := by
  obtain ⟨hread, hdecided⟩ := hwf.decided hdeterministic
  exact List.subperm_of_subset (hwf.nodup_takenSlots hdecided) (hwf.takenSlots_subset hread)

theorem transitionCount_le (hwf : WellFormed supply g) (hdeterministic : g.isDeterministic) :
    g.transitionCount ≤ g.stateCount * g.alphabet.size := by
  have hlength := (hwf.takenSlots_subperm hdeterministic).length_le
  rwa [length_takenSlots, length_slots] at hlength

end WellFormed

/-- Every slot is taken exactly if every state has a move on every symbol. -/
theorem slots_subset_iff :
    g.slots ⊆ g.takenSlots ↔
      ∀ s ∈ g.states, ∀ symbol, symbol ∈ g.alphabet →
        ∃ t ∈ g.transitions, t.source = s.id ∧ t.symbol = symbol := by
  constructor
  · intro hall s hs symbol hsymbol
    have hslot : (s.id, symbol) ∈ g.slots := mem_slots.mpr ⟨hasState_of_mem hs, hsymbol⟩
    exact mem_takenSlots.mp (hall hslot)
  · intro hmoves slot hslot
    obtain ⟨hstate, hsymbol⟩ := mem_slots.mp hslot
    obtain ⟨s, hs, hid⟩ := hasState_iff.mp hstate
    apply mem_takenSlots.mpr
    rw [← hid]
    exact hmoves s hs slot.2 hsymbol

/-- In a deterministic graph every slot is taken exactly if there are as many transitions as
slots. -/
theorem WellFormed.slots_subset_iff_count (hwf : WellFormed supply g)
    (hdeterministic : g.isDeterministic) :
    g.slots ⊆ g.takenSlots ↔ g.transitionCount = g.stateCount * g.alphabet.size := by
  have hsub := hwf.takenSlots_subperm hdeterministic
  rw [← length_takenSlots, ← length_slots]
  constructor
  · intro hall
    have hlength := (List.subperm_of_subset hwf.nodup_slots hall).length_le
    exact Nat.le_antisymm hsub.length_le hlength
  · intro hlength
    exact (hsub.perm_of_length_le (Nat.le_of_eq hlength.symm)).symm.subset

/-- A graph is complete exactly if it is deterministic, has a symbol to read, and has as many
transitions as there are pairs of a state and a symbol. No deterministic graph has more. -/
theorem isComplete_iff_count (hmade : Made supply g) :
    (g.isComplete ↔
      g.isDeterministic ∧ (∃ symbol, symbol ∈ g.alphabet) ∧
        g.transitionCount = g.stateCount * g.alphabet.size) ∧
      (g.isDeterministic → g.transitionCount ≤ g.stateCount * g.alphabet.size) := by
  have hwf := hmade.wellFormed
  refine ⟨?_, hwf.transitionCount_le⟩
  rw [isComplete_iff_moves]
  refine and_congr_right fun hdeterministic => and_congr_right fun _ => ?_
  rw [← slots_subset_iff, hwf.slots_subset_iff_count hdeterministic]

/-- A state that is initial and accepting and reads every word over two letters. -/
def flower : Supply × Graph :=
  editAll .initial .unnamed
    [.addState ⟨0, 0⟩, .updateState ⟨0⟩ ⟨0, 0⟩ (some true) (some true),
      .addTransition ⟨0⟩ ⟨0⟩ "a", .addTransition ⟨0⟩ ⟨0⟩ "b"]

theorem isComplete_iff_count_flower :
    Made flower.1 flower.2 ∧ flower.2.transitionCount = 2 ∧ flower.2.isComplete := by
  have hmade : Made flower.1 flower.2 := (Made.named .initial "Automate").editedAll _
  have hdeterministic : flower.2.isDeterministic := by
    rw [isDeterministic, flower.2.initialStates_perm.length_eq]
    decide
  refine ⟨hmade, by decide, ?_⟩
  exact (isComplete_iff_count hmade).1.mpr ⟨hdeterministic, ⟨"a", by decide⟩, by decide⟩

end Graph
end FiniteAutomata
