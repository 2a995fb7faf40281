import FiniteAutomata.Graph.Housed
import FiniteAutomata.Proofs.Graph.Consistency
import FiniteAutomata.Proofs.Housing.Filing

/-!
What a graph in an arena shows. If its slots hold the states and the transitions of a graph in
lists, if its tables lead to these slots, and if each edge lies between the slots of the ends of its
transition (`Keeps`), then it shows what the other graph shows, in whatever order the arena goes
through its slots.
-/
namespace FiniteAutomata

/-! ### Order -/

/-- Sorting by a number puts a list into the only order in which the number increases. -/
theorem mergeSort_eq_of_perm {α : Type} {number : α → Nat} {as bs : List α} (h : as.Perm bs)
    (hbs : bs.Pairwise fun a b => number a < number b) :
    (as.mergeSort fun a b => number a ≤ number b) = bs := by
  have hkeys : (bs.map number).Nodup := List.pairwise_map.mpr (hbs.imp Nat.ne_of_lt)
  have hsorted : (as.mergeSort fun a b => number a ≤ number b).Pairwise
      fun a b => decide (number a ≤ number b) :=
    List.pairwise_mergeSort (by simpa using fun _ _ _ => Nat.le_trans)
      (by simpa using fun a b => Nat.le_total (number a) (number b)) as
  have hperm := (List.mergeSort_perm as fun a b => number a ≤ number b).trans h
  have hbs' : bs.Pairwise fun a b => decide (number a ≤ number b) :=
    hbs.imp fun hlt => decide_eq_true (Nat.le_of_lt hlt)
  refine List.Perm.eq_of_pairwise ?_ hsorted hbs' hperm
  intro a b ha hb hab hba
  exact List.inj_on_of_nodup_map hkeys (hperm.mem_iff.mp ha) hb
    (Nat.le_antisymm (by simpa using hab) (by simpa using hba))

/-- Where a number increases along a list, the first element has the least number. -/
theorem minOn?_eq_of_perm {α : Type} {number : α → Nat} {as bs : List α} (h : as.Perm bs)
    (hbs : bs.Pairwise fun a b => number a < number b) : as.minOn? number = bs.head? := by
  cases bs with
  | nil => rw [h.eq_nil]; rfl
  | cons b bs =>
    have hb : b ∈ as := h.mem_iff.mpr (List.mem_cons_self ..)
    have hle := List.apply_get_minOn?_le_of_mem (f := number) hb
    obtain ⟨m, hm⟩ := Option.isSome_iff_exists.mp
      (List.isSome_minOn?_iff (f := number).mpr (List.ne_nil_of_mem hb))
    simp only [hm, Option.get_some] at hle
    rcases List.mem_cons.mp (h.mem_iff.mp (List.minOn?_mem hm)) with rfl | hmem
    · exact hm
    · exact absurd ((List.pairwise_cons.mp hbs).1 m hmem) (Nat.not_lt.mpr hle)

theorem State.id_eq_of_precedes {s t : State} (hst : s.precedes t) (hts : t.precedes s) :
    s.id = t.id := by
  have heq : State.order s t = .eq := Std.OrientedCmp.isLE_antisymm hst hts
  have heq : (compare s.label t.label).then (compare s.id t.id) = .eq := heq
  exact Std.LawfulEqOrd.eq_of_compare (Ordering.then_eq_eq.mp heq).2

namespace Graph.WellFormed

variable {supply : Supply} {g : Graph}

theorem end_present (h : WellFormed supply g) {t : Transition} (ht : t ∈ g.transitions)
    (d : Direction) : g.hasState (t.seenFrom d) := by
  cases d with
  | outgoing => exact h.source_present t ht
  | incoming => exact h.target_present t ht

/-- A state that is not there sees nothing. -/
theorem seen_of_unknown (h : WellFormed supply g) {id : StateId} (hid : g.hasState id = false)
    (d : Direction) : g.transitions.filter (·.seenFrom d = id) = [] := by
  rw [List.filter_eq_nil_iff]
  intro t ht hseen
  have hpresent := h.end_present ht d
  rw [of_decide_eq_true hseen, hid] at hpresent
  cases hpresent

end Graph.WellFormed

namespace Housed

variable {A : Arena State Transition} {a : Housed A} {supply : Supply} {g : Graph}

def listings (a : Housed A) : Listings :=
  ⟨a.listedStates, a.transitions, a.stateCount, a.transitionCount, a.hasState, a.state?,
    a.transition?, a.outgoing, a.incoming⟩

/-- The tables and the arena are in step. Each table leads from a number just to the slot of what
carries it, and each edge lies between the slots of the ends of its transition. -/
structure InStep (a : Housed A) : Prop where
  stateSlot_eq_some_iff : ∀ id i,
    a.stateSlot id = some i ↔ ∃ s, A.node? a.contents i = some s ∧ s.id = id
  transitionSlot_eq_some_iff : ∀ id k,
    a.transitionSlot id = some k ↔ ∃ e, A.edge? a.contents k = some e ∧ e.weight.id = id
  ends : ∀ k e, A.edge? a.contents k = some e →
    a.stateSlot e.weight.source = some e.source ∧ a.stateSlot e.weight.target = some e.target

/-- A graph in an arena holds the same as a graph in lists. -/
structure Keeps (a : Housed A) (g : Graph) : Prop where
  name_eq : a.name = g.name
  alphabet_eq : a.alphabet = g.alphabet
  states : Filed State.id g.states a.stateSlot (A.node? a.contents)
  transitions : Filed Transition.id g.transitions a.transitionSlot a.transitionAt
  ends : ∀ k e, A.edge? a.contents k = some e →
    ∀ d, a.stateSlot (e.weight.seenFrom d) = some (e.seenFrom d)

theorem keeps_named (hA : A.Lawful) (name : String) :
    (named name : Housed A).Keeps (.named name) where
  name_eq := rfl
  alphabet_eq := rfl
  states := .nil hA.node?_empty
  transitions := .nil fun k => by
    rw [transitionAt, named, hA.edge?_empty k, Option.map_none]
  ends k e he := by
    rw [named, hA.edge?_empty k] at he
    cases he

namespace Keeps

/-! ### Listings -/

theorem states_perm (hA : A.Lawful) (hwf : g.WellFormed supply) (h : a.Keeps g) :
    a.states.Perm g.states :=
  h.states.perm hwf.states_nodup (hA.nodes_nodup _) (hA.mem_nodes _)

theorem arrows_perm (hA : A.Lawful) (hnodup : g.transitions.Nodup) (h : a.Keeps g) :
    a.arrows.Perm g.transitions := by
  refine h.transitions.perm hnodup (hA.edges_nodup _) fun k => ?_
  rw [hA.mem_edges, transitionAt, Option.isSome_map]

theorem listedStates_eq (hA : A.Lawful) (hwf : g.WellFormed supply) (h : a.Keeps g) :
    a.listedStates = g.listedStates := by
  have hperm : a.listedStates.Perm g.states := (List.mergeSort_perm ..).trans (h.states_perm hA hwf)
  have htrans (s t u : State) : s.precedes t → t.precedes u → s.precedes u :=
    State.precedes_trans
  have hsorted : a.listedStates.Pairwise fun s t => s.precedes t :=
    List.pairwise_mergeSort htrans State.precedes_total a.states
  refine List.Perm.eq_of_pairwise ?_ hsorted g.listedStates_pairwise
    (hperm.trans g.listedStates_perm.symm)
  intro s t hs ht hst hts
  exact hwf.state_eq (hperm.mem_iff.mp hs) (Graph.mem_listedStates.mp ht)
    (State.id_eq_of_precedes hst hts)

theorem transitions_eq (hA : A.Lawful) (hwf : g.WellFormed supply) (h : a.Keeps g) :
    a.transitions = g.transitions :=
  mergeSort_eq_of_perm (h.arrows_perm hA hwf.transitions_nodup) hwf.transitions_increasing

/-! ### Looking up -/

theorem state?_eq (hwf : g.WellFormed supply) (h : a.Keeps g) (id : StateId) :
    a.state? id = g.state? id :=
  h.states.find?_eq hwf.state_ids_nodup id

theorem transition?_eq (hwf : g.WellFormed supply) (h : a.Keeps g) (id : TransitionId) :
    a.transition? id = g.transition? id :=
  h.transitions.find?_eq hwf.transition_ids_nodup id

theorem stateSlot_isSome (h : a.Keeps g) (id : StateId) :
    (a.stateSlot id).isSome = g.hasState id := by
  rw [Bool.eq_iff_iff, h.states.slot_isSome_iff, Graph.hasState_iff]

theorem slot_present (h : a.Keeps g) {id : StateId} {i : Nat} (hi : a.stateSlot id = some i) :
    (A.node? a.contents i).isSome := by
  obtain ⟨s, hs, -⟩ := (h.states.slot_eq_some_iff id i).mp hi
  exact Option.isSome_of_eq_some hs

/-- An edge touches the slot of a state just if its transition touches the state. -/
theorem seenFrom_iff (h : a.Keeps g) {id : StateId} {i k : Nat} {e : Edge Transition}
    (hi : a.stateSlot id = some i) (he : A.edge? a.contents k = some e) (d : Direction) :
    e.seenFrom d = i ↔ e.weight.seenFrom d = id := by
  have hend := h.ends k e he d
  constructor
  · rintro rfl
    exact h.states.keys_eq hend hi
  · rintro rfl
    exact Option.some.inj (hend.symm.trans hi)

/-- What a state sees by way of its slot is what is listed as seen from it. -/
theorem transitionsAt_eq (hA : A.Lawful) (hwf : g.WellFormed supply) (h : a.Keeps g)
    (id : StateId) (d : Direction) :
    a.transitionsAt id d = g.transitions.filter (·.seenFrom d = id) := by
  unfold transitionsAt
  split
  · rename_i hslot
    have hunknown : g.hasState id = false := by rw [← h.stateSlot_isSome, hslot, Option.isSome_none]
    exact (hwf.seen_of_unknown hunknown d).symm
  · rename_i i hslot
    have hincreasing := hwf.transitions_increasing.filter (·.seenFrom d = id)
    refine mergeSort_eq_of_perm ?_ hincreasing
    refine h.transitions.perm_filter hwf.transitions_nodup (hA.edgesAt_nodup _ i d) fun k => ?_
    rw [hA.mem_edgesAt]
    simp only [transitionAt, Option.map_eq_some_iff, decide_eq_true_eq]
    constructor
    · rintro ⟨e, he, hend⟩
      exact ⟨e.weight, ⟨e, he, rfl⟩, (h.seenFrom_iff hslot he d).mp hend⟩
    · rintro ⟨_, ⟨e, he, rfl⟩, hend⟩
      exact ⟨e, he, (h.seenFrom_iff hslot he d).mpr hend⟩

theorem outgoing_eq (hA : A.Lawful) (hwf : g.WellFormed supply) (h : a.Keeps g) (id : StateId) :
    a.outgoing id = g.outgoing id :=
  h.transitionsAt_eq hA hwf id .outgoing

theorem incoming_eq (hA : A.Lawful) (hwf : g.WellFormed supply) (h : a.Keeps g) (id : StateId) :
    a.incoming id = g.incoming id :=
  h.transitionsAt_eq hA hwf id .incoming

/-- The least number belongs to the oldest state, which the list has first. -/
theorem stateAt?_eq (hA : A.Lawful) (hwf : g.WellFormed supply) (h : a.Keeps g) (p : Point) :
    a.stateAt? p = g.stateAt? p := by
  have hperm := (h.states_perm hA hwf).filter (·.contains p)
  rw [stateAt?, minOn?_eq_of_perm hperm (hwf.states_increasing.filter _), List.head?_filter]
  rfl

theorem freeLabel_eq (hA : A.Lawful) (hwf : g.WellFormed supply) (h : a.Keeps g) :
    a.freeLabel = g.freeLabel := by
  have hperm := h.states_perm hA hwf
  simp only [freeLabel, hperm.any_eq, hperm.length_eq]
  rfl

/-! ### Everything -/

theorem stateCount_eq (hA : A.Lawful) (hwf : g.WellFormed supply) (h : a.Keeps g) :
    a.stateCount = g.stateCount := by
  rw [Graph.stateCount, ← (h.states_perm hA hwf).length_eq, Housed.states,
    List.length_filterMap_eq_countP, List.countP_eq_length.mpr fun i => (hA.mem_nodes _ i).mp,
    Housed.stateCount]

theorem transitionCount_eq (hA : A.Lawful) (hwf : g.WellFormed supply) (h : a.Keeps g) :
    a.transitionCount = g.transitionCount := by
  have hall : ∀ k ∈ A.edges a.contents, (a.transitionAt k).isSome := fun k hk => by
    rw [transitionAt, Option.isSome_map]
    exact (hA.mem_edges _ k).mp hk
  rw [Graph.transitionCount, ← (h.arrows_perm hA hwf.transitions_nodup).length_eq, arrows,
    List.length_filterMap_eq_countP, List.countP_eq_length.mpr hall, Housed.transitionCount]

theorem listings_eq (hA : A.Lawful) (hwf : g.WellFormed supply) (h : a.Keeps g) :
    a.listings = g.listings := by
  have hhas : a.hasState = g.hasState := funext h.stateSlot_isSome
  simp only [listings, Graph.listings, h.listedStates_eq hA hwf, h.transitions_eq hA hwf,
    h.stateCount_eq hA hwf, h.transitionCount_eq hA hwf, hhas, funext (h.state?_eq hwf),
    funext (h.transition?_eq hwf), funext (h.outgoing_eq hA hwf), funext (h.incoming_eq hA hwf)]

theorem inStep (h : a.Keeps g) : a.InStep where
  stateSlot_eq_some_iff := h.states.slot_eq_some_iff
  transitionSlot_eq_some_iff id k := by
    simp only [h.transitions.slot_eq_some_iff, transitionAt, Option.map_eq_some_iff]
    constructor
    · rintro ⟨_, ⟨e, he, rfl⟩, hid⟩
      exact ⟨e, he, hid⟩
    · rintro ⟨e, he, hid⟩
      exact ⟨e.weight, ⟨e, he, rfl⟩, hid⟩
  ends k e he := ⟨h.ends k e he .outgoing, h.ends k e he .incoming⟩

end Keeps
end Housed

end FiniteAutomata
