import FiniteAutomata.Proofs.Graph.Initial
import FiniteAutomata.Proofs.Housing.View

/-!
Changes to a graph in an arena. Each does to the arena and to the tables what the same change does
to the lists of a graph, and answers the same, whichever slots the arena gives out (`Keeps.edit`).
-/
namespace FiniteAutomata

open Function (update)

/-- What becomes of a state when another one may be marked initial. -/
def State.clearedFor (initial : Option Bool) (s : State) : State :=
  if initial = some true then { s with initial := false } else s

theorem State.clearedFor_id (initial : Option Bool) (s : State) :
    (s.clearedFor initial).id = s.id := by
  unfold clearedFor
  split <;> rfl

/-- Clearing the mark first makes no difference to a state that is given it back. -/
theorem State.update_eq (id : StateId) (position : Point) (initial accepting : Option Bool)
    (s : State) : s.update id position initial accepting =
      if s.id = id then (s.clearedFor initial).redrawn position initial accepting
      else s.clearedFor initial := by
  unfold update clearedFor redrawn
  by_cases hinitial : initial = some true
  · simp [hinitial]
  · simp [hinitial]

namespace Housed

variable {A : Arena State Transition} {a : Housed A} {supply : Supply} {g : Graph}

/-- A change to a graph in an arena comes to the same as a change to a graph in lists. -/
structure Follows (done : Edited A) (same : Graph.Edited) : Prop where
  answer_eq : done.answer = same.answer
  supply_eq : done.supply = same.supply
  keeps : done.graph.Keeps same.graph

/-! ### Step by step -/

section Run

variable {id source target : StateId} {position : Point} {initial accepting : Option Bool}
  {symbol : String} {s : State} {i j : Nat}

theorem run_updateState_of_unknown (hslot : a.stateSlot id = none) :
    (updateState id position initial accepting).run a = .error (.unknownState id) a := by
  simp only [updateState, EStateM.run_bind, EStateM.run_get, hslot]
  rfl

theorem run_updateState (hslot : a.stateSlot id = some i)
    (hs : A.node? ((a.unmarkedFor initial).changeState i
      (·.redrawn position initial accepting)).contents i = some s) :
    (updateState id position initial accepting).run a =
      .ok s ((a.unmarkedFor initial).changeState i (·.redrawn position initial accepting)) := by
  simp only [updateState, EStateM.run_bind, EStateM.run_get, hslot, EStateM.run_modify, hs,
    EStateM.run_pure]

theorem run_importState (s : State) :
    (importState s).run a =
      (setFlags s.id s.initial s.accepting).run
        (a.insertState { s with initial := false, accepting := false }) := by
  simp only [importState, EStateM.run_bind, EStateM.run_modify]

theorem run_setFlags (hslot : a.stateSlot id = some i) (initial accepting : Bool) :
    (setFlags id initial accepting).run a =
      .ok () (a.changeState i fun s => { s with initial, accepting }) := by
  simp only [setFlags, EStateM.run_bind, EStateM.run_get, hslot, EStateM.run_modify]

theorem run_addTransition_of_unknown_source (hsource : a.stateSlot source = none) :
    (addTransition source target symbol).run (supply, a) =
      .error (.unknownEndpoint source) (supply, a) := by
  simp only [addTransition, EStateM.run_bind, EStateM.run_get, hsource]
  rfl

theorem run_addTransition_of_unknown_target (hsource : a.stateSlot source = some i)
    (htarget : a.stateSlot target = none) :
    (addTransition source target symbol).run (supply, a) =
      .error (.unknownEndpoint target) (supply, a) := by
  simp only [addTransition, EStateM.run_bind, EStateM.run_get, hsource, htarget]
  rfl

theorem run_addTransition (hsource : a.stateSlot source = some i)
    (htarget : a.stateSlot target = some j) :
    (addTransition source target symbol).run (supply, a) =
      .ok ⟨supply.nextTransition, source, target, symbol⟩ (supply.afterTransition,
        a.insertTransition i j ⟨supply.nextTransition, source, target, symbol⟩) := by
  simp only [addTransition, Supply.takeTransition, EStateM.run_bind, EStateM.run_get, hsource,
    htarget, EStateM.run_modifyGet, EStateM.run_modify, EStateM.run_pure]

end Run

namespace Keeps

theorem rename (h : a.Keeps g) (name : String) : (a.rename name).Keeps (g.rename name) :=
  { h with name_eq := rfl }

/-! ### States and transitions more -/

/-- A state goes into a free slot, away from all edges. -/
theorem insertState (hA : A.Lawful) (h : a.Keeps g) {s : State}
    (hnew : ∀ t ∈ g.states, t.id ≠ s.id) : (a.insertState s).Keeps (g.insertState s) where
  name_eq := h.name_eq
  alphabet_eq := h.alphabet_eq
  states := (h.states.add (hA.addNode_free ..) hnew).congr fun i => by
    simp only [Housed.insertState, hA.node?_addNode]
  transitions := h.transitions.congr fun k => by
    simp only [transitionAt, Housed.insertState, hA.edge?_addNode]
  ends k e he d := by
    simp only [Housed.insertState, hA.edge?_addNode] at he ⊢
    have hend := h.ends k e he d
    have hne : e.weight.seenFrom d ≠ s.id := by
      obtain ⟨t, ht, hid⟩ := h.states.slot_isSome_iff.mp (Option.isSome_of_eq_some hend)
      exact hid ▸ hnew t ht
    rwa [Function.update_of_ne hne]

/-- A transition goes into a free slot, between the slots of its ends. -/
theorem insertTransition (hA : A.Lawful) (h : a.Keeps g) {t : Transition} {i j : Nat}
    (hsource : a.stateSlot t.source = some i) (htarget : a.stateSlot t.target = some j)
    (hnew : ∀ u ∈ g.transitions, u.id ≠ t.id) :
    (a.insertTransition i j t).Keeps (g.insertTransition t) := by
  have hi := h.slot_present hsource
  have hj := h.slot_present htarget
  constructor
  · exact h.name_eq
  · simp only [Housed.insertTransition, Graph.insertTransition, h.alphabet_eq]
  · simp only [Housed.insertTransition, hA.node?_addEdge _ i j t hi hj]
    exact h.states
  · have hfree : a.transitionAt (A.addEdge a.contents i j t).1 = none := by
      rw [transitionAt, hA.addEdge_free _ i j t hi hj, Option.map_none]
    refine (h.transitions.add hfree hnew).congr fun k => ?_
    simp only [transitionAt, Housed.insertTransition, hA.edge?_addEdge _ i j t hi hj,
      Function.update_apply]
    split <;> rfl
  · intro k e he d
    simp only [Housed.insertTransition, hA.edge?_addEdge _ i j t hi hj,
      Function.update_apply] at he ⊢
    split at he
    · cases he
      cases d with
      | outgoing => exact hsource
      | incoming => exact htarget
    · exact h.ends k e he d

/-! ### States and transitions less -/

/-- The alphabet is collected from the transitions in the order of their slots. -/
theorem recollected (hA : A.Lawful) (hwf : g.WellFormed supply)
    (h : a.Keeps { g with alphabet := a.alphabet }) : a.recollected.Keeps g where
  name_eq := h.name_eq
  alphabet_eq := by
    have hnodup : ({ g with alphabet := a.alphabet } : Graph).transitions.Nodup :=
      hwf.transitions_nodup
    exact (Graph.symbolsOf_eq_of_perm (h.arrows_perm hA hnodup)).trans hwf.alphabet_eq.symm
  states := h.states
  transitions := h.transitions
  ends := h.ends

/-- The edges that a slot sees are those whose transitions touch its state. -/
theorem apart_eq (h : a.Keeps g) {id : StateId} {i k : Nat} {e : Edge Transition}
    (hi : a.stateSlot id = some i) (he : A.edge? a.contents k = some e) :
    (e.source ≠ i && e.target ≠ i : Bool) = !e.weight.touches id := by
  have hsource : e.source = i ↔ e.weight.source = id := h.seenFrom_iff hi he .outgoing
  have htarget : e.target = i ↔ e.weight.target = id := h.seenFrom_iff hi he .incoming
  simp only [Transition.touches, Bool.not_or, ne_eq, decide_not, hsource, htarget]

theorem mem_touching_iff (hA : A.Lawful) (h : a.Keeps g) {id : StateId} {i k : Nat}
    {t : Transition} (hi : a.stateSlot id = some i) (hk : a.transitionAt k = some t) :
    t.id ∈ a.touching i ↔ t.touches id := by
  obtain ⟨e, he, rfl⟩ := Option.map_eq_some_iff.mp hk
  have hmem (d : Direction) : k ∈ A.edgesAt a.contents i d ↔ e.weight.seenFrom d = id := by
    simp only [hA.mem_edgesAt, he, Option.some.injEq, exists_eq_left', h.seenFrom_iff hi he]
  have hseen : k ∈ A.edgesAt a.contents i .outgoing ++ A.edgesAt a.contents i .incoming ↔
      e.weight.touches id := by
    simp only [List.mem_append, hmem, Transition.touches, Bool.or_eq_true, decide_eq_true_eq]
    exact Iff.rfl
  rw [← hseen, touching, List.mem_map]
  constructor
  · rintro ⟨u, hu, hid⟩
    obtain ⟨l, hl, hlu⟩ := List.mem_filterMap.mp hu
    rwa [h.transitions.slots_eq hlu hk hid] at hl
  · intro hmem
    exact ⟨e.weight, List.mem_filterMap.mpr ⟨k, hmem, hk⟩, rfl⟩

/-- With a state go exactly the transitions that touch it, out of the arena and out of the table. -/
theorem vacate (hA : A.Lawful) (h : a.Keeps g) {id : StateId} {i : Nat}
    (hi : a.stateSlot id = some i) :
    (a.vacate id i).2.Keeps { g.withoutState id with alphabet := a.alphabet } where
  name_eq := h.name_eq
  alphabet_eq := rfl
  states := (h.states.remove hi).congr fun j => by
    simp only [Housed.vacate, hA.node?_removeNode]
  transitions := by
    refine h.transitions.restrict (fun k => ?_) (fun k t hk => ?_) fun k hk => ?_
    · simp only [Housed.vacate, transitionAt, hA.edge?_removeNode]
      cases he : A.edge? a.contents k with
      | none => rfl
      | some e =>
        rw [Option.filter_some, h.apart_eq hi he, Option.map_some, Option.filter_some]
        cases e.weight.touches id <;> rfl
    · simp only [Housed.vacate, h.mem_touching_iff hA hi hk]
      cases t.touches id <;> rfl
    · simp only [Housed.vacate, hk, ite_self]
  ends k e he d := by
    simp only [Housed.vacate, hA.edge?_removeNode, Option.filter_eq_some_iff, Bool.and_eq_true,
      decide_eq_true_eq] at he
    obtain ⟨he, hsource, htarget⟩ := he
    have hne : e.weight.seenFrom d ≠ id := by
      rw [ne_eq, ← h.seenFrom_iff hi he d]
      cases d with
      | outgoing => exact hsource
      | incoming => exact htarget
    simp only [Housed.vacate, Function.update_of_ne hne]
    exact h.ends k e he d

theorem removeState (hA : A.Lawful) (hwf : g.WellFormed supply) (h : a.Keeps g) (id : StateId) :
    (a.removeState id).1 = (g.removeState id).1 ∧
      (a.removeState id).2.Keeps (g.removeState id).2 := by
  have hfound := h.state?_eq hwf id
  cases hslot : a.stateSlot id with
  | none =>
    have hnone : g.state? id = none := by rw [← hfound, state?, hslot, Option.bind_none]
    simpa only [Housed.removeState, Graph.removeState, hslot, hnone, true_and] using h
  | some i =>
    obtain ⟨s, hs, -⟩ := (h.states.slot_eq_some_iff id i).mp hslot
    have hsome : g.state? id = some s := by rw [← hfound, state?, hslot, Option.bind_some, hs]
    have hremoved : (a.vacate id i).1 = some s := (hA.fst_removeNode ..).trans hs
    simp only [Housed.removeState, Graph.removeState, hslot, hsome, hremoved, true_and]
    exact recollected hA (hwf.withoutState id) (h.vacate hA hslot)

theorem removeTransition (hA : A.Lawful) (hwf : g.WellFormed supply) (h : a.Keeps g)
    (id : TransitionId) :
    (a.removeTransition id).1 = (g.removeTransition id).1 ∧
      (a.removeTransition id).2.Keeps (g.removeTransition id).2 := by
  have hfound := h.transition?_eq hwf id
  cases hslot : a.transitionSlot id with
  | none =>
    have hnone : g.transition? id = none := by
      rw [← hfound, transition?, hslot, Option.bind_none]
    simpa only [Housed.removeTransition, Graph.removeTransition, hslot, hnone, true_and] using h
  | some k =>
    obtain ⟨t, ht, -⟩ := (h.transitions.slot_eq_some_iff id k).mp hslot
    have hsome : g.transition? id = some t := by
      rw [← hfound, transition?, hslot, Option.bind_some, ht]
    have hremoved : (A.removeEdge a.contents k).1 = some t := (hA.fst_removeEdge ..).trans ht
    simp only [Housed.removeTransition, Graph.removeTransition, hslot, hsome, hremoved, true_and]
    refine recollected hA (hwf.withoutTransition id) ⟨h.name_eq, rfl, ?_, ?_, ?_⟩
    · simp only [hA.node?_removeEdge]
      exact h.states
    · refine (h.transitions.remove hslot).congr fun l => ?_
      simp only [transitionAt, hA.edge?_removeEdge, Function.update_apply]
      split <;> rfl
    · intro l e he d
      simp only [hA.edge?_removeEdge, Function.update_apply] at he
      split at he
      · cases he
      · exact h.ends l e he d

/-! ### States drawn anew -/

/-- The state in a slot is drawn anew, and all others stay as they are. -/
theorem changeState (hA : A.Lawful) (h : a.Keeps g) {id : StateId} {i : Nat}
    (hi : a.stateSlot id = some i) {f : State → State} (hf : ∀ s, (f s).id = s.id) :
    (a.changeState i f).Keeps
      { g with states := g.states.map fun s => if s.id = id then f s else s } := by
  have hpresent := h.slot_present hi
  have hedges : A.edge? (a.changeState i f).contents = A.edge? a.contents :=
    hA.edge?_changeNode _ i f hpresent
  constructor
  · exact h.name_eq
  · exact h.alphabet_eq
  · refine (h.states.change hi hf).congr fun j => ?_
    rw [Housed.changeState, hA.node?_changeNode _ i f hpresent]
  · exact h.transitions.congr fun k => by rw [transitionAt, hedges, transitionAt]
  · exact fun k e he => h.ends k e (hedges ▸ he)

theorem node?_unmarkedFor (hA : A.Lawful) (a : Housed A) (initial : Option Bool) (i : Nat) :
    A.node? (a.unmarkedFor initial).contents i =
      (A.node? a.contents i).map (.clearedFor initial) := by
  unfold Housed.unmarkedFor State.clearedFor
  split
  · exact hA.node?_changeNodes ..
  · exact Option.map_id'.symm

theorem unmarkedFor (hA : A.Lawful) (h : a.Keeps g) (initial : Option Bool) :
    (a.unmarkedFor initial).Keeps { g with states := g.states.map (.clearedFor initial) } := by
  have hedges : A.edge? (a.unmarkedFor initial).contents = A.edge? a.contents := by
    unfold Housed.unmarkedFor
    split
    · exact hA.edge?_changeNodes ..
    · rfl
  constructor
  · exact h.name_eq
  · exact h.alphabet_eq
  · exact h.states.map (State.clearedFor_id initial) (node?_unmarkedFor hA a initial)
  · exact h.transitions.congr fun k => by rw [transitionAt, hedges, transitionAt]
  · exact fun k e he => h.ends k e (hedges ▸ he)

/-- The state in the slot gets back the mark that it was not to lose. -/
theorem updateState (hA : A.Lawful) (h : a.Keeps g) {s : State} (hs : s ∈ g.states)
    (position : Point) (initial accepting : Option Bool) :
    ∃ b, (Housed.updateState s.id position initial accepting).run a =
        .ok (s.update s.id position initial accepting) b ∧
      b.Keeps (g.update s.id position initial accepting) := by
  obtain ⟨i, hi⟩ := (h.states.mem_iff s).mp hs
  have hslot := h.states.slot_eq hi
  have hcleared : A.node? (a.unmarkedFor initial).contents i = some (s.clearedFor initial) := by
    rw [node?_unmarkedFor hA, hi, Option.map_some]
  have hafter : A.node? ((a.unmarkedFor initial).changeState i
      (·.redrawn position initial accepting)).contents i =
        some (s.update s.id position initial accepting) := by
    rw [Housed.changeState, hA.node?_changeNode _ i _ (Option.isSome_of_eq_some hcleared),
      Function.update_self, hcleared, Option.map_some, State.update_eq, if_pos rfl]
  refine ⟨_, run_updateState hslot hafter, ?_⟩
  · have hkept := (h.unmarkedFor hA initial).changeState hA hslot
      (f := (·.redrawn position initial accepting)) fun _ => rfl
    have hstates : (g.states.map (State.clearedFor initial)).map (fun t =>
        if t.id = s.id then t.redrawn position initial accepting else t) =
          g.states.map (.update s.id position initial accepting) := by
      rw [List.map_map]
      refine List.map_congr_left fun t _ => ?_
      rw [State.update_eq, Function.comp_apply, State.clearedFor_id]
    simpa only [hstates, Graph.update] using hkept

/-- A state that is read from somewhere is in its slot with the flags that it is to have. -/
theorem importState (hA : A.Lawful) (h : a.Keeps g) {s : State}
    (hnew : ∀ t ∈ g.states, t.id ≠ s.id) :
    ∃ b, (Housed.importState s).run a = .ok () b ∧ b.Keeps (g.insertState s) := by
  let blank : State := { s with initial := false, accepting := false }
  have hplaced : (a.insertState blank).Keeps (g.insertState blank) := h.insertState hA hnew
  obtain ⟨i, hi⟩ : ∃ i, (a.insertState blank).stateSlot s.id = some i :=
    ⟨_, Function.update_self ..⟩
  let mark (t : State) : State := { t with initial := s.initial, accepting := s.accepting }
  refine ⟨(a.insertState blank).changeState i mark, ?_, ?_⟩
  · rw [run_importState, run_setFlags hi]
  · have hkept := hplaced.changeState hA hi (f := mark) fun _ => rfl
    have hstates : (g.states ++ [blank]).map (fun t => if t.id = s.id then mark t else t) =
        g.states ++ [s] := by
      have hothers : g.states.map (fun t => if t.id = s.id then mark t else t) = g.states :=
        (List.map_congr_left fun t ht => if_neg (hnew t ht)).trans (List.map_id' _)
      rw [List.map_append, hothers, List.map_singleton, if_pos rfl]
    simpa only [Graph.insertState, hstates] using hkept

/-! ### Cleaning -/

/-- A slot has no neighbours if no transition touches its state. -/
theorem neighbors_eq_nil_iff (hA : A.Lawful) (h : a.Keeps g) {s : State} {i : Nat}
    (hi : A.node? a.contents i = some s) : A.neighbors a.contents i = [] ↔ g.isIsolated s := by
  have hslot := h.states.slot_eq hi
  have hsource {k : Nat} {e : Edge Transition} (he : A.edge? a.contents k = some e) :
      e.source = i ↔ e.weight.source = s.id := h.seenFrom_iff hslot he .outgoing
  have htarget {k : Nat} {e : Edge Transition} (he : A.edge? a.contents k = some e) :
      e.target = i ↔ e.weight.target = s.id := h.seenFrom_iff hslot he .incoming
  rw [Graph.isIsolated_iff, List.eq_nil_iff_forall_not_mem]
  constructor
  · intro hnone t ht
    obtain ⟨k, hk⟩ := (h.transitions.mem_iff t).mp ht
    obtain ⟨e, he, rfl⟩ := Option.map_eq_some_iff.mp hk
    rw [ne_eq, ne_eq, ← hsource he, ← htarget he]
    exact ⟨fun heq => hnone e.target ((hA.mem_neighbors ..).mpr ⟨k, e, he, Or.inl ⟨heq, rfl⟩⟩),
      fun heq => hnone e.source ((hA.mem_neighbors ..).mpr ⟨k, e, he, Or.inr ⟨heq, rfl⟩⟩)⟩
  · intro halone j hj
    obtain ⟨k, e, he, hends⟩ := (hA.mem_neighbors ..).mp hj
    obtain ⟨hnot, hnot'⟩ := halone e.weight ((h.transitions.mem_iff _).mpr
      ⟨k, by rw [transitionAt, he, Option.map_some]⟩)
    rcases hends with ⟨heq, -⟩ | ⟨heq, -⟩
    · exact hnot ((hsource he).mp heq)
    · exact hnot' ((htarget he).mp heq)

theorem strayStates_perm (hA : A.Lawful) (hwf : g.WellFormed supply) (h : a.Keeps g) :
    a.strayStates.Perm g.strayStates := by
  have halone : ((((A.nodes a.contents).filter fun i =>
      (A.neighbors a.contents i).isEmpty)).filterMap (A.node? a.contents)).Perm
        (g.states.filter g.isIsolated) := by
    refine h.states.perm_filter hwf.states_nodup ((hA.nodes_nodup _).filter _) fun i => ?_
    rw [List.mem_filter, hA.mem_nodes, Option.isSome_iff_exists, List.isEmpty_iff]
    constructor
    · rintro ⟨⟨s, hs⟩, hnone⟩
      exact ⟨s, hs, (h.neighbors_eq_nil_iff hA hs).mp hnone⟩
    · rintro ⟨s, hs, hisolated⟩
      exact ⟨⟨s, hs⟩, (h.neighbors_eq_nil_iff hA hs).mpr hisolated⟩
  have hstray : g.strayStates = (g.states.filter g.isIsolated).filter fun s => !s.initial := by
    rw [List.filter_filter]
    exact List.filter_congr fun s _ => Bool.and_comm ..
  rw [hstray]
  exact halone.filter _

theorem foldl_removeState (hA : A.Lawful) (hwf : g.WellFormed supply) (h : a.Keeps g)
    (ss : List State) : (ss.foldl (fun b s => (b.removeState s.id).2) a).Keeps
      (ss.foldl (fun h s => h.withoutState s.id) g) := by
  induction ss generalizing a g with
  | nil => exact h
  | cons s ss ih =>
    have hremoved := (h.removeState hA hwf s.id).2
    rw [hwf.snd_removeState] at hremoved
    exact ih (hwf.withoutState s.id) hremoved

/-- The order in which stray states are removed does not matter. -/
theorem clean (hA : A.Lawful) (hwf : g.WellFormed supply) (h : a.Keeps g) :
    a.clean.1 = g.clean.1 ∧ a.clean.2.Keeps g.clean.2 := by
  have hstray := h.strayStates_perm hA hwf
  have hisolated : ∀ s ∈ g.strayStates, g.isIsolated s :=
    fun s hs => (Graph.mem_strayStates.mp hs).2.1
  refine ⟨hstray.length_eq, ?_⟩
  have hkept := h.foldl_removeState hA hwf a.strayStates
  have hsame : a.strayStates.foldl (fun h s => h.withoutState s.id) g = g.clean.2 := by
    rw [Graph.clean, Graph.foldl_withoutState hwf.alphabet_eq hisolated,
      Graph.foldl_withoutState hwf.alphabet_eq fun s hs => hisolated s (hstray.mem_iff.mp hs)]
    simp only [(hstray.map State.id).mem_iff]
  rwa [hsame] at hkept

/-! ### All changes -/

theorem addLabeledState (hA : A.Lawful) (hwf : g.WellFormed supply) (h : a.Keeps g)
    (label : String) (position : Point) :
    Follows (a.addLabeledState supply label position)
      (g.addLabeledState supply label position) where
  answer_eq := rfl
  supply_eq := rfl
  keeps := h.insertState hA fun _ ht => hwf.state_id_ne_nextState ht

theorem stateSlot_eq_none (h : a.Keeps g) {id : StateId} (hid : g.hasState id = false) :
    a.stateSlot id = none := by
  rwa [← h.stateSlot_isSome, Option.isSome_eq_false_iff, Option.isNone_iff_eq_none] at hid

theorem exists_stateSlot (h : a.Keeps g) {id : StateId} (hid : g.hasState id) :
    ∃ i, a.stateSlot id = some i := by
  rwa [← h.stateSlot_isSome, Option.isSome_iff_exists] at hid

/-- Nothing has been written, in the arena, the tables or the alphabet, when a change is refused. -/
theorem edit_of_refuses (h : a.Keeps g) {e : Graph.Edit} {fault : Graph.Fault}
    (hrefuses : g.Refuses e fault) : a.edit supply e = ⟨.error fault, supply, a⟩ := by
  cases hrefuses with
  | update hid =>
    simp only [Housed.edit, run_updateState_of_unknown (h.stateSlot_eq_none hid)]
  | source hsource =>
    simp only [Housed.edit, run_addTransition_of_unknown_source (h.stateSlot_eq_none hsource)]
  | target hsource htarget =>
    obtain ⟨i, hi⟩ := h.exists_stateSlot hsource
    simp only [Housed.edit, run_addTransition_of_unknown_target hi (h.stateSlot_eq_none htarget)]

theorem follows_of_refuses (h : a.Keeps g) {e : Graph.Edit} {fault : Graph.Fault}
    (hrefuses : g.Refuses e fault) : Follows (a.edit supply e) (g.edit supply e) := by
  rw [h.edit_of_refuses hrefuses, Graph.edit_of_refuses hrefuses]
  exact ⟨rfl, rfl, h⟩

theorem addTransition (hA : A.Lawful) (hwf : g.WellFormed supply) (h : a.Keeps g)
    (source target : StateId) (symbol : String) :
    Follows (a.edit supply (.addTransition source target symbol))
      (g.edit supply (.addTransition source target symbol)) := by
  rcases g.refuses_or_known source target symbol with ⟨fault, hrefuses⟩ | ⟨hsource, htarget⟩
  · exact h.follows_of_refuses hrefuses
  · obtain ⟨i, hi⟩ := h.exists_stateSlot hsource
    obtain ⟨j, hj⟩ := h.exists_stateSlot htarget
    let t : Transition := ⟨supply.nextTransition, source, target, symbol⟩
    have hkept : (a.insertTransition i j t).Keeps (g.insertTransition t) :=
      h.insertTransition hA hi hj fun u hu => hwf.transition_id_ne_nextTransition hu
    rw [Graph.edit_addTransition_of_known hsource htarget]
    simp only [Housed.edit, run_addTransition hi hj]
    exact ⟨rfl, rfl, hkept⟩

theorem edit (hA : A.Lawful) (hwf : g.WellFormed supply) (h : a.Keeps g) (e : Graph.Edit) :
    Follows (a.edit supply e) (g.edit supply e) := by
  cases e with
  | addState position =>
    simp only [Housed.edit, h.freeLabel_eq hA hwf]
    exact h.addLabeledState hA hwf _ position
  | addLabeledState label position => exact h.addLabeledState hA hwf label position
  | removeState id =>
    obtain ⟨hanswer, hkept⟩ := h.removeState hA hwf id
    exact ⟨congrArg (Except.ok ∘ Graph.Effect.removedState) hanswer, rfl, hkept⟩
  | updateState id position initial accepting =>
    cases hid : g.hasState id with
    | true =>
      obtain ⟨s, hs, rfl⟩ := Graph.hasState_iff.mp hid
      obtain ⟨b, hb, hkept⟩ := h.updateState hA hs position initial accepting
      rw [hwf.edit_updateState hs]
      simp only [Housed.edit, hb]
      exact ⟨rfl, rfl, hkept⟩
    | false => exact h.follows_of_refuses (.update hid)
  | addTransition source target symbol => exact h.addTransition hA hwf source target symbol
  | removeTransition id =>
    obtain ⟨hanswer, hkept⟩ := h.removeTransition hA hwf id
    exact ⟨congrArg (Except.ok ∘ Graph.Effect.removedTransition) hanswer, rfl, hkept⟩
  | clean =>
    obtain ⟨hanswer, hkept⟩ := h.clean hA hwf
    exact ⟨congrArg (Except.ok ∘ Graph.Effect.cleaned) hanswer, rfl, hkept⟩
  | rename name => exact ⟨rfl, rfl, h.rename name⟩

theorem answer_edit_eq_error_iff (hA : A.Lawful) (hwf : g.WellFormed supply) (h : a.Keeps g)
    {e : Graph.Edit} {fault : Graph.Fault} :
    (a.edit supply e).answer = .error fault ↔ g.Refuses e fault := by
  rw [(h.edit hA hwf e).answer_eq, Graph.answer_edit_eq_error_iff]

end Keeps
end Housed
end FiniteAutomata
