import FiniteAutomata.Graph.Edit
import FiniteAutomata.Proofs.Graph.Growth
import FiniteAutomata.Proofs.Graph.Numbers
import FiniteAutomata.Proofs.Snapshot.RoundTrip

/-!
Numbers are names. A graph under other numbers is looked at and changed as before, with the numbers
in questions and answers changed alike (`edit_renumbered`). All that this needs is that different
numbers stay different and that the numbers which are given out meanwhile go to each other.
-/
namespace FiniteAutomata

variable {ρ : StateId → StateId} {τ : TransitionId → TransitionId}

@[simp]
theorem State.renumbered_id (s : State) : (s.renumbered ρ).id = ρ s.id := rfl

@[simp]
theorem Transition.renumbered_id (t : Transition) : (t.renumbered ρ τ).id = τ t.id := rfl

theorem Transition.touches_renumbered (hρ : Function.Injective ρ) (t : Transition) (id : StateId) :
    (t.renumbered ρ τ).touches (ρ id) = t.touches id := by
  simp [touches, renumbered, hρ.eq_iff]

namespace Graph

/-- The graph with other numbers for its states and transitions. -/
def renumbered (ρ : StateId → StateId) (τ : TransitionId → TransitionId) (g : Graph) : Graph :=
  { g with
    states := g.states.map (·.renumbered ρ)
    transitions := g.transitions.map (·.renumbered ρ τ) }

def Fault.renumbered (ρ : StateId → StateId) : Fault → Fault
  | .unknownState id => .unknownState (ρ id)
  | .unknownEndpoint id => .unknownEndpoint (ρ id)

def Edit.renumbered (ρ : StateId → StateId) (τ : TransitionId → TransitionId) : Edit → Edit
  | .removeState id => .removeState (ρ id)
  | .updateState id position initial accepting => .updateState (ρ id) position initial accepting
  | .addTransition source target symbol => .addTransition (ρ source) (ρ target) symbol
  | .removeTransition id => .removeTransition (τ id)
  | e => e

def Effect.renumbered (ρ : StateId → StateId) (τ : TransitionId → TransitionId) :
    Effect → Effect
  | .state s => .state (s.renumbered ρ)
  | .removedState s => .removedState (s.map (·.renumbered ρ))
  | .transition t => .transition (t.renumbered ρ τ)
  | .removedTransition t => .removedTransition (t.map (·.renumbered ρ τ))
  | .cleaned count => .cleaned count
  | .renamed => .renamed

variable (g : Graph)

@[simp]
theorem renumbered_named (name : String) : (named name).renumbered ρ τ = named name := rfl

/-- Only the numbers in a graph matter for what it is under other numbers. -/
theorem renumbered_congr {supply : Supply} (hg : WellFormed supply g) {ρ' : StateId → StateId}
    {τ' : TransitionId → TransitionId} (hρ : ∀ id ∈ g.stateIds, ρ id = ρ' id)
    (hτ : ∀ id ∈ g.transitionIds, τ id = τ' id) : g.renumbered ρ τ = g.renumbered ρ' τ' := by
  have hend {id : StateId} (hid : g.hasState id) : ρ id = ρ' id := hρ id (mem_stateIds_iff.mpr hid)
  have hstates : g.states.map (·.renumbered ρ) = g.states.map (·.renumbered ρ') := by
    refine List.map_congr_left fun s hs => ?_
    rw [State.renumbered, State.renumbered, hend (hasState_of_mem hs)]
  have htransitions : g.transitions.map (·.renumbered ρ τ) =
      g.transitions.map (·.renumbered ρ' τ') := by
    refine List.map_congr_left fun t ht => ?_
    rw [Transition.renumbered, Transition.renumbered, hτ t.id (List.mem_map_of_mem ht),
      hend (hg.source_present t ht), hend (hg.target_present t ht)]
  rw [renumbered, renumbered, hstates, htransitions]

/-! ### Looking up -/

section LookUp

variable (hρ : Function.Injective ρ)
include hρ

theorem state?_renumbered (id : StateId) :
    (g.renumbered ρ τ).state? (ρ id) = (g.state? id).map (·.renumbered ρ) := by
  have hsame : ((fun s : State => decide (s.id = ρ id)) ∘ fun s => s.renumbered ρ) =
      fun s : State => decide (s.id = id) := funext fun s => decide_eq_decide.mpr hρ.eq_iff
  rw [state?, renumbered, List.find?_map, hsame, state?]

theorem hasState_renumbered (id : StateId) :
    (g.renumbered ρ τ).hasState (ρ id) = g.hasState id := by
  simp [hasState, renumbered, List.any_map, Function.comp_def, hρ.eq_iff]

theorem outgoing_renumbered (id : StateId) :
    (g.renumbered ρ τ).outgoing (ρ id) = (g.outgoing id).map (·.renumbered ρ τ) := by
  simp [outgoing, renumbered, List.filter_map, Function.comp_def, Transition.renumbered, hρ.eq_iff]

theorem incoming_renumbered (id : StateId) :
    (g.renumbered ρ τ).incoming (ρ id) = (g.incoming id).map (·.renumbered ρ τ) := by
  simp [incoming, renumbered, List.filter_map, Function.comp_def, Transition.renumbered, hρ.eq_iff]

end LookUp

theorem transition?_renumbered (hτ : Function.Injective τ) (id : TransitionId) :
    (g.renumbered ρ τ).transition? (τ id) = (g.transition? id).map (·.renumbered ρ τ) := by
  have hsame : ((fun t : Transition => decide (t.id = τ id)) ∘ fun t => t.renumbered ρ τ) =
      fun t : Transition => decide (t.id = id) := funext fun t => decide_eq_decide.mpr hτ.eq_iff
  rw [transition?, renumbered, List.find?_map, hsame, transition?]

theorem stateAt?_renumbered (p : Point) :
    (g.renumbered ρ τ).stateAt? p = (g.stateAt? p).map (·.renumbered ρ) := by
  simp only [stateAt?, renumbered, List.find?_map]
  rfl

theorem carriesLabel_renumbered (label : String) :
    (g.renumbered ρ τ).carriesLabel label = g.carriesLabel label := by
  simp only [carriesLabel, renumbered, List.any_map]
  rfl

@[simp]
theorem freeLabel_renumbered : (g.renumbered ρ τ).freeLabel = g.freeLabel := by
  have hcount : (g.renumbered ρ τ).stateCount = g.stateCount := by simp [stateCount, renumbered]
  simp only [freeLabel, freeNumber, hcount, carriesLabel_renumbered]

/-! ### Changing -/

theorem renumbered_rename (name : String) :
    (g.rename name).renumbered ρ τ = (g.renumbered ρ τ).rename name := rfl

theorem renumbered_insertState (s : State) :
    (g.insertState s).renumbered ρ τ = (g.renumbered ρ τ).insertState (s.renumbered ρ) := by
  simp [renumbered, insertState]

theorem renumbered_insertTransition (t : Transition) :
    (g.insertTransition t).renumbered ρ τ =
      (g.renumbered ρ τ).insertTransition (t.renumbered ρ τ) := by
  simp only [renumbered, insertTransition, List.map_append, List.map_cons, List.map_nil]
  rfl

theorem renumbered_withoutState (hρ : Function.Injective ρ) (id : StateId) :
    (g.withoutState id).renumbered ρ τ = (g.renumbered ρ τ).withoutState (ρ id) := by
  have hkept : (g.transitions.map (·.renumbered ρ τ)).filter (fun t => !t.touches (ρ id)) =
      (g.transitions.filter fun t => !t.touches id).map (·.renumbered ρ τ) := by
    rw [List.filter_map]
    simp only [Function.comp_def, Transition.touches_renumbered hρ]
  simp only [renumbered, withoutState, hkept, symbolsOf_renumbered]
  simp [List.filter_map, Function.comp_def, hρ.eq_iff]

theorem renumbered_withoutTransition (hτ : Function.Injective τ) (id : TransitionId) :
    (g.withoutTransition id).renumbered ρ τ = (g.renumbered ρ τ).withoutTransition (τ id) := by
  have hkept : (g.transitions.map (·.renumbered ρ τ)).filter (·.id ≠ τ id) =
      (g.transitions.filter (·.id ≠ id)).map (·.renumbered ρ τ) := by
    simp [List.filter_map, Function.comp_def, hτ.eq_iff]
  simp only [renumbered, withoutTransition, hkept, symbolsOf_renumbered]

theorem removeState_renumbered (hρ : Function.Injective ρ) (id : StateId) :
    (g.renumbered ρ τ).removeState (ρ id) =
      ((g.removeState id).1.map (·.renumbered ρ), (g.removeState id).2.renumbered ρ τ) := by
  rw [removeState, removeState, state?_renumbered g hρ]
  cases g.state? id with
  | none => rfl
  | some s => simp [renumbered_withoutState g hρ]

theorem removeTransition_renumbered (hτ : Function.Injective τ) (id : TransitionId) :
    (g.renumbered ρ τ).removeTransition (τ id) =
      ((g.removeTransition id).1.map (·.renumbered ρ τ),
        (g.removeTransition id).2.renumbered ρ τ) := by
  rw [removeTransition, removeTransition, transition?_renumbered g hτ]
  cases g.transition? id with
  | none => rfl
  | some t => simp [renumbered_withoutTransition g hτ]

theorem refuses_renumbered (hρ : Function.Injective ρ) {e : Edit} {fault : Fault}
    (hrefuses : g.Refuses e fault) :
    (g.renumbered ρ τ).Refuses (e.renumbered ρ τ) (fault.renumbered ρ) := by
  have hpresent (id : StateId) := g.hasState_renumbered (τ := τ) hρ id
  cases hrefuses with
  | update hid => exact .update ((hpresent _).trans hid)
  | source hsource => exact .source ((hpresent _).trans hsource)
  | target hsource htarget =>
    exact .target ((hpresent _).trans hsource) ((hpresent _).trans htarget)

/-- An update draws the same state anew, whatever its number. -/
theorem states_updated_renumbered (hρ : Function.Injective ρ) (id : StateId) (s : State)
    (initial : Option Bool) :
    (g.states.map (·.renumbered ρ)).map (fun t =>
        if t.id = ρ id then s.renumbered ρ
        else if initial = some true then { t with initial := false } else t) =
      (g.states.map fun t =>
        if t.id = id then s
        else if initial = some true then { t with initial := false } else t).map
          (·.renumbered ρ) := by
  rw [List.map_map, List.map_map]
  refine List.map_congr_left fun t _ => ?_
  by_cases ht : t.id = id
  · simp [ht, State.renumbered]
  · have hmoved : ρ t.id ≠ ρ id := fun heq => ht (hρ heq)
    by_cases hinitial : initial = some true
    · simp [ht, hmoved, hinitial, State.renumbered]
    · simp [ht, hmoved, hinitial]

theorem strayStates_renumbered (hρ : Function.Injective ρ) :
    (g.renumbered ρ τ).strayStates = g.strayStates.map (·.renumbered ρ) := by
  have hisolated (s : State) : (g.renumbered ρ τ).isIsolated (s.renumbered ρ) = g.isIsolated s := by
    simp only [isIsolated, renumbered, List.any_map, Function.comp_def, State.renumbered_id,
      Transition.touches_renumbered hρ]
  have hinitial (s : State) : (s.renumbered ρ).initial = s.initial := rfl
  have hstates : (g.renumbered ρ τ).states = g.states.map (·.renumbered ρ) := rfl
  simp only [strayStates, hstates, List.filter_map, Function.comp_def, hisolated, hinitial]

theorem clean_renumbered (hρ : Function.Injective ρ) :
    (g.renumbered ρ τ).clean = (g.clean.1, g.clean.2.renumbered ρ τ) := by
  have hrow (ss : List State) (h : Graph) :
      (ss.map (·.renumbered ρ)).foldl (fun h s => h.withoutState s.id) (h.renumbered ρ τ) =
        (ss.foldl (fun h s => h.withoutState s.id) h).renumbered ρ τ := by
    induction ss generalizing h with
    | nil => rfl
    | cons s ss ih =>
      rw [List.map_cons, List.foldl_cons, List.foldl_cons, State.renumbered_id,
        ← renumbered_withoutState h hρ, ih]
  rw [clean, clean, strayStates_renumbered g hρ, List.length_map, hrow]

/-- A new state has the same label under other numbers, and its number goes to the next one. -/
theorem addLabeledState_renumbered {supply start : Supply} (label : String) (position : Point)
    (hnext : ρ supply.nextState = start.nextState) :
    (g.renumbered ρ τ).addLabeledState start label position =
      ⟨((g.addLabeledState supply label position).answer.map (·.renumbered ρ τ)).mapError
          (·.renumbered ρ),
        start.afterState, (g.addLabeledState supply label position).graph.renumbered ρ τ⟩ := by
  have hplaced : State.renumbered ρ ⟨supply.nextState, label, position, false, false⟩ =
      ⟨start.nextState, label, position, false, false⟩ := by rw [State.renumbered, hnext]
  simp only [addLabeledState, renumbered_insertState, Except.map, Except.mapError,
    Effect.renumbered, hplaced]

/-- A change that is refused is refused under other numbers. -/
theorem edit_renumbered_of_refuses (hρ : Function.Injective ρ) {e : Edit} {fault : Fault}
    (hrefuses : g.Refuses e fault) (supply start : Supply) :
    (g.renumbered ρ τ).edit start (e.renumbered ρ τ) =
      ⟨((g.edit supply e).answer.map (·.renumbered ρ τ)).mapError (·.renumbered ρ),
        start.advanced supply (g.edit supply e).supply,
        (g.edit supply e).graph.renumbered ρ τ⟩ := by
  rw [edit_of_refuses hrefuses, edit_of_refuses (g.refuses_renumbered hρ hrefuses),
    Supply.advanced_self]
  rfl

/-- A change under other numbers does what the change does, under those numbers. -/
theorem edit_renumbered (hρ : Function.Injective ρ) (hτ : Function.Injective τ) (e : Edit)
    {supply start : Supply} (htracks : Supply.Tracks ρ τ supply (g.edit supply e).supply start) :
    (g.renumbered ρ τ).edit start (e.renumbered ρ τ) =
      ⟨((g.edit supply e).answer.map (·.renumbered ρ τ)).mapError (·.renumbered ρ),
        start.advanced supply (g.edit supply e).supply,
        (g.edit supply e).graph.renumbered ρ τ⟩ := by
  cases e with
  | addState position =>
    have hnext := htracks.nextState_eq (Nat.lt_succ_self _)
    simp only [edit, Edit.renumbered, freeLabel_renumbered,
      addLabeledState_renumbered g _ position hnext]
    simp [addLabeledState]
  | addLabeledState label position =>
    have hnext := htracks.nextState_eq (Nat.lt_succ_self _)
    simp only [edit, Edit.renumbered, addLabeledState_renumbered g label position hnext]
    simp [addLabeledState]
  | removeState id =>
    simp [edit, Edit.renumbered, removeState_renumbered g hρ, Except.map, Except.mapError,
      Effect.renumbered]
  | updateState id position initial accepting =>
    rcases g.refuses_or_found id position initial accepting with hrefuses | ⟨s, hs⟩
    · exact g.edit_renumbered_of_refuses hρ hrefuses supply start
    · have hs' : (g.renumbered ρ τ).state? (ρ id) = some (s.renumbered ρ) := by
        rw [state?_renumbered g hρ, hs, Option.map_some]
      have hstates := g.states_updated_renumbered hρ id (s.redrawn position initial accepting)
        initial
      rw [Edit.renumbered, edit_updateState_of_found hs, edit_updateState_of_found hs',
        Supply.advanced_self]
      simp only [renumbered, ← hstates]
      rfl
  | addTransition source target symbol =>
    rcases g.refuses_or_known source target symbol with ⟨fault, hrefuses⟩ | ⟨hsource, htarget⟩
    · exact g.edit_renumbered_of_refuses hρ hrefuses supply start
    · have hsource' := (g.hasState_renumbered (τ := τ) hρ source).trans hsource
      have htarget' := (g.hasState_renumbered (τ := τ) hρ target).trans htarget
      rw [edit_addTransition_of_known hsource htarget] at htracks ⊢
      have hnext := htracks.nextTransition_eq (Nat.lt_succ_self _)
      have hmade : Transition.renumbered ρ τ ⟨supply.nextTransition, source, target, symbol⟩ =
          ⟨start.nextTransition, ρ source, ρ target, symbol⟩ := by
        rw [Transition.renumbered, hnext]
      rw [Edit.renumbered, edit_addTransition_of_known hsource' htarget']
      simp [Except.map, Except.mapError, Effect.renumbered, renumbered_insertTransition, hmade]
  | removeTransition id =>
    simp [edit, Edit.renumbered, removeTransition_renumbered g hτ, Except.map, Except.mapError,
      Effect.renumbered]
  | clean =>
    simp [edit, Edit.renumbered, clean_renumbered g hρ, Except.map, Except.mapError,
      Effect.renumbered]
  | rename name =>
    simp [edit, Edit.renumbered, renumbered_rename, Except.map, Except.mapError, Effect.renumbered]

end Graph

end FiniteAutomata
