import FiniteAutomata.Proofs.Graph.Refusal

/-!
Changes and places. A graph without places has all its states at the origin (`unplaced`). What a
change does to a graph it does to the graph without places, if its own place is forgotten too
(`edit_unplaced`).
-/
namespace FiniteAutomata

/-- The point at which states without a place are put. -/
def Point.origin : Point := ⟨0.0, 0.0⟩

def State.unplaced (s : State) : State := { s with position := .origin }

namespace Graph

/-- The graph with every state at the origin. -/
def unplaced (g : Graph) : Graph := { g with states := g.states.map (·.unplaced) }

/-- The change with the origin for the place that it gives. -/
def Edit.unplaced : Edit → Edit
  | .addState _ => .addState .origin
  | .addLabeledState label _ => .addLabeledState label .origin
  | .updateState id _ initial accepting => .updateState id .origin initial accepting
  | e => e

def Effect.unplaced : Effect → Effect
  | .state s => .state s.unplaced
  | .removedState s => .removedState (s.map (·.unplaced))
  | e => e

variable (g : Graph)

@[simp]
theorem unplaced_unplaced : g.unplaced.unplaced = g.unplaced := by
  simp only [unplaced, List.map_map]
  rfl

@[simp]
theorem Effect.unplaced_unplaced (e : Effect) : e.unplaced.unplaced = e.unplaced := by
  cases e with
  | removedState s => cases s <;> rfl
  | _ => rfl

/-! ### Looking up -/

theorem state?_unplaced (id : StateId) :
    g.unplaced.state? id = (g.state? id).map (·.unplaced) := by
  simp only [state?, unplaced, List.find?_map]
  rfl

theorem hasState_unplaced (id : StateId) : g.unplaced.hasState id = g.hasState id := by
  simp only [hasState, unplaced, List.any_map]
  rfl

theorem carriesLabel_unplaced (label : String) :
    g.unplaced.carriesLabel label = g.carriesLabel label := by
  simp only [carriesLabel, unplaced, List.any_map]
  rfl

theorem freeLabel_unplaced : g.unplaced.freeLabel = g.freeLabel := by
  have hcount : g.unplaced.stateCount = g.stateCount := by simp [stateCount, unplaced]
  simp only [freeLabel, freeNumber, hcount, carriesLabel_unplaced]

theorem listedStates_unplaced : g.unplaced.listedStates = g.listedStates.map (·.unplaced) := by
  have hprecedes : ∀ s ∈ g.states, ∀ t ∈ g.states,
      s.precedes t = s.unplaced.precedes t.unplaced := fun _ _ _ _ => rfl
  exact (List.map_mergeSort hprecedes).symm

theorem strayStates_unplaced : g.unplaced.strayStates = g.strayStates.map (·.unplaced) := by
  simp only [strayStates, unplaced, List.filter_map]
  rfl

/-! ### Changing -/

theorem insertState_unplaced (s : State) :
    g.unplaced.insertState s.unplaced = (g.insertState s).unplaced := by
  simp [unplaced, insertState]

theorem withoutState_unplaced (id : StateId) :
    g.unplaced.withoutState id = (g.withoutState id).unplaced := by
  simp only [unplaced, withoutState, List.filter_map]
  rfl

theorem removeState_unplaced (id : StateId) :
    g.unplaced.removeState id =
      ((g.removeState id).1.map (·.unplaced), (g.removeState id).2.unplaced) := by
  rw [removeState, removeState, state?_unplaced]
  cases g.state? id with
  | none => rfl
  | some s => simp [withoutState_unplaced]

theorem removeTransition_unplaced (id : TransitionId) :
    g.unplaced.removeTransition id =
      ((g.removeTransition id).1, (g.removeTransition id).2.unplaced) := by
  have hfound : g.unplaced.transition? id = g.transition? id := rfl
  rw [removeTransition, removeTransition, hfound]
  cases g.transition? id with
  | none => rfl
  | some t => rfl

theorem refuses_unplaced {e : Edit} {fault : Fault} (hrefuses : g.Refuses e fault) :
    g.unplaced.Refuses e.unplaced fault := by
  have hpresent := g.hasState_unplaced
  cases hrefuses with
  | update hid => exact .update ((hpresent _).trans hid)
  | source hsource => exact .source ((hpresent _).trans hsource)
  | target hsource htarget =>
    exact .target ((hpresent _).trans hsource) ((hpresent _).trans htarget)

/-- An update puts a state somewhere else and touches no other place. -/
theorem states_updated_unplaced (id : StateId) (s : State) (initial : Option Bool) :
    (g.states.map (·.unplaced)).map (fun t =>
        if t.id = id then s.unplaced
        else if initial = some true then { t with initial := false } else t) =
      (g.states.map fun t =>
        if t.id = id then s
        else if initial = some true then { t with initial := false } else t).map
          (·.unplaced) := by
  rw [List.map_map, List.map_map]
  refine List.map_congr_left fun t _ => ?_
  by_cases ht : t.id = id
  · simp [ht, State.unplaced]
  · by_cases hinitial : initial = some true <;> simp [ht, hinitial, State.unplaced]

theorem clean_unplaced : g.unplaced.clean = (g.clean.1, g.clean.2.unplaced) := by
  have hrow (ss : List State) (h : Graph) :
      (ss.map (·.unplaced)).foldl (fun h s => h.withoutState s.id) h.unplaced =
        (ss.foldl (fun h s => h.withoutState s.id) h).unplaced := by
    induction ss generalizing h with
    | nil => rfl
    | cons s ss ih =>
      rw [List.map_cons, List.foldl_cons, List.foldl_cons, ← ih, ← withoutState_unplaced]
      rfl
  rw [clean, clean, strayStates_unplaced, List.length_map, hrow]

/-- A change without places does to a graph without places what the change does. -/
theorem edit_unplaced (supply : Supply) (e : Edit) :
    g.unplaced.edit supply e.unplaced =
      ⟨(g.edit supply e).answer.map (·.unplaced), (g.edit supply e).supply,
        (g.edit supply e).graph.unplaced⟩ := by
  cases e with
  | addState position =>
    simp only [edit, Edit.unplaced, addLabeledState, freeLabel_unplaced, ← insertState_unplaced]
    rfl
  | addLabeledState label position =>
    simp only [edit, Edit.unplaced, addLabeledState, ← insertState_unplaced]
    rfl
  | removeState id =>
    simp only [edit, Edit.unplaced, removeState_unplaced]
    rfl
  | updateState id position initial accepting =>
    rcases g.refuses_or_found id position initial accepting with hrefuses | ⟨s, hs⟩
    · rw [edit_of_refuses hrefuses, edit_of_refuses (g.refuses_unplaced hrefuses)]
      rfl
    · have hs' : g.unplaced.state? id = some s.unplaced := by
        rw [state?_unplaced, hs, Option.map_some]
      have hstates := g.states_updated_unplaced id (s.redrawn position initial accepting) initial
      rw [Edit.unplaced, edit_updateState_of_found hs, edit_updateState_of_found hs']
      simp only [unplaced, ← hstates]
      rfl
  | addTransition source target symbol =>
    rcases g.refuses_or_known source target symbol with ⟨fault, hrefuses⟩ | ⟨hsource, htarget⟩
    · rw [edit_of_refuses hrefuses, edit_of_refuses (g.refuses_unplaced hrefuses)]
      rfl
    · have hsource' := (g.hasState_unplaced source).trans hsource
      have htarget' := (g.hasState_unplaced target).trans htarget
      simp only [Edit.unplaced, edit_addTransition_of_known hsource htarget,
        edit_addTransition_of_known hsource' htarget']
      rfl
  | removeTransition id =>
    simp only [edit, Edit.unplaced, removeTransition_unplaced]
    rfl
  | clean =>
    simp only [edit, Edit.unplaced, clean_unplaced]
    rfl
  | rename name => rfl

end Graph

end FiniteAutomata
