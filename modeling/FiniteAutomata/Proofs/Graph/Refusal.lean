import FiniteAutomata.Graph.Edit
import FiniteAutomata.Proofs.Graph.Listing

/-!
When a change to a graph is refused. Only a state that is not there cannot be updated, and only a
transition with an end that is not there cannot be made (`answer_edit_eq_error_iff`). Both are found
out before anything is written, so a change that is refused leaves the graph and the supply as they
were (`edit_of_error`).
-/
namespace FiniteAutomata.Graph

variable {g : Graph} {supply : Supply} {id source target : StateId} {symbol : String}
  {position : Point} {initial accepting : Option Bool} {s : State} {fault : Fault} {e : Edit}

theorem state?_eq_none_iff : g.state? id = none ↔ g.hasState id = false := by
  rw [state?, List.find?_eq_none, hasState, List.any_eq_false]

/-! ### Step by step -/

theorem run_updateState_of_unknown (hid : g.state? id = none) :
    (updateState id position initial accepting).run g = .error (.unknownState id) g := by
  simp only [updateState, EStateM.run_bind, EStateM.run_get, hid]
  rfl

/-- An update writes twice, and then each state is either the one updated or lost its mark. -/
theorem run_updateState (hs : g.state? id = some s) :
    (updateState id position initial accepting).run g =
      .ok (s.redrawn position initial accepting)
        { g with
          states := g.states.map fun t =>
            if t.id = id then s.redrawn position initial accepting
            else if initial = some true then { t with initial := false } else t } := by
  have hid : s.id = id := of_decide_eq_true (List.find?_some (p := fun t : State => t.id = id) hs)
  simp only [updateState, EStateM.run_bind, EStateM.run_get, hs, EStateM.run_modify,
    EStateM.run_pure, unmarkedFor, replaceState, State.redrawn, hid]
  by_cases hinitial : initial = some true
  · simp only [if_pos hinitial, List.map_map, Function.comp_def]
  · simp only [if_neg hinitial]

theorem run_addTransition_of_unknown_source (hsource : g.hasState source = false) :
    (addTransition source target symbol).run (supply, g) =
      .error (.unknownEndpoint source) (supply, g) := by
  simp only [addTransition, EStateM.run_bind, EStateM.run_get, hsource]
  rfl

theorem run_addTransition_of_unknown_target (hsource : g.hasState source)
    (htarget : g.hasState target = false) :
    (addTransition source target symbol).run (supply, g) =
      .error (.unknownEndpoint target) (supply, g) := by
  simp only [addTransition, EStateM.run_bind, EStateM.run_get, hsource, htarget, if_true]
  rfl

theorem run_addTransition (hsource : g.hasState source) (htarget : g.hasState target) :
    (addTransition source target symbol).run (supply, g) =
      .ok ⟨supply.nextTransition, source, target, symbol⟩ (supply.afterTransition,
        g.insertTransition ⟨supply.nextTransition, source, target, symbol⟩) := by
  simp only [addTransition, Supply.takeTransition, EStateM.run_bind, EStateM.run_get, hsource,
    htarget, if_true, EStateM.run_modifyGet, EStateM.run_modify, EStateM.run_pure]

/-! ### Refusals -/

/-- Why a change to a graph is refused, if it is. -/
inductive Refuses (g : Graph) : Edit → Fault → Prop
  | update {id : StateId} {position : Point} {initial accepting : Option Bool}
      (hid : g.hasState id = false) :
      Refuses g (.updateState id position initial accepting) (.unknownState id)
  | source {source target : StateId} {symbol : String} (hsource : g.hasState source = false) :
      Refuses g (.addTransition source target symbol) (.unknownEndpoint source)
  | target {source target : StateId} {symbol : String} (hsource : g.hasState source)
      (htarget : g.hasState target = false) :
      Refuses g (.addTransition source target symbol) (.unknownEndpoint target)

/-- Nothing has been written when a change is refused. -/
theorem edit_of_refuses (hrefuses : g.Refuses e fault) :
    g.edit supply e = ⟨.error fault, supply, g⟩ := by
  cases hrefuses with
  | update hid => simp only [edit, run_updateState_of_unknown (state?_eq_none_iff.mpr hid)]
  | source hsource => simp only [edit, run_addTransition_of_unknown_source hsource]
  | target hsource htarget => simp only [edit, run_addTransition_of_unknown_target hsource htarget]

theorem edit_updateState_of_found (hs : g.state? id = some s) :
    g.edit supply (.updateState id position initial accepting) =
      ⟨.ok (.state (s.redrawn position initial accepting)), supply,
        { g with
          states := g.states.map fun t =>
            if t.id = id then s.redrawn position initial accepting
            else if initial = some true then { t with initial := false } else t }⟩ := by
  simp only [edit, run_updateState hs]

theorem edit_addTransition_of_known (hsource : g.hasState source) (htarget : g.hasState target) :
    g.edit supply (.addTransition source target symbol) =
      ⟨.ok (.transition ⟨supply.nextTransition, source, target, symbol⟩), supply.afterTransition,
        g.insertTransition ⟨supply.nextTransition, source, target, symbol⟩⟩ := by
  simp only [edit, run_addTransition hsource htarget]

/-- An update is refused, or its state is found. -/
theorem refuses_or_found (g : Graph) (id : StateId) (position : Point)
    (initial accepting : Option Bool) :
    g.Refuses (.updateState id position initial accepting) (.unknownState id) ∨
      ∃ s, g.state? id = some s := by
  cases hs : g.state? id with
  | none => exact Or.inl (.update (state?_eq_none_iff.mp hs))
  | some s => exact Or.inr ⟨s, rfl⟩

/-- A transition is refused for one of its ends, or both are known. -/
theorem refuses_or_known (g : Graph) (source target : StateId) (symbol : String) :
    (∃ fault, g.Refuses (.addTransition source target symbol) fault) ∨
      g.hasState source ∧ g.hasState target := by
  cases hsource : g.hasState source with
  | false => exact Or.inl ⟨_, .source hsource⟩
  | true =>
    cases htarget : g.hasState target with
    | false => exact Or.inl ⟨_, .target hsource htarget⟩
    | true => exact Or.inr ⟨rfl, rfl⟩

theorem refuses_of_answer (hfails : (g.edit supply e).answer = .error fault) :
    g.Refuses e fault := by
  cases e with
  | updateState id position initial accepting =>
    rcases g.refuses_or_found id position initial accepting with hrefuses | ⟨s, hs⟩
    · rw [edit_of_refuses hrefuses] at hfails
      cases hfails
      exact hrefuses
    · rw [edit_updateState_of_found hs] at hfails
      cases hfails
  | addTransition source target symbol =>
    rcases g.refuses_or_known source target symbol with ⟨fault', hrefuses⟩ | ⟨hsource, htarget⟩
    · rw [edit_of_refuses hrefuses] at hfails
      cases hfails
      exact hrefuses
    · rw [edit_addTransition_of_known hsource htarget] at hfails
      cases hfails
  | _ => cases hfails

theorem answer_edit_eq_error_iff : (g.edit supply e).answer = .error fault ↔ g.Refuses e fault := by
  refine ⟨refuses_of_answer, fun hrefuses => ?_⟩
  rw [edit_of_refuses hrefuses]

theorem edit_of_error (hfails : (g.edit supply e).answer = .error fault) :
    g.edit supply e = ⟨.error fault, supply, g⟩ :=
  edit_of_refuses (refuses_of_answer hfails)

end FiniteAutomata.Graph
