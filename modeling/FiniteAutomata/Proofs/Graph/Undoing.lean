import FiniteAutomata.Proofs.Graph.Course
import FiniteAutomata.Proofs.Graph.Removal

/-!
What was added can be removed again. A new transition has the last place and a number of its own, so
its removal leaves all others, and collecting the alphabet again gives what it was before. A new
state takes along whatever has joined it since, however often it was joined, and nothing else. So
either removal answers with what was added and gives the graph back as it was (`undone`).
-/
namespace FiniteAutomata.Graph

variable {supply later : Supply} {g h : Graph} {s : State}

/-- A change by which a state is joined to a state, which may be the same one. -/
def Edit.Joins (id : StateId) (e : Edit) : Prop :=
  ∃ source target symbol, e = .addTransition source target symbol ∧ (source = id ∨ target = id)

/-- A removal answers with what was added and gives a graph back, with the label that its next state
would get. -/
structure Restores (g : Graph) (removed : Effect) (done : Edited) : Prop where
  answer_eq : done.answer = .ok removed
  graph_eq : done.graph = g
  next_label : ∀ supply position, ∃ next,
    (done.graph.edit supply (.addState position)).answer = .ok (.state next) ∧
      next.label = g.freeLabel

theorem Restores.of_eq {removed : Effect} {done : Edited} (hanswer : done.answer = .ok removed)
    (hgraph : done.graph = g) : Restores g removed done :=
  ⟨hanswer, hgraph, fun _ _ => ⟨_, rfl, congrArg freeLabel hgraph⟩⟩

/-! ### Numbers that are new -/

namespace WellFormed

/-- No transition touches a state that is still to be made. -/
theorem touches_nextState (hwf : WellFormed supply g) {t : Transition} (ht : t ∈ g.transitions) :
    t.touches supply.nextState = false := by
  have hother {id : StateId} (hid : g.hasState id) : id ≠ supply.nextState := by
    obtain ⟨u, hu, rfl⟩ := hasState_iff.mp hid
    exact hwf.state_id_ne_nextState hu
  simp [Transition.touches, hother (hwf.source_present t ht), hother (hwf.target_present t ht)]

end WellFormed

/-! ### A transition -/

theorem WellFormed.transition?_insertTransition (hwf : WellFormed supply g) {t : Transition}
    (hid : t.id = supply.nextTransition) : (g.insertTransition t).transition? t.id = some t := by
  have hnone : g.transitions.find? (·.id = t.id) = none := by
    rw [List.find?_eq_none]
    intro u hu
    simpa [hid] using hwf.transition_id_ne_nextTransition hu
  change (g.transitions ++ [t]).find? (·.id = t.id) = some t
  rw [List.find?_append, hnone]
  simp

theorem WellFormed.withoutTransition_insertTransition (hwf : WellFormed supply g) {t : Transition}
    (hid : t.id = supply.nextTransition) : (g.insertTransition t).withoutTransition t.id = g := by
  have hkept : (g.transitions ++ [t]).filter (·.id ≠ t.id) = g.transitions := by
    rw [List.filter_append, List.filter_eq_self.mpr]
    · simp
    · intro u hu
      simpa [hid] using hwf.transition_id_ne_nextTransition hu
  have halphabet : symbolsOf ((g.transitions ++ [t]).filter (·.id ≠ t.id)) = g.alphabet := by
    rw [hkept, hwf.alphabet_eq]
  exact Graph.ext rfl rfl hkept halphabet

theorem WellFormed.restores_transition (hwf : WellFormed supply g) {t : Transition}
    (hid : t.id = supply.nextTransition) (later : Supply) :
    Restores g (.removedTransition (some t))
      ((g.insertTransition t).edit later (.removeTransition t.id)) := by
  have hfound := hwf.transition?_insertTransition hid
  apply Restores.of_eq
  · rw [answer_removeTransition, hfound]
  · simp only [edit, removeTransition, hfound]
    exact hwf.withoutTransition_insertTransition hid

/-! ### A state -/

/-- `h` is `g` with one more state and with transitions that touch it. -/
structure Grown (g : Graph) (s : State) (h : Graph) : Prop where
  name_eq : h.name = g.name
  states_eq : h.states = g.states ++ [s]
  transitions_eq : h.transitions.filter (fun t => !t.touches s.id) = g.transitions

theorem WellFormed.grown_insertState (hwf : WellFormed supply g) (hid : s.id = supply.nextState) :
    Grown g s (g.insertState s) where
  name_eq := rfl
  states_eq := rfl
  transitions_eq := by
    apply List.filter_eq_self.mpr
    intro t ht
    rw [hid, hwf.touches_nextState ht]
    rfl

/-- A state that is joined once more is all that has come to the graph, as before. -/
theorem Grown.edit (hgrown : Grown g s h) {e : Edit} (hjoins : e.Joins s.id) :
    Grown g s (h.edit later e).graph := by
  obtain ⟨source, target, symbol, rfl, hend⟩ := hjoins
  rcases h.refuses_or_known source target symbol with ⟨fault, hrefuses⟩ | ⟨hsource, htarget⟩
  · rw [edit_of_refuses hrefuses]
    exact hgrown
  · rw [edit_addTransition_of_known hsource htarget]
    refine ⟨hgrown.name_eq, hgrown.states_eq, ?_⟩
    have htouches : Transition.touches ⟨later.nextTransition, source, target, symbol⟩ s.id := by
      simpa [Transition.touches] using hend
    simp only [insertTransition, List.filter_append, hgrown.transitions_eq]
    simp [htouches]

/-- The state that has come last is found, and without it the graph is what it was. -/
theorem Grown.removeState_eq (hgrown : Grown g s h) (hwf : WellFormed supply g)
    (hid : s.id = supply.nextState) (hh : WellFormed later h) :
    h.removeState s.id = (some s, g) := by
  have hmem : s ∈ h.states := by
    rw [hgrown.states_eq]
    exact List.mem_append_right _ (List.mem_singleton_self s)
  have hfound : h.state? s.id = some s := hh.state?_eq_some_iff.mpr ⟨hmem, rfl⟩
  have hstates : h.states.filter (·.id ≠ s.id) = g.states := by
    rw [hgrown.states_eq, List.filter_append, List.filter_eq_self.mpr]
    · simp
    · intro u hu
      simpa [hid] using hwf.state_id_ne_nextState hu
  have hleft : h.withoutState s.id = g :=
    (hh.withoutState s.id).graph_eq hwf hgrown.name_eq hstates hgrown.transitions_eq
  simp only [removeState, hfound, hleft]

theorem WellFormed.restores_state (hwf : WellFormed supply g) (hid : s.id = supply.nextState)
    {ts : List Turn} (hjoins : ∀ e, .change e ∈ ts → e.Joins s.id) (last : Supply) :
    Restores g (.removedState (some s))
      ((course supply.afterState (g.insertState s) ts).2.edit last (.removeState s.id)) := by
  have hgrows : ∀ k h e, .change e ∈ ts → WellFormed k h → Grown g s h →
      Grown g s (h.edit k e).graph :=
    fun _ _ e he _ hgrown => hgrown.edit (hjoins e he)
  obtain ⟨hh, hgrown⟩ :=
    (hwf.insertState s hid).course_keeps hgrows (hwf.grown_insertState hid)
  have hremoved := hgrown.removeState_eq hwf hid hh
  apply Restores.of_eq
  · rw [answer_removeState, ← fst_removeState, hremoved]
  · simp only [Graph.edit, hremoved]

/-! ### Main statement -/

/-- A removal gives back the graph to which its state or its transition was added, though the state
was joined to others and to itself, by calls of which some may be refused, while other graphs took
numbers from the supply. -/
theorem undone (hmade : Made supply g) :
    (∀ source target symbol t,
      (g.edit supply (.addTransition source target symbol)).answer = .ok (.transition t) →
        ∀ later, Restores g (.removedTransition (some t))
          ((g.edit supply (.addTransition source target symbol)).graph.edit later
            (.removeTransition t.id))) ∧
    ∀ e s, e.places → (g.edit supply e).answer = .ok (.state s) →
      ∀ ts, (∀ e', .change e' ∈ ts → e'.Joins s.id) →
        ∀ last, Restores g (.removedState (some s))
          ((course (g.edit supply e).supply (g.edit supply e).graph ts).2.edit last
            (.removeState s.id)) := by
  have hwf := hmade.wellFormed
  constructor
  · intro source target symbol t hanswer later
    obtain ⟨hid, -, hgraph⟩ := edit_of_transition hanswer
    rw [hgraph]
    exact hwf.restores_transition hid later
  · intro e s hplaces hanswer ts hjoins last
    cases e with
    | addState position =>
      cases hanswer
      exact hwf.restores_state rfl hjoins last
    | addLabeledState label position =>
      cases hanswer
      exact hwf.restores_state rfl hjoins last
    | _ => cases hplaces

/-- Ways to and from the next state of `bundle`, some of them side by side and one a loop, a way to
a state that is not there, and numbers that others take meanwhile. -/
def knot : List Turn :=
  [.change (.addTransition ⟨3⟩ ⟨3⟩ "d"), .change (.addTransition ⟨0⟩ ⟨3⟩ "a"), .elsewhere 2 1,
    .change (.addTransition ⟨0⟩ ⟨3⟩ "a"), .change (.addTransition ⟨3⟩ ⟨9⟩ "e"),
    .change (.addTransition ⟨3⟩ ⟨2⟩ "ε")]

/-- The bundle with a state of its own in the knot. -/
def knotted : Supply × Graph :=
  course (bundle.2.edit bundle.1 (.addState ⟨3, 0⟩)).supply
    (bundle.2.edit bundle.1 (.addState ⟨3, 0⟩)).graph knot

theorem joins_of_mem_knot {e : Edit} (he : .change e ∈ knot) : e.Joins ⟨3⟩ := by
  simp only [knot, List.mem_cons, List.not_mem_nil, or_false, Turn.change.injEq, reduceCtorEq,
    false_or] at he
  rcases he with rfl | rfl | rfl | rfl | rfl
  all_goals exact ⟨_, _, _, rfl, by decide⟩

theorem undone_bundle :
    Made bundle.1 bundle.2 ∧
      (∃ t, (bundle.2.edit bundle.1 (.addTransition ⟨0⟩ ⟨1⟩ "z")).answer = .ok (.transition t) ∧
        Restores bundle.2 (.removedTransition (some t))
          ((bundle.2.edit bundle.1 (.addTransition ⟨0⟩ ⟨1⟩ "z")).graph.edit bundle.1
            (.removeTransition t.id))) ∧
      ∃ s, (bundle.2.edit bundle.1 (.addState ⟨3, 0⟩)).answer = .ok (.state s) ∧
        (∀ e, .change e ∈ knot → e.Joins s.id) ∧
        knotted.2.alphabet = .ofList ["a", "b", "c", "d"] ∧
        Restores bundle.2 (.removedState (some s))
          (knotted.2.edit knotted.1 (.removeState s.id)) := by
  have hmade : Made bundle.1 bundle.2 := (Made.named .initial "Automate").editedAll _
  have hjoins : ∀ e, .change e ∈ knot → e.Joins ⟨3⟩ := fun _ he => joins_of_mem_knot he
  obtain ⟨htransition, hstate⟩ := undone hmade
  exact ⟨hmade, ⟨_, rfl, htransition ⟨0⟩ ⟨1⟩ "z" _ rfl _⟩, _, rfl, hjoins, by decide +kernel,
    hstate (.addState ⟨3, 0⟩) _ rfl rfl knot hjoins _⟩

end FiniteAutomata.Graph
