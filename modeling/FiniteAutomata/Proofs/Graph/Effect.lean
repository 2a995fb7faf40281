import FiniteAutomata.Analysis.Table
import FiniteAutomata.Proofs.Graph.Cleaning
import FiniteAutomata.Proofs.Graph.Labels
import FiniteAutomata.Proofs.Graph.Refusal

/-!
What one change does to a graph. It makes a state or a transition and answers with it, and it takes
away what it names and what cannot stay without that (`Drops`, `Cuts`). Every other state keeps its
number and its label (`mem_refs_edit`), and every other transition stays as it is
(`mem_transitions_edit`).
-/
namespace FiniteAutomata.Graph

/-- The states by what never changes about them. -/
def refs (g : Graph) : List StateRef := g.states.map .ofState

/-- A change takes a state away. Cleaning takes every state that is not initial and that no
transition touches. -/
inductive Drops (g : Graph) : Edit → StateId → Prop
  | removed {id : StateId} (hid : g.hasState id) : Drops g (.removeState id) id
  | cleaned {s : State} (hs : s ∈ g.states) (hinitial : s.initial = false)
      (halone : ∀ t ∈ g.transitions, t.source ≠ s.id ∧ t.target ≠ s.id) : Drops g .clean s.id

/-- A change takes a transition away. With a state go the transitions that touch it. -/
inductive Cuts (g : Graph) : Edit → Transition → Prop
  | removed {t : Transition} (ht : t ∈ g.transitions) : Cuts g (.removeTransition t.id) t
  | cascaded {t : Transition} {id : StateId} (ht : t ∈ g.transitions)
      (hend : t.source = id ∨ t.target = id) : Cuts g (.removeState id) t

/-- A change leaves every state where it is. -/
def Edit.KeepsPlaces (g : Graph) : Edit → Prop
  | .updateState id position _ _ => ∀ s ∈ g.states, s.id = id → position = s.position
  | _ => True

/-- Whether a change makes a state. -/
def Edit.places : Edit → Bool
  | .addState _ | .addLabeledState .. => true
  | _ => false

theorem edit_of_places {e : Edit} (hplaces : e.places) (g : Graph) (supply : Supply) :
    ∃ p : State, (g.edit supply e).answer = .ok (.state p) ∧ p.id = supply.nextState ∧
      (g.edit supply e).supply = supply.afterState := by
  cases e with
  | addState position => exact ⟨_, rfl, rfl, rfl⟩
  | addLabeledState label position => exact ⟨_, rfl, rfl, rfl⟩
  | _ => cases hplaces

theorem edit_of_transition {e : Edit} {g : Graph} {supply : Supply} {t : Transition}
    (hanswer : (g.edit supply e).answer = .ok (.transition t)) :
    t.id = supply.nextTransition ∧ (g.edit supply e).supply = supply.afterTransition ∧
      (g.edit supply e).graph = g.insertTransition t := by
  cases e with
  | addTransition source target symbol =>
    rcases g.refuses_or_known source target symbol with ⟨fault, hrefuses⟩ | ⟨hsource, htarget⟩
    · rw [edit_of_refuses hrefuses] at hanswer
      cases hanswer
    · rw [edit_addTransition_of_known hsource htarget] at hanswer ⊢
      cases hanswer
      exact ⟨rfl, rfl, rfl⟩
  | updateState id position initial accepting =>
    rcases g.refuses_or_found id position initial accepting with hrefuses | ⟨s, hs⟩
    · rw [edit_of_refuses hrefuses] at hanswer
      cases hanswer
    · rw [edit_updateState_of_found hs] at hanswer
      cases hanswer
  | _ => cases hanswer

variable {supply : Supply} {g : Graph} {e : Edit}

/-! ### States -/

/-- A change that makes a state puts it behind all others. -/
theorem states_edit_of_places (hplaces : e.places) (g : Graph) (supply : Supply) :
    ∃ p : State, (g.edit supply e).answer = .ok (.state p) ∧
      (g.edit supply e).graph.states = g.states ++ [p] := by
  cases e with
  | addState position => exact ⟨_, rfl, rfl⟩
  | addLabeledState label position => exact ⟨_, rfl, rfl⟩
  | _ => cases hplaces

theorem not_drops_of_places (hplaces : e.places) (id : StateId) : ¬g.Drops e id := by
  intro hdrops
  cases hdrops <;> cases hplaces

/-- Cleaning leaves a state where a transition begins. -/
theorem not_drops_clean {t : Transition} (ht : t ∈ g.transitions) : ¬g.Drops .clean t.source := by
  intro hdrops
  generalize hid : t.source = id at hdrops
  cases hdrops with
  | cleaned _ _ halone => exact (halone t ht).1 hid

theorem states_removeState (g : Graph) (id : StateId) :
    (g.removeState id).2.states = g.states.filter (·.id ≠ id) := by
  unfold removeState
  split
  · rfl
  · rename_i hnone
    rw [state?, List.find?_eq_none] at hnone
    symm
    rw [List.filter_eq_self]
    intro s hs
    simpa using hnone s hs

theorem states_edit_updateState (hwf : WellFormed supply g) (id : StateId) (position : Point)
    (initial accepting : Option Bool) :
    ∃ f : State → State,
      (g.edit supply (.updateState id position initial accepting)).graph.states =
          g.states.map f ∧
        ∀ t ∈ g.states, StateRef.ofState (f t) = .ofState t ∧
          ((∀ u ∈ g.states, u.id = id → position = u.position) → (f t).position = t.position) := by
  rcases g.refuses_or_found id position initial accepting with hrefuses | ⟨found, hfound⟩
  · rw [edit_of_refuses hrefuses]
    exact ⟨fun t => t, (List.map_id' _).symm, fun _ _ => ⟨rfl, fun _ => rfl⟩⟩
  · obtain ⟨hmem, hid⟩ := mem_of_state?_eq_some hfound
    rw [edit_updateState_of_found hfound]
    refine ⟨_, rfl, fun t ht => ?_⟩
    by_cases heq : t.id = id
    · have hsame : t = found := hwf.state_eq ht hmem (heq.trans hid.symm)
      have href : StateRef.ofState found = .ofState t := congrArg StateRef.ofState hsame.symm
      simp only [heq, if_true]
      exact ⟨href, fun hplaces => hplaces t ht heq⟩
    · by_cases hinitial : initial = some true <;> simp [heq, hinitial, StateRef.ofState]

theorem states_edit_addTransition (g : Graph) (supply : Supply) (source target : StateId)
    (symbol : String) :
    (g.edit supply (.addTransition source target symbol)).graph.states = g.states := by
  rcases g.refuses_or_known source target symbol with ⟨fault, hrefuses⟩ | ⟨hsource, htarget⟩
  · rw [edit_of_refuses hrefuses]
  · rw [edit_addTransition_of_known hsource htarget]
    rfl

/-- In a graph where no number is carried twice, a state is named among some of its states only if
it is one of them. -/
theorem WellFormed.mem_refs_filter (hwf : WellFormed supply g) {s : State} (hs : s ∈ g.states)
    (p : State → Bool) : StateRef.ofState s ∈ (g.states.filter p).map .ofState ↔ p s := by
  constructor
  · intro hmem
    obtain ⟨s', hs', heq⟩ := List.mem_map.mp hmem
    obtain ⟨hs', hp⟩ := List.mem_filter.mp hs'
    rwa [hwf.state_eq hs' hs (congrArg StateRef.id heq)] at hp
  · exact fun hp => List.mem_map_of_mem (List.mem_filter.mpr ⟨hs, hp⟩)

/-- A change that makes no state keeps those that it does not take away, in their order and with
their numbers and labels, and it leaves them in place unless it moves one. -/
theorem states_edit_of_not_places (hwf : WellFormed supply g) (hplaces : e.places = false) :
    ∃ (keep : State → Bool) (f : State → State),
      (g.edit supply e).graph.states = (g.states.filter keep).map f ∧
        ∀ s ∈ g.states, (keep s ↔ ¬g.Drops e s.id) ∧ StateRef.ofState (f s) = .ofState s ∧
          (e.KeepsPlaces g → (f s).position = s.position) := by
  -- what is kept as it is
  have hfiltered {h : Graph} (keep : State → Bool) (hstates : h.states = g.states.filter keep)
      (hkeep : ∀ s ∈ g.states, keep s ↔ ¬g.Drops e s.id) :
      ∃ (keep : State → Bool) (f : State → State), h.states = (g.states.filter keep).map f ∧
        ∀ s ∈ g.states, (keep s ↔ ¬g.Drops e s.id) ∧ StateRef.ofState (f s) = .ofState s ∧
          (e.KeepsPlaces g → (f s).position = s.position) :=
    ⟨keep, id, hstates.trans (List.map_id _).symm, fun s hs => ⟨hkeep s hs, rfl, fun _ => rfl⟩⟩
  have hall {h : Graph} (hstates : h.states = g.states) (hkeeps : ∀ id, ¬g.Drops e id) :=
    hfiltered (h := h) (fun _ => true) (hstates.trans (List.filter_true _).symm)
      fun s _ => iff_of_true rfl (hkeeps s.id)
  cases e with
  | addState position => cases hplaces
  | addLabeledState label position => cases hplaces
  | removeState id =>
    refine hfiltered (·.id ≠ id) (g.states_removeState id) fun s hs => ?_
    rw [decide_eq_true_eq, not_iff_not]
    constructor
    · rintro rfl
      exact .removed (hasState_of_mem hs)
    · intro hdrops
      cases hdrops
      rfl
  | updateState id position initial accepting =>
    have hkeeps (id' : StateId) : ¬g.Drops (.updateState id position initial accepting) id' :=
      fun hdrops => by cases hdrops
    obtain ⟨f, hstates, hf⟩ := states_edit_updateState hwf id position initial accepting
    refine ⟨fun _ => true, f, by rw [hstates, List.filter_true], fun s hs => ?_⟩
    exact ⟨iff_of_true rfl (hkeeps s.id), hf s hs⟩
  | addTransition source target symbol =>
    exact hall (g.states_edit_addTransition supply source target symbol)
      fun id' hdrops => by cases hdrops
  | removeTransition id =>
    refine hall ?_ fun id' hdrops => by cases hdrops
    simp only [edit, removeTransition]
    split <;> rfl
  | clean =>
    refine hfiltered (fun s => !(g.isIsolated s && !s.initial)) ?_ fun s hs => ?_
    · simp only [edit, clean_eq hwf]
      rfl
    · rw [Bool.not_eq_true', ← Bool.not_eq_true, not_iff_not, Bool.and_eq_true, Bool.not_eq_true',
        isIsolated_iff]
      constructor
      · rintro ⟨halone, hinitial⟩
        exact .cleaned hs hinitial halone
      · intro hdrops
        generalize hid : s.id = id at hdrops
        cases hdrops with
        | cleaned hs' hinitial halone =>
          obtain rfl := hwf.state_eq hs hs' hid
          exact ⟨halone, hinitial⟩
  | rename name => exact hall rfl fun id' hdrops => by cases hdrops

theorem exists_kept (hwf : WellFormed supply g) (hplaces : e.places = false) :
    ∃ p : State → Bool, (g.edit supply e).graph.refs = (g.states.filter p).map .ofState ∧
      ∀ s ∈ g.states, p s ↔ ¬g.Drops e s.id := by
  obtain ⟨keep, f, hstates, hkept⟩ := states_edit_of_not_places (e := e) hwf hplaces
  refine ⟨keep, ?_, fun s hs => (hkept s hs).1⟩
  rw [refs, hstates, List.map_map]
  exact List.map_congr_left fun s hs => (hkept s (List.mem_filter.mp hs).1).2.1

theorem mem_refs_edit (hwf : WellFormed supply g) (r : StateRef) :
    r ∈ (g.edit supply e).graph.refs ↔
      r ∈ g.refs ∧ ¬g.Drops e r.id ∨
        e.places ∧ ∃ p, (g.edit supply e).answer = .ok (.state p) ∧ .ofState p = r := by
  cases hplaces : e.places with
  | true =>
    obtain ⟨p, hanswer, hstates⟩ := states_edit_of_places hplaces g supply
    have hkeeps : ¬g.Drops e r.id := not_drops_of_places hplaces r.id
    rw [refs, hstates, List.map_append, List.mem_append, List.map_singleton, List.mem_singleton,
      hanswer]
    constructor
    · rintro (hold | rfl)
      · exact Or.inl ⟨hold, hkeeps⟩
      · exact Or.inr ⟨rfl, p, rfl, rfl⟩
    · rintro (⟨hold, -⟩ | ⟨-, p', hp', rfl⟩)
      · exact Or.inl hold
      · cases hp'
        exact Or.inr rfl
  | false =>
    obtain ⟨p, hrefs, hp⟩ := exists_kept (e := e) hwf hplaces
    rw [hrefs]
    constructor
    · intro hmem
      obtain ⟨s, hs, rfl⟩ := List.mem_map.mp hmem
      obtain ⟨hs, hkept⟩ := List.mem_filter.mp hs
      exact Or.inl ⟨List.mem_map_of_mem hs, (hp s hs).mp hkept⟩
    · rintro (⟨hold, hkeeps⟩ | ⟨hfalse, -⟩)
      · obtain ⟨s, hs, rfl⟩ := List.mem_map.mp hold
        exact (hwf.mem_refs_filter hs p).mpr ((hp s hs).mpr hkeeps)
      · cases hfalse

theorem Drops.hasState {id : StateId} (hdrops : g.Drops e id) : g.hasState id := by
  cases hdrops with
  | removed hid => exact hid
  | cleaned hs => exact hasState_of_mem hs

/-- A state that is taken away is not there afterwards. -/
theorem Drops.hasState_edit (hwf : WellFormed supply g) {id : StateId} (hdrops : g.Drops e id) :
    (g.edit supply e).graph.hasState id = false := by
  by_contra hback
  rw [Bool.not_eq_false] at hback
  obtain ⟨s, hs, rfl⟩ := hasState_iff.mp hback
  rcases (mem_refs_edit hwf _).mp (List.mem_map_of_mem hs) with ⟨-, hkeeps⟩ | ⟨hplaces, -⟩
  · exact hkeeps hdrops
  · exact not_drops_of_places hplaces _ hdrops

/-- A change that makes no state and takes none away leaves all as they are listed. -/
theorem refs_edit_of_keeps (hwf : WellFormed supply g) (hplaces : e.places = false)
    (hkeeps : ∀ id, ¬g.Drops e id) : (g.edit supply e).graph.refs = g.refs := by
  obtain ⟨p, hrefs, hp⟩ := exists_kept (e := e) hwf hplaces
  rw [hrefs, List.filter_eq_self.mpr fun s hs => (hp s hs).mpr (hkeeps s.id)]
  rfl

theorem labels_eq (g : Graph) : g.labels = g.refs.map (·.label) := by
  rw [labels, refs, List.map_map]
  rfl

theorem labels_addState (g : Graph) (supply : Supply) (position : Point) :
    (g.edit supply (.addState position)).graph.labels = g.labels ++ [g.freeLabel] :=
  List.map_append ..

/-- A graph whose labels are distinct keeps them so as long as it chooses the new ones. -/
theorem nodup_labels_edit (hwf : WellFormed supply g) (hlabels : g.labels.Nodup)
    (hunlabeled : ∀ label position, e ≠ .addLabeledState label position) :
    (g.edit supply e).graph.labels.Nodup := by
  cases hplaces : e.places with
  | true =>
    cases e with
    | addState position =>
      have hnew : g.freeLabel ∉ g.labels := g.freeNumber_spec.2.1
      rw [labels_addState]
      refine List.nodup_append.mpr ⟨hlabels, List.nodup_singleton _, fun a ha b hb heq => hnew ?_⟩
      rwa [heq, List.mem_singleton.mp hb] at ha
    | addLabeledState label position => exact absurd rfl (hunlabeled label position)
    | _ => cases hplaces
  | false =>
    obtain ⟨p, hrefs, -⟩ := exists_kept (e := e) hwf hplaces
    rw [labels_eq, hrefs, List.map_map]
    exact hlabels.sublist (List.filter_sublist.map _)

/-- The labels of a graph are those of the first numbers, in their order. -/
def Counted (g : Graph) : Prop := g.labels = (List.range g.labels.length).map numberedLabel

/-- The labels that a graph chooses count on as long as it loses no state. -/
theorem Counted.edit (hwf : WellFormed supply g) (hcounted : g.Counted)
    (hunlabeled : ∀ label position, e ≠ .addLabeledState label position)
    (hkeeps : ∀ id, ¬g.Drops e id) : (g.edit supply e).graph.Counted := by
  cases hplaces : e.places with
  | true =>
    cases e with
    | addState position =>
      have hnext : g.freeLabel = numberedLabel g.labels.length :=
        congrArg numberedLabel (freeNumber_eq hcounted)
      rw [Counted, labels_addState, List.length_append, List.length_singleton, List.range_succ,
        List.map_append, ← hcounted, hnext, List.map_singleton]
    | addLabeledState label position => exact absurd rfl (hunlabeled label position)
    | _ => cases hplaces
  | false =>
    have hlabels : (g.edit supply e).graph.labels = g.labels := by
      rw [labels_eq, refs_edit_of_keeps hwf hplaces hkeeps, ← labels_eq]
    rwa [Counted, hlabels]

/-! ### Transitions -/

theorem transitions_removeState (hwf : WellFormed supply g) (id : StateId) :
    (g.removeState id).2.transitions = g.transitions.filter fun t => !t.touches id := by
  unfold removeState
  split
  · rfl
  · rename_i hnone
    rw [state?_eq_none_iff] at hnone
    symm
    rw [List.filter_eq_self]
    intro t ht
    have hsource : t.source ≠ id := fun heq => by
      rw [← heq, hwf.source_present t ht] at hnone
      cases hnone
    have htarget : t.target ≠ id := fun heq => by
      rw [← heq, hwf.target_present t ht] at hnone
      cases hnone
    simp [Transition.touches, hsource, htarget]

theorem WellFormed.snd_removeState (hwf : WellFormed supply g) (id : StateId) :
    (g.removeState id).2 = g.withoutState id := by
  have hafter := (strokes_removeState g supply id).wellFormed hwf
  refine hafter.graph_eq (hwf.withoutState id) ?_ (g.states_removeState id)
    (transitions_removeState hwf id)
  unfold removeState
  split <;> rfl

theorem transitions_removeTransition (g : Graph) (id : TransitionId) :
    (g.removeTransition id).2.transitions = g.transitions.filter (·.id ≠ id) := by
  unfold removeTransition
  split
  · rfl
  · rename_i hnone
    rw [transition?, List.find?_eq_none] at hnone
    symm
    rw [List.filter_eq_self]
    intro t ht
    simpa using hnone t ht

theorem mem_transitions_edit (hwf : WellFormed supply g) (t : Transition) :
    t ∈ (g.edit supply e).graph.transitions ↔
      t ∈ g.transitions ∧ ¬g.Cuts e t ∨ (g.edit supply e).answer = .ok (.transition t) := by
  have hdropped {done : Edited} (p : Transition → Bool)
      (htransitions : done.graph.transitions = g.transitions.filter p)
      (hp : t ∈ g.transitions → (p t ↔ ¬g.Cuts e t))
      (hanswer : done.answer ≠ .ok (.transition t)) :
      t ∈ done.graph.transitions ↔
        t ∈ g.transitions ∧ ¬g.Cuts e t ∨ done.answer = .ok (.transition t) := by
    rw [htransitions, List.mem_filter, or_iff_left hanswer]
    exact and_congr_right hp
  have hsame {done : Edited} (htransitions : done.graph.transitions = g.transitions)
      (hkeeps : ¬g.Cuts e t) (hanswer : done.answer ≠ .ok (.transition t)) :
      t ∈ done.graph.transitions ↔
        t ∈ g.transitions ∧ ¬g.Cuts e t ∨ done.answer = .ok (.transition t) := by
    rw [htransitions, or_iff_left hanswer, and_iff_left hkeeps]
  cases e with
  | addState position =>
    exact hsame rfl (fun hcut => by cases hcut) fun hanswer => by cases hanswer
  | addLabeledState label position =>
    exact hsame rfl (fun hcut => by cases hcut) fun hanswer => by cases hanswer
  | removeState id =>
    refine hdropped (fun t => !t.touches id) (transitions_removeState hwf id) (fun ht => ?_)
      fun hanswer => by cases hanswer
    simp only [Transition.touches, Bool.not_eq_true', Bool.or_eq_false_iff, decide_eq_false_iff_not]
    rw [← not_or, not_iff_not]
    constructor
    · exact .cascaded ht
    · intro hcut
      cases hcut with
      | cascaded _ hend => exact hend
  | updateState id position initial accepting =>
    have hkeeps : ¬g.Cuts (.updateState id position initial accepting) t :=
      fun hcut => by cases hcut
    rcases g.refuses_or_found id position initial accepting with hrefuses | ⟨s, hs⟩
    · rw [edit_of_refuses hrefuses]
      exact hsame rfl hkeeps fun hanswer => by cases hanswer
    · rw [edit_updateState_of_found hs]
      exact hsame rfl hkeeps fun hanswer => by cases hanswer
  | addTransition source target symbol =>
    have hkeeps : ¬g.Cuts (.addTransition source target symbol) t := fun hcut => by cases hcut
    rcases g.refuses_or_known source target symbol with ⟨fault, hrefuses⟩ | ⟨hsource, htarget⟩
    · rw [edit_of_refuses hrefuses]
      exact hsame rfl hkeeps fun hanswer => by cases hanswer
    · rw [edit_addTransition_of_known hsource htarget]
      simp [insertTransition, hkeeps, eq_comm (a := t)]
  | removeTransition id =>
    refine hdropped (·.id ≠ id) (g.transitions_removeTransition id) (fun ht => ?_)
      fun hanswer => by cases hanswer
    rw [decide_eq_true_eq, not_iff_not]
    constructor
    · rintro rfl
      exact .removed ht
    · intro hcut
      cases hcut
      rfl
  | clean =>
    refine hsame ?_ (fun hcut => by cases hcut) fun hanswer => by cases hanswer
    simp only [edit, clean_eq hwf]
  | rename name => exact hsame rfl (fun hcut => by cases hcut) fun hanswer => by cases hanswer

theorem Cuts.mem {t : Transition} (hcuts : g.Cuts e t) : t ∈ g.transitions := by
  cases hcuts <;> assumption

/-- A transition that is taken away is not there afterwards, under its number. -/
theorem Cuts.transition?_edit (hwf : WellFormed supply g) {t : Transition} (hcuts : g.Cuts e t) :
    (g.edit supply e).graph.transition? t.id = none := by
  rw [transition?, List.find?_eq_none]
  intro u hu hid
  have hid : u.id = t.id := of_decide_eq_true hid
  rcases (mem_transitions_edit hwf u).mp hu with ⟨hold, hkeeps⟩ | hanswer
  · have hsame : u = t := hwf.transition_eq hold hcuts.mem hid
    exact hkeeps (hsame ▸ hcuts)
  · have hnew : u.id = supply.nextTransition := (edit_of_transition hanswer).1
    exact hwf.transition_id_ne_nextTransition hcuts.mem (hid.symm.trans hnew)

end FiniteAutomata.Graph
