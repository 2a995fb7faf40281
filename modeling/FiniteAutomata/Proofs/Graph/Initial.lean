import FiniteAutomata.Proofs.Graph.Effect
import Mathlib.Data.List.Forall2

/-!
Which states are initial. A state that is updated to be initial becomes the only initial one,
however many there were, and no other update touches the mark of another state (`updates`). No other
change makes a state initial, so a graph that has at most one initial state never gets a second one,
whatever becomes of it (`Becomes.initialStates_length_le`).
-/
namespace FiniteAutomata

/-- The state `s` and what it is after an update of the state numbered `id`. -/
structure State.Updated (id : StateId) (position : Point) (initial accepting : Option Bool)
    (s t : State) : Prop where
  id_eq : t.id = s.id
  label_eq : t.label = s.label
  updated : s.id = id → t.position = position ∧ t.initial = initial.getD s.initial ∧
    t.accepting = accepting.getD s.accepting
  left_alone : s.id ≠ id → t.position = s.position ∧ t.accepting = s.accepting
  replaced : s.id ≠ id → initial = some true → t.initial = false
  kept : s.id ≠ id → initial ≠ some true → t.initial = s.initial

/-- A state after an update of the state numbered `id`, which may be another one. -/
def State.update (id : StateId) (position : Point) (initial accepting : Option Bool)
    (s : State) : State :=
  if s.id = id then s.redrawn position initial accepting
  else if initial = some true then { s with initial := false } else s

theorem State.updated_update (id : StateId) (position : Point) (initial accepting : Option Bool)
    (s : State) :
    s.Updated id position initial accepting (s.update id position initial accepting) := by
  unfold State.update
  by_cases hid : s.id = id
  · rw [if_pos hid]
    exact ⟨rfl, rfl, fun _ => ⟨rfl, rfl, rfl⟩, fun hne => absurd hid hne, fun hne => absurd hid hne,
      fun hne => absurd hid hne⟩
  · rw [if_neg hid]
    by_cases hinitial : initial = some true
    · rw [if_pos hinitial]
      exact ⟨rfl, rfl, fun heq => absurd heq hid, fun _ => ⟨rfl, rfl⟩, fun _ _ => rfl,
        fun _ hne => absurd hinitial hne⟩
    · rw [if_neg hinitial]
      exact ⟨rfl, rfl, fun heq => absurd heq hid, fun _ => ⟨rfl, rfl⟩,
        fun _ heq => absurd heq hinitial, fun _ _ => rfl⟩

namespace Graph

variable {supply later : Supply} {g h : Graph} {id : StateId} {position : Point}
  {initial accepting : Option Bool}

/-- What an update of the state numbered `id` makes of a graph. -/
structure Updates (g : Graph) (id : StateId) (position : Point) (initial accepting : Option Bool)
    (h : Graph) : Prop where
  states : List.Forall₂ (State.Updated id position initial accepting) g.states h.states
  name_eq : h.name = g.name
  transitions_eq : h.transitions = g.transitions
  alphabet_eq : h.alphabet = g.alphabet
  only_initial : initial = some true → ∃ s, s.id = id ∧ h.initialStates = [s]

/-- A graph becomes another one by changes, while other graphs take numbers from the supply. -/
inductive Becomes (supply : Supply) (g : Graph) : Supply → Graph → Prop
  | start : Becomes supply g supply g
  | edited {later : Supply} {h : Graph} (hrow : Becomes supply g later h) (e : Edit) :
      Becomes supply g (h.edit later e).supply (h.edit later e).graph
  | waited {later last : Supply} {h : Graph} (hrow : Becomes supply g later h)
      (hle : later ≤ last) : Becomes supply g last h

/-- How updates and other changes treat the initial states of a graph. -/
structure Disciplined (supply : Supply) (g : Graph) : Prop where
  updates : ∀ id position initial accepting, g.hasState id →
    ∃ s h, g.edit supply (.updateState id position initial accepting) =
        ⟨.ok (.state s), supply, h⟩ ∧
      s ∈ h.states ∧ s.id = id ∧ Updates g id position initial accepting h
  refused : ∀ id position initial accepting, g.hasState id = false →
    g.edit supply (.updateState id position initial accepting) =
      ⟨.error (.unknownState id), supply, g⟩
  at_most_one : g.initialStates.length ≤ 1 →
    ∀ later h, Becomes supply g later h → h.initialStates.length ≤ 1

/-! ### Updates -/

/-- The graph with a state updated. -/
def update (g : Graph) (id : StateId) (position : Point) (initial accepting : Option Bool) :
    Graph :=
  { g with states := g.states.map (.update id position initial accepting) }

theorem WellFormed.edit_updateState (hwf : WellFormed supply g) {s : State} (hs : s ∈ g.states) :
    g.edit supply (.updateState s.id position initial accepting) =
      ⟨.ok (.state (s.update s.id position initial accepting)), supply,
        g.update s.id position initial accepting⟩ := by
  have hself : s.redrawn position initial accepting = s.update s.id position initial accepting :=
    (if_pos rfl).symm
  have hstates : g.states.map (fun t => if t.id = s.id then s.redrawn position initial accepting
        else if initial = some true then { t with initial := false } else t) =
      g.states.map (.update s.id position initial accepting) := by
    apply List.map_congr_left
    intro t ht
    by_cases hid : t.id = s.id
    · rw [if_pos hid, hself, hwf.state_eq ht hs hid]
    · rw [if_neg hid, State.update, if_neg hid]
  rw [edit_updateState_of_found (hwf.state?_eq_some_iff.mpr ⟨hs, rfl⟩), hstates, hself]
  rfl

theorem edit_updateState_of_unknown (hid : g.hasState id = false) :
    g.edit supply (.updateState id position initial accepting) =
      ⟨.error (.unknownState id), supply, g⟩ :=
  edit_of_refuses (.update hid)

/-- A state that is updated to be initial is the only one, because every other is updated not to
be. -/
theorem WellFormed.initialStates_update (hwf : WellFormed supply g) {s : State}
    (hs : s ∈ g.states) :
    (g.update s.id position (some true) accepting).initialStates =
      [s.update s.id position (some true) accepting] := by
  have hids : (g.update s.id position (some true) accepting).states.map (·.id) =
      g.states.map (·.id) := by
    rw [update, List.map_map]
    exact List.map_congr_left fun t _ => (t.updated_update ..).id_eq
  have hnodup : (g.update s.id position (some true) accepting).states.Nodup :=
    List.Nodup.of_map (·.id) (hids ▸ hwf.state_ids_nodup)
  refine (eq_singleton_iff_of_nodup ?_).mpr fun t => ?_
  · exact (listedStates_perm _).nodup_iff.mpr hnodup |>.filter _
  · rw [mem_initialStates, update, List.mem_map]
    constructor
    · rintro ⟨⟨u, hu, rfl⟩, hinitial⟩
      by_cases hid : u.id = s.id
      · rw [hwf.state_eq hu hs hid]
      · have hreplaced := (u.updated_update s.id position (some true) accepting).replaced hid rfl
        rw [hreplaced] at hinitial
        cases hinitial
    · rintro rfl
      have hupdated := (s.updated_update s.id position (some true) accepting).updated rfl
      exact ⟨⟨s, hs, rfl⟩, hupdated.2.1⟩

theorem WellFormed.updates (hwf : WellFormed supply g) {s : State} (hs : s ∈ g.states) :
    Updates g s.id position initial accepting (g.update s.id position initial accepting) where
  states := by
    rw [update, List.forall₂_map_right_iff, List.forall₂_same]
    exact fun t _ => t.updated_update ..
  name_eq := rfl
  transitions_eq := rfl
  alphabet_eq := rfl
  only_initial := by
    rintro rfl
    exact ⟨_, (s.updated_update ..).id_eq, hwf.initialStates_update hs⟩

/-! ### Other changes -/

theorem length_initialStates (g : Graph) :
    g.initialStates.length = g.states.countP (·.initial) :=
  g.length_filter_listedStates _

theorem initialStates_length_le_of_sublist (hsub : h.states.Sublist g.states) :
    h.initialStates.length ≤ g.initialStates.length := by
  rw [length_initialStates, length_initialStates]
  exact hsub.countP_le

/-- An update that makes no state initial leaves no more initial states than there were. -/
theorem initialStates_update_length_le (hinitial : initial ≠ some true) :
    (g.update id position initial accepting).initialStates.length ≤ g.initialStates.length := by
  rw [length_initialStates, length_initialStates, update, List.countP_map]
  apply List.countP_mono_left
  intro s _ hupdated
  have hs := s.updated_update id position initial accepting
  by_cases hid : s.id = id
  · rw [Function.comp_apply, (hs.updated hid).2.1] at hupdated
    cases initial with
    | none => exact hupdated
    | some value =>
      rw [Option.getD_some] at hupdated
      exact absurd (congrArg some hupdated) hinitial
  · rwa [Function.comp_apply, hs.kept hid hinitial] at hupdated

theorem initialStates_insertState_length (g : Graph) {s : State} (hinitial : s.initial = false) :
    (g.insertState s).initialStates.length = g.initialStates.length := by
  rw [length_initialStates, length_initialStates, insertState, List.countP_append,
    List.countP_singleton, hinitial]
  rfl

/-- An update brings no second initial state: it makes its state the only one, or makes none
initial. -/
theorem initialStates_edit_updateState_length_le (hwf : WellFormed supply g)
    (hone : g.initialStates.length ≤ 1) :
    (g.edit supply (.updateState id position initial accepting)).graph.initialStates.length
      ≤ 1 := by
  cases hid : g.hasState id with
  | false =>
    rw [edit_updateState_of_unknown hid]
    exact hone
  | true =>
    obtain ⟨s, hs, rfl⟩ := hasState_iff.mp hid
    rw [hwf.edit_updateState hs]
    by_cases hinitial : initial = some true
    · rw [hinitial, hwf.initialStates_update hs]
      exact Nat.le_refl 1
    · exact Nat.le_trans (initialStates_update_length_le hinitial) hone

theorem states_removeTransition (id : TransitionId) :
    (g.removeTransition id).2.states = g.states := by
  unfold removeTransition
  split
  · rfl
  · rfl

/-- No change brings a second initial state. -/
theorem initialStates_edit_length_le (hwf : WellFormed supply g)
    (hone : g.initialStates.length ≤ 1) (e : Edit) :
    (g.edit supply e).graph.initialStates.length ≤ 1 := by
  -- what takes states away or leaves them brings none, and a new state is not initial
  have hdropped {k : Graph} (hsub : k.states.Sublist g.states) : k.initialStates.length ≤ 1 :=
    Nat.le_trans (initialStates_length_le_of_sublist hsub) hone
  cases e with
  | addState position =>
    exact Nat.le_trans (Nat.le_of_eq (g.initialStates_insertState_length rfl)) hone
  | addLabeledState label position =>
    exact Nat.le_trans (Nat.le_of_eq (g.initialStates_insertState_length rfl)) hone
  | removeState id =>
    apply hdropped
    rw [edit, states_removeState]
    exact List.filter_sublist
  | updateState id position initial accepting =>
    exact initialStates_edit_updateState_length_le hwf hone
  | addTransition source target symbol =>
    apply hdropped
    rw [states_edit_addTransition]
  | removeTransition id =>
    apply hdropped
    rw [edit, states_removeTransition]
  | clean =>
    apply hdropped
    rw [edit, clean_eq hwf]
    exact List.filter_sublist
  | rename name => exact hdropped (List.Sublist.refl _)

/-! ### Main statement -/

theorem Becomes.made (hrow : Becomes supply g later h) (hmade : Made supply g) : Made later h := by
  induction hrow with
  | start => exact hmade
  | edited _ e ih => exact ih.edited e
  | waited _ hle ih => exact ih.kept hle

theorem Becomes.initialStates_length_le (hrow : Becomes supply g later h) (hmade : Made supply g)
    (hone : g.initialStates.length ≤ 1) : h.initialStates.length ≤ 1 := by
  induction hrow with
  | start => exact hone
  | edited hrow e ih => exact initialStates_edit_length_le (hrow.made hmade).wellFormed ih e
  | waited _ _ ih => exact ih

/-- Every graph that can be made is disciplined, and one that began without states never has two
initial ones. -/
theorem disciplined (hmade : Made supply g) :
    Disciplined supply g ∧
      ∀ start name later h, Becomes start (.named name) later h → h.initialStates.length ≤ 1 := by
  have hwf := hmade.wellFormed
  constructor
  · constructor
    · intro id position initial accepting hid
      obtain ⟨s, hs, rfl⟩ := hasState_iff.mp hid
      exact ⟨_, _, hwf.edit_updateState hs, List.mem_map_of_mem hs, (s.updated_update ..).id_eq,
        hwf.updates hs⟩
    · intro id position initial accepting hid
      exact edit_updateState_of_unknown hid
    · intro hone later h hrow
      exact hrow.initialStates_length_le hmade hone
  · intro start name later h hrow
    have hnone : (named name).initialStates.length = 0 := length_initialStates _
    exact hrow.initialStates_length_le (.named start name) (hnone ▸ Nat.zero_le 1)

/-- A saved graph with two initial states. -/
def contest : Snapshot :=
  { name := "A"
    states := [
      ⟨⟨4⟩, "p", ⟨0, 0⟩, true, false⟩, ⟨⟨7⟩, "q", ⟨1, 0⟩, true, true⟩,
      ⟨⟨9⟩, "r", ⟨2, 0⟩, false, false⟩]
    transitions := [⟨⟨1⟩, ⟨4⟩, ⟨9⟩, "a"⟩]
    alphabet := [] }

def contested : Graph := (contest.toGraph .initial).outcome.toOption.getD .unnamed

theorem made_contested : Made (contest.toGraph .initial).supply contested := .loaded contest rfl

/-- The state that no one had marked becomes the only initial one. -/
theorem disciplined_contested :
    Made (contest.toGraph .initial).supply contested ∧ contested.initialStates.length = 2 ∧
      ∃ s h, contested.edit (contest.toGraph .initial).supply
          (.updateState ⟨2⟩ ⟨5, 5⟩ (some true) none) =
            ⟨.ok (.state s), (contest.toGraph .initial).supply, h⟩ ∧
        ∃ t, t.id = ⟨2⟩ ∧ h.initialStates = [t] := by
  obtain ⟨hdisciplined, -⟩ := disciplined made_contested
  obtain ⟨s, h, hedit, -, -, hupdates⟩ :=
    hdisciplined.updates ⟨2⟩ ⟨5, 5⟩ (some true) none (by decide)
  refine ⟨made_contested, ?_, s, h, hedit, hupdates.only_initial rfl⟩
  rw [length_initialStates]
  decide

end Graph
end FiniteAutomata
