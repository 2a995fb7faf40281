import FiniteAutomata.Proofs.Graph.Consistency
import Mathlib.Data.List.Basic

/-!
What cleaning removes. A stray state is touched by no transition, so it goes alone, and the graph
that is left has every other state and all transitions (`clean_eq`).
-/
namespace FiniteAutomata.Graph

variable {supply : Supply} {g : Graph}

theorem isIsolated_iff {s : State} :
    g.isIsolated s ↔ ∀ t ∈ g.transitions, t.source ≠ s.id ∧ t.target ≠ s.id := by
  simp [isIsolated, Transition.touches]

theorem mem_strayStates {s : State} :
    s ∈ g.strayStates ↔ s ∈ g.states ∧ g.isIsolated s ∧ s.initial = false := by
  simp only [strayStates, List.mem_filter, Bool.and_eq_true, Bool.not_eq_true']

/-- A state that no transition touches takes nothing with it. -/
theorem withoutState_of_isolated (halphabet : g.alphabet = symbolsOf g.transitions) {s : State}
    (hisolated : g.isIsolated s) :
    g.withoutState s.id = { g with states := g.states.filter (·.id ≠ s.id) } := by
  have hkept : (g.transitions.filter fun t => !t.touches s.id) = g.transitions := by
    rw [List.filter_eq_self]
    intro t ht
    obtain ⟨hsource, htarget⟩ := isIsolated_iff.mp hisolated t ht
    simp [Transition.touches, hsource, htarget]
  rw [withoutState, hkept, ← halphabet]

theorem foldl_withoutState {ss : List State} (halphabet : g.alphabet = symbolsOf g.transitions)
    (hisolated : ∀ s ∈ ss, g.isIsolated s) :
    ss.foldl (fun h s => h.withoutState s.id) g =
      { g with states := g.states.filter (·.id ∉ ss.map (·.id)) } := by
  induction ss generalizing g with
  | nil =>
    have hall : g.states.filter (·.id ∉ ([] : List State).map (·.id)) = g.states := by simp
    rw [hall]
    rfl
  | cons s ss ih =>
    rw [List.foldl_cons, withoutState_of_isolated halphabet (hisolated s (List.mem_cons_self ..))]
    have hrest (s' : State) (hs' : s' ∈ ss) :=
      hisolated s' (List.mem_cons_of_mem s hs')
    rw [ih (g := { g with states := g.states.filter (·.id ≠ s.id) }) halphabet hrest,
      List.filter_filter]
    congr 1
    apply List.filter_congr
    intro s' _
    rw [List.map_cons, Bool.eq_iff_iff]
    simp [and_comm]

/-- The states that cleaning leaves. -/
def settledStates (g : Graph) : List State :=
  g.states.filter fun s => !(g.isIsolated s && !s.initial)

theorem mem_settledStates {s : State} :
    s ∈ g.settledStates ↔ s ∈ g.states ∧ (s.initial ∨ ¬g.isIsolated s) := by
  rw [settledStates, List.mem_filter]
  cases g.isIsolated s <;> cases s.initial <;> simp

theorem length_strayStates_add (g : Graph) :
    g.strayStates.length + g.settledStates.length = g.stateCount :=
  (List.length_eq_length_filter_add _).symm

theorem clean_eq (hwf : WellFormed supply g) :
    g.clean = (g.strayStates.length, { g with states := g.settledStates }) := by
  have hisolated : ∀ s ∈ g.strayStates, g.isIsolated s :=
    fun s hs => (mem_strayStates.mp hs).2.1
  rw [clean, foldl_withoutState hwf.alphabet_eq hisolated]
  congr 2
  apply List.filter_congr
  intro s hs
  -- no two states share a number, so the number is that of a stray state only if the state is one
  have hstray : s.id ∈ g.strayStates.map (·.id) ↔ s ∈ g.strayStates := by
    constructor
    · intro hid
      obtain ⟨s', hs', heq⟩ := List.mem_map.mp hid
      rwa [← hwf.state_eq (mem_strayStates.mp hs').1 hs heq]
    · exact fun hmem => List.mem_map_of_mem hmem
  rw [Bool.eq_iff_iff, decide_eq_true_eq, hstray, mem_strayStates]
  cases g.isIsolated s <;> cases s.initial <;> simp [hs]

theorem mem_of_mem_clean (hwf : WellFormed supply g) {s : State} (hs : s ∈ g.clean.2.states) :
    s ∈ g.states := by
  rw [clean_eq hwf] at hs
  exact (mem_settledStates.mp hs).1

theorem hasState_of_clean (hwf : WellFormed supply g) {id : StateId}
    (hid : g.clean.2.hasState id) : g.hasState id := by
  obtain ⟨s, hs, rfl⟩ := hasState_iff.mp hid
  exact hasState_of_mem (mem_of_mem_clean hwf hs)

theorem hasState_clean_iff (hwf : WellFormed supply g) {id : StateId} :
    g.clean.2.hasState id ↔ ∃ s ∈ g.settledStates, s.id = id := by
  rw [clean_eq hwf, hasState_iff]

end FiniteAutomata.Graph
