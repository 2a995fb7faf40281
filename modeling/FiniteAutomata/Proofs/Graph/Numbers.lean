import FiniteAutomata.Proofs.Graph.Stroke
import Mathlib.Data.List.Nodup
import Mathlib.Data.List.Perm.Subperm
import Mathlib.Data.List.Range

/-!
The numbers that are given out while a supply moves on, in their order. A renumbering tracks them if
it takes them to the numbers that another supply gives out (`Supply.Tracks`). Where numbers are
tried one after the other, the first that is free is found (`exists_free`).
-/
namespace FiniteAutomata

/-- Each thing that is taken stands in the way of one candidate at most. So of one candidate more
than there are things taken, one is free, and the search finds the first such. -/
theorem exists_free {α : Type} {candidate : Nat → α} (hcandidate : Function.Injective candidate)
    (taken : List α) {free : Nat → Bool} (hfree : ∀ n, free n ↔ candidate n ∉ taken) :
    ∃ n ≤ taken.length, (List.range (taken.length + 1)).find? free = some n ∧
      candidate n ∉ taken ∧ ∀ i < n, candidate i ∈ taken := by
  cases hfind : (List.range (taken.length + 1)).find? free with
  | none =>
    exfalso
    have hsub : (List.range (taken.length + 1)).map candidate ⊆ taken := by
      intro a ha
      obtain ⟨i, hi, rfl⟩ := List.mem_map.mp ha
      have hused := List.find?_eq_none.mp hfind i hi
      rw [hfree] at hused
      exact not_not.mp hused
    have hle := ((List.nodup_range.map hcandidate).subperm hsub).length_le
    rw [List.length_map, List.length_range] at hle
    exact Nat.not_succ_le_self _ hle
  | some n =>
    obtain ⟨hn, hmem, hbefore⟩ := List.find?_range_eq_some.mp hfind
    refine ⟨n, by simpa [Nat.lt_succ_iff] using hmem, rfl, (hfree n).mp hn, fun i hi => ?_⟩
    have hused : ¬free i := by simpa using hbefore i hi
    rw [hfree] at hused
    exact not_not.mp hused

/-- The numbers from `a` up to but not including `b`. -/
def between (a b : Nat) : List Nat := List.range' a (b - a)

theorem mem_between {a b n : Nat} : n ∈ between a b ↔ a ≤ n ∧ n < b := by
  rw [between, List.mem_range'_1]
  omega

theorem length_between (a b : Nat) : (between a b).length = b - a := List.length_range'

theorem pairwise_between (a b : Nat) : (between a b).Pairwise (· < ·) := List.pairwise_lt_range'

theorem between_append {a b c : Nat} (hab : a ≤ b) (hbc : b ≤ c) :
    between a b ++ between b c = between a c := by
  have hlength : c - a = (b - a) + (c - b) := by omega
  have hstart : a + (b - a) = b := by omega
  rw [between, between, between, hlength, ← List.range'_append_1, hstart]

/-- The elements of the list are numbered from `start` on, one after the other. -/
def Consecutive {ι : Type} (mk : Nat → ι) (start : Nat) (ids : List ι) : Prop :=
  ids = (List.range' start ids.length).map mk

theorem consecutive_append {ι : Type} {mk : Nat → ι} {start : Nat} {ids ids' : List ι} :
    Consecutive mk start (ids ++ ids') ↔
      Consecutive mk start ids ∧ Consecutive mk (start + ids.length) ids' := by
  have hsplit : (List.range' start (ids ++ ids').length).map mk =
      (List.range' start ids.length).map mk ++
        (List.range' (start + ids.length) ids'.length).map mk := by
    rw [List.length_append, ← List.range'_append_1, List.map_append]
  rw [Consecutive, hsplit]
  constructor
  · intro heq
    exact List.append_inj heq (by simp)
  · intro hparts
    obtain ⟨hids, hids'⟩ := hparts
    rw [← hids, ← hids']

theorem Consecutive.pairwise_lt {ι : Type} {mk : Nat → ι} {start : Nat} {ids : List ι}
    (hids : Consecutive mk start ids) (number : ι → Nat) (hmk : ∀ n, number (mk n) = n) :
    ids.Pairwise fun i j => number i < number j := by
  rw [hids, List.pairwise_map]
  simp only [hmk]
  exact List.pairwise_lt_range'

section Renumbering

variable {ι : Type} [DecidableEq ι] {mk : Nat → ι} {number : ι → Nat} {start : Nat} {own : List ι}

/-- The elements of the list get the numbers from `start` on, and everything else greater ones. -/
def renumbering (mk : Nat → ι) (number : ι → Nat) (start : Nat) (own : List ι) (i : ι) : ι :=
  if i ∈ own then mk (start + own.idxOf i) else mk (start + own.length + number i)

theorem renumbering_injective (hmk : Function.Injective mk) (hnumber : Function.Injective number) :
    Function.Injective (renumbering mk number start own) := by
  intro i j heq
  unfold renumbering at heq
  by_cases hi : i ∈ own
  · have hbound := List.idxOf_lt_length_of_mem hi
    by_cases hj : j ∈ own
    · rw [if_pos hi, if_pos hj] at heq
      exact (List.idxOf_inj hi).mp (Nat.add_left_cancel (hmk heq))
    · rw [if_pos hi, if_neg hj] at heq
      have := hmk heq
      omega
  · by_cases hj : j ∈ own
    · have hbound := List.idxOf_lt_length_of_mem hj
      rw [if_neg hi, if_pos hj] at heq
      have := hmk heq
      omega
    · rw [if_neg hi, if_neg hj] at heq
      exact hnumber (Nat.add_left_cancel (hmk heq))

theorem consecutive_renumbering (hown : own.Nodup) :
    Consecutive mk start (own.map (renumbering mk number start own)) := by
  rw [Consecutive, List.length_map]
  apply List.ext_getElem
  · simp
  · intro i hi hi'
    simp [renumbering, hown.idxOf_getElem]

end Renumbering

theorem nodup_of_pairwise_lt {ι : Type} {own : List ι} {key : ι → Nat}
    (hkey : own.Pairwise fun i j => key i < key j) : own.Nodup := by
  refine hkey.imp ?_
  intro i j hlt heq
  rw [heq] at hlt
  exact Nat.lt_irrefl _ hlt

/-- Numbers that increase along a list under two keys are ordered alike by both. -/
theorem lt_of_pairwise_lt {ι : Type} {own : List ι} {key key' : ι → Nat}
    (hkey : own.Pairwise fun i j => key i < key j) (hkey' : own.Pairwise fun i j => key' i < key' j)
    {i j : ι} (hi : i ∈ own) (hj : j ∈ own) (hlt : key i < key j) : key' i < key' j := by
  obtain ⟨a, ha, rfl⟩ := List.getElem_of_mem hi
  obtain ⟨b, hb, rfl⟩ := List.getElem_of_mem hj
  rw [List.pairwise_iff_getElem] at hkey hkey'
  rcases Nat.lt_trichotomy a b with hab | rfl | hba
  · exact hkey' a b ha hb hab
  · omega
  · have := hkey b a hb ha hba
    omega

namespace Supply

variable {a b c : Supply}

/-- The numbers of states that are given out from one supply to a later one. -/
def statesUntil (supply later : Supply) : List StateId :=
  (between supply.states later.states).map StateId.mk

def transitionsUntil (supply later : Supply) : List TransitionId :=
  (between supply.transitions later.transitions).map TransitionId.mk

theorem mem_statesUntil {id : StateId} :
    id ∈ a.statesUntil b ↔ a.states ≤ id.number ∧ id.number < b.states := by
  rw [statesUntil, List.mem_map, ← mem_between]
  constructor
  · intro hid
    obtain ⟨n, hn, rfl⟩ := hid
    exact hn
  · intro hid
    exact ⟨id.number, hid, rfl⟩

theorem mem_transitionsUntil {id : TransitionId} :
    id ∈ a.transitionsUntil b ↔ a.transitions ≤ id.number ∧ id.number < b.transitions := by
  rw [transitionsUntil, List.mem_map, ← mem_between]
  constructor
  · intro hid
    obtain ⟨n, hn, rfl⟩ := hid
    exact hn
  · intro hid
    exact ⟨id.number, hid, rfl⟩

theorem length_statesUntil (a b : Supply) : (a.statesUntil b).length = b.states - a.states := by
  rw [statesUntil, List.length_map, length_between]

theorem length_transitionsUntil (a b : Supply) :
    (a.transitionsUntil b).length = b.transitions - a.transitions := by
  rw [transitionsUntil, List.length_map, length_between]

theorem pairwise_statesUntil (a b : Supply) :
    (a.statesUntil b).Pairwise fun i j => i.number < j.number :=
  List.pairwise_map.mpr (pairwise_between ..)

theorem pairwise_transitionsUntil (a b : Supply) :
    (a.transitionsUntil b).Pairwise fun i j => i.number < j.number :=
  List.pairwise_map.mpr (pairwise_between ..)

theorem statesUntil_append (hab : a ≤ b) (hbc : b ≤ c) :
    a.statesUntil b ++ b.statesUntil c = a.statesUntil c := by
  rw [statesUntil, statesUntil, statesUntil, ← List.map_append, between_append hab.1 hbc.1]

theorem transitionsUntil_append (hab : a ≤ b) (hbc : b ≤ c) :
    a.transitionsUntil b ++ b.transitionsUntil c = a.transitionsUntil c := by
  rw [transitionsUntil, transitionsUntil, transitionsUntil, ← List.map_append,
    between_append hab.2 hbc.2]

@[simp]
theorem statesUntil_self (a : Supply) : a.statesUntil a = [] := by simp [statesUntil, between]

@[simp]
theorem transitionsUntil_self (a : Supply) : a.transitionsUntil a = [] := by
  simp [transitionsUntil, between]

@[simp]
theorem statesUntil_afterState (a : Supply) : a.statesUntil a.afterState = [a.nextState] := by
  simp [statesUntil, between, afterState, nextState]

@[simp]
theorem transitionsUntil_afterTransition (a : Supply) :
    a.transitionsUntil a.afterTransition = [a.nextTransition] := by
  simp [transitionsUntil, between, afterTransition, nextTransition]

/-- `start` after as many numbers as are given out from one supply to a later one. -/
def advanced (start supply later : Supply) : Supply :=
  ⟨start.states + (later.states - supply.states),
    start.transitions + (later.transitions - supply.transitions)⟩

@[simp]
theorem advanced_self (start supply : Supply) : start.advanced supply supply = start := by
  simp [advanced]

@[simp]
theorem advanced_afterState (start supply : Supply) :
    start.advanced supply supply.afterState = start.afterState := by
  simp [advanced, afterState]

@[simp]
theorem advanced_afterTransition (start supply : Supply) :
    start.advanced supply supply.afterTransition = start.afterTransition := by
  simp [advanced, afterTransition]

/-- The numbers that are given out from one supply to a later one go to the numbers that come next
with `start`, one after the other. -/
structure Tracks (ρ : StateId → StateId) (τ : TransitionId → TransitionId)
    (supply later start : Supply) : Prop where
  states : Consecutive StateId.mk start.states ((supply.statesUntil later).map ρ)
  transitions : Consecutive TransitionId.mk start.transitions
    ((supply.transitionsUntil later).map τ)

namespace Tracks

variable {ρ : StateId → StateId} {τ : TransitionId → TransitionId} {supply later start : Supply}

theorem state_eq (htracks : Tracks ρ τ supply later start) {id : StateId}
    (hid : id ∈ supply.statesUntil later) :
    ρ id = ⟨start.states + (id.number - supply.states)⟩ := by
  obtain ⟨hle, hlt⟩ := mem_statesUntil.mp hid
  have hdrawn : id.number - supply.states < later.states - supply.states := by omega
  have hid : supply.states + (id.number - supply.states) = id.number := by omega
  have heq := congrArg (·[id.number - supply.states]?) htracks.states
  simpa [statesUntil, between, hdrawn, hid] using heq

theorem transition_eq (htracks : Tracks ρ τ supply later start) {id : TransitionId}
    (hid : id ∈ supply.transitionsUntil later) :
    τ id = ⟨start.transitions + (id.number - supply.transitions)⟩ := by
  obtain ⟨hle, hlt⟩ := mem_transitionsUntil.mp hid
  have hdrawn : id.number - supply.transitions < later.transitions - supply.transitions := by omega
  have hid : supply.transitions + (id.number - supply.transitions) = id.number := by omega
  have heq := congrArg (·[id.number - supply.transitions]?) htracks.transitions
  simpa [transitionsUntil, between, hdrawn, hid] using heq

theorem map_states (htracks : Tracks ρ τ supply later start) :
    (supply.statesUntil later).map ρ = start.statesUntil (start.advanced supply later) := by
  rw [htracks.states, List.length_map, length_statesUntil]
  simp [statesUntil, between, advanced]

theorem map_transitions (htracks : Tracks ρ τ supply later start) :
    (supply.transitionsUntil later).map τ =
      start.transitionsUntil (start.advanced supply later) := by
  rw [htracks.transitions, List.length_map, length_transitionsUntil]
  simp [transitionsUntil, between, advanced]

/-- The next number goes to the next number, if it is given out. -/
theorem nextState_eq (htracks : Tracks ρ τ supply later start)
    (hdrawn : supply.states < later.states) : ρ supply.nextState = start.nextState := by
  rw [htracks.state_eq (mem_statesUntil.mpr ⟨Nat.le_refl _, hdrawn⟩)]
  simp [nextState]

theorem nextTransition_eq (htracks : Tracks ρ τ supply later start)
    (hdrawn : supply.transitions < later.transitions) :
    τ supply.nextTransition = start.nextTransition := by
  rw [htracks.transition_eq (mem_transitionsUntil.mpr ⟨Nat.le_refl _, hdrawn⟩)]
  simp [nextTransition]

end Tracks

end Supply

end FiniteAutomata
