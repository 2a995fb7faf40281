import FiniteAutomata.Snapshot.Basic
import Mathlib.Data.List.Nodup
import Mathlib.Data.Set.Function

/-!
How a snapshot is loaded. Its states get the next numbers in the order in which they are listed, and
so do its transitions, whose ends are looked up among the new numbers.
-/
namespace FiniteAutomata

def State.renumbered (ρ : StateId → StateId) (s : State) : State := { s with id := ρ s.id }

def Transition.renumbered (ρ : StateId → StateId) (τ : TransitionId → TransitionId)
    (t : Transition) : Transition :=
  ⟨τ t.id, ρ t.source, ρ t.target, t.symbol⟩

/-! ### Numbers in order -/

/-- Keys that are all different are numbered in their order by their places. -/
theorem map_idxOf {κ ι : Type} [DecidableEq κ] {keys : List κ} (hkeys : keys.Nodup)
    (start : Nat) (mk : Nat → ι) :
    keys.map (fun k => mk (start + keys.idxOf k)) = (List.range' start keys.length).map mk := by
  apply List.ext_getElem
  · simp
  · intro i hi hi'
    simp [hkeys.idxOf_getElem]

/-- Keys that are all different can be numbered in their order. -/
theorem exists_numbering {κ ι : Type} [DecidableEq κ] {keys : List κ} (hkeys : keys.Nodup)
    (start : Nat) (mk : Nat → ι) :
    ∃ number : κ → ι, keys.map number = (List.range' start keys.length).map mk :=
  ⟨_, map_idxOf hkeys start mk⟩

section Numbering

variable {κ ι : Type} {keys : List κ} {number : κ → ι} {mk : Nat → ι} {start : Nat}

/-- Numbers given out in order are all different. -/
theorem bijOn_of_numbering (hmk : Function.Injective mk)
    (hnumber : keys.map number = (List.range' start keys.length).map mk) :
    Set.BijOn number {k | k ∈ keys} {i | i ∈ keys.map number} := by
  have hnodup : (keys.map number).Nodup := by
    rw [hnumber]
    exact List.Nodup.map hmk List.nodup_range'
  refine ⟨fun k hk => List.mem_map_of_mem hk, ?_, fun i hi => List.mem_map.mp hi⟩
  intro k hk k' hk' heq
  exact List.inj_on_of_nodup_map hnodup hk hk' heq

theorem exists_le_of_numbering
    (hnumber : keys.map number = (List.range' start keys.length).map mk) {i : ι}
    (hi : i ∈ keys.map number) : ∃ n, start ≤ n ∧ i = mk n := by
  rw [hnumber] at hi
  obtain ⟨n, hn, heq⟩ := List.mem_map.mp hi
  exact ⟨n, (List.mem_range'_1.mp hn).1, heq.symm⟩

end Numbering

section LookUp

variable {κ ι : Type} [DecidableEq κ] {entries : List (κ × ι)} {number : κ → ι} {done : List κ}

/-- One more key can be looked up if its number is entered. -/
theorem lookup_cons_numbered
    (h : ∀ k, entries.lookup k = if k ∈ done then some (number k) else none) (k other : κ) :
    ((k, number k) :: entries).lookup other =
      if other ∈ done ++ [k] then some (number other) else none := by
  by_cases hother : other = k
  · simp [hother]
  · simp [hother, h other, List.lookup_cons, beq_false_of_ne hother]

/-- A key that is still to come cannot be looked up. -/
theorem lookup_eq_none_of_nodup
    (h : ∀ k, entries.lookup k = if k ∈ done then some (number k) else none) {k : κ}
    {rest : List κ} (hnew : (done ++ k :: rest).Nodup) : entries.lookup k = none := by
  rw [h, if_neg]
  rw [List.nodup_append] at hnew
  intro hdone
  exact hnew.2.2 k hdone k (List.mem_cons_self ..) rfl

end LookUp

namespace Snapshot

/-! ### Loading -/

/-- States that the snapshot numbers differently are placed in their order, their new numbers can be
looked up, and the rest is placed behind them. -/
theorem addStates_append {ρ : StateId → StateId} (ss rest : List State) {done : List StateId}
    {supply : Supply} {ids : Renumbering} {g : Graph}
    (hids : ∀ id, ids.lookup id = if id ∈ done then some (ρ id) else none)
    (hnew : (done ++ ss.map (·.id)).Nodup)
    (hρ : ss.map (ρ ·.id) = (List.range' supply.states ss.length).map StateId.mk) :
    ∃ found : Renumbering,
      (∀ id, found.lookup id = if id ∈ done ++ ss.map (·.id) then some (ρ id) else none) ∧
      addStates supply ids g (ss ++ rest) =
        addStates { supply with states := supply.states + ss.length } found
          { g with states := g.states ++ ss.map (·.renumbered ρ) } rest := by
  induction ss generalizing done supply ids g with
  | nil => exact ⟨ids, by simpa using hids, by simp⟩
  | cons s ss ih =>
    rw [List.map_cons, List.length_cons, List.range'_succ, List.map_cons, List.cons.injEq] at hρ
    obtain ⟨hhead, htail⟩ := hρ
    have hunused : ids.lookup s.id = none := lookup_eq_none_of_nodup hids hnew
    have hids' := lookup_cons_numbered hids s.id
    rw [List.map_cons, List.append_cons] at hnew
    obtain ⟨found, hfound, hplaced⟩ :=
      @ih _ supply.afterState _ (g.insertState { s with id := ρ s.id }) hids' hnew htail
    refine ⟨found, ?_, ?_⟩
    · rw [List.map_cons, List.append_cons]
      exact hfound
    · have hnext : supply.nextState = ρ s.id := hhead.symm
      rw [List.cons_append, addStates, hunused]
      simp only [hnext, hplaced]
      simp [Graph.insertState, State.renumbered, Supply.afterState, Nat.add_assoc, Nat.add_comm 1]

theorem addStates_distinct (ρ : StateId → StateId) (supply : Supply) {before : List State}
    (hbefore : (before.map (·.id)).Nodup)
    (hρ : before.map (ρ ·.id) = (List.range' supply.states before.length).map StateId.mk)
    (rest : List State) (g : Graph) :
    ∃ ids : Renumbering,
      (∀ id, ids.lookup id = if id ∈ before.map (·.id) then some (ρ id) else none) ∧
      addStates supply [] g (before ++ rest) =
        addStates { supply with states := supply.states + before.length } ids
          { g with states := g.states ++ before.map (·.renumbered ρ) } rest :=
  @addStates_append ρ before rest [] supply [] g (by simp) hbefore hρ

/-- Transitions between states with new numbers are made in their order, and the rest is made behind
them. -/
theorem addTransitions_append {ρ : StateId → StateId} {ids : Renumbering}
    (ts rest : List Transition) (supply : Supply) (g : Graph)
    (hsource : ∀ t ∈ ts, ids.lookup t.source = some (ρ t.source))
    (htarget : ∀ t ∈ ts, ids.lookup t.target = some (ρ t.target)) :
    ∃ h : Graph, h.name = g.name ∧ h.states = g.states ∧
      (h.transitions = g.transitions ++ ts.mapIdx fun k t =>
        ⟨⟨supply.transitions + k⟩, ρ t.source, ρ t.target, t.symbol⟩) ∧
      addTransitions supply ids g (ts ++ rest) =
        addTransitions { supply with transitions := supply.transitions + ts.length } ids h
          rest := by
  induction ts generalizing supply g with
  | nil => exact ⟨g, rfl, rfl, by simp, by simp⟩
  | cons t ts ih =>
    obtain ⟨h, hname, hstates, htransitions, hdone⟩ :=
      ih supply.afterTransition
        (g.insertTransition ⟨supply.nextTransition, ρ t.source, ρ t.target, t.symbol⟩)
        (fun u hu => hsource u (List.mem_cons_of_mem _ hu))
        fun u hu => htarget u (List.mem_cons_of_mem _ hu)
    refine ⟨h, hname, hstates, ?_, ?_⟩
    · rw [htransitions, List.mapIdx_cons]
      simp [Graph.insertTransition, Supply.nextTransition, Supply.afterTransition, Nat.add_assoc,
        Nat.add_comm 1]
    · rw [List.cons_append, addTransitions, hsource t (List.mem_cons_self ..),
        htarget t (List.mem_cons_self ..)]
      simp only [hdone]
      simp [Supply.afterTransition, Nat.add_assoc, Nat.add_comm 1]

/-- Where no two states of a snapshot have one number, they are all there before the first
transition, and transitions between them are made before the rest is looked at. -/
theorem toGraph_append {s : Snapshot} {supply : Supply} {ρ : StateId → StateId}
    {before rest : List Transition} (htransitions : s.transitions = before ++ rest)
    (hids : (s.states.map (·.id)).Nodup)
    (hsource : ∀ t ∈ before, t.source ∈ s.states.map (·.id))
    (htarget : ∀ t ∈ before, t.target ∈ s.states.map (·.id))
    (hρ : s.states.map (ρ ·.id) =
      (List.range' supply.states s.states.length).map StateId.mk) :
    ∃ (ids : Renumbering) (h : Graph),
      (∀ id, ids.lookup id = if id ∈ s.states.map (·.id) then some (ρ id) else none) ∧
      h.name = s.name ∧ h.states = s.states.map (·.renumbered ρ) ∧
      (h.transitions = before.mapIdx fun k t =>
        ⟨⟨supply.transitions + k⟩, ρ t.source, ρ t.target, t.symbol⟩) ∧
      s.toGraph supply =
        addTransitions ⟨supply.states + s.states.length, supply.transitions + before.length⟩ ids h
          rest := by
  obtain ⟨ids, hlookup, hplaced⟩ := addStates_distinct ρ supply hids hρ [] (.named s.name)
  have hknown {id : StateId} (hid : id ∈ s.states.map (·.id)) : ids.lookup id = some (ρ id) := by
    rw [hlookup, if_pos]
    exact hid
  obtain ⟨h, hname, hstates, hjoined, hrest⟩ := addTransitions_append before rest
    { supply with states := supply.states + s.states.length }
    { Graph.named s.name with states := s.states.map (·.renumbered ρ) }
    (fun t ht => hknown (hsource t ht)) fun t ht => hknown (htarget t ht)
  refine ⟨ids, h, hlookup, hname, hstates, hjoined, ?_⟩
  rw [List.append_nil] at hplaced
  rw [toGraph, hplaced, htransitions]
  exact hrest

theorem exists_toGraph {s : Snapshot} {supply : Supply} {ρ : StateId → StateId}
    (hids : (s.states.map (·.id)).Nodup)
    (hsource : ∀ t ∈ s.transitions, t.source ∈ s.states.map (·.id))
    (htarget : ∀ t ∈ s.transitions, t.target ∈ s.states.map (·.id))
    (hρ : s.states.map (ρ ·.id) =
      (List.range' supply.states s.states.length).map StateId.mk) :
    ∃ h, (s.toGraph supply).outcome = .ok h ∧ h.name = s.name ∧
      h.states = s.states.map (·.renumbered ρ) ∧
      h.transitions = s.transitions.mapIdx fun k t =>
        ⟨⟨supply.transitions + k⟩, ρ t.source, ρ t.target, t.symbol⟩ := by
  obtain ⟨ids, h, -, hname, hstates, htransitions, hload⟩ :=
    toGraph_append (List.append_nil _).symm hids hsource htarget hρ
  refine ⟨h, ?_, hname, hstates, htransitions⟩
  rw [hload]
  rfl

/-- Transitions that the snapshot numbers differently have new numbers by their old ones. -/
theorem mapIdx_eq_map {ρ : StateId → StateId} {τ : TransitionId → TransitionId}
    {ts : List Transition} {start : Nat}
    (hτ : (ts.map (·.id)).map τ =
      (List.range' start (ts.map (·.id)).length).map TransitionId.mk) :
    (ts.mapIdx fun k t => (⟨⟨start + k⟩, ρ t.source, ρ t.target, t.symbol⟩ : Transition)) =
      ts.map (·.renumbered ρ τ) := by
  apply List.ext_getElem
  · simp
  · intro i hi hi'
    have hlength : i < ts.length := by simpa using hi'
    have hnumber : τ ts[i].id = ⟨start + i⟩ := by simpa [hlength] using congrArg (·[i]?) hτ
    simp [Transition.renumbered, hnumber]

end Snapshot

end FiniteAutomata
