import FiniteAutomata.Proofs.Renaming.Edit
import FiniteAutomata.Proofs.Session.Made

/-!
What is loaded depends on the supply only in its numbers (`load_renumbered`). From another supply
the same is made, or the same goes wrong after as many numbers, and the numbers in what is made are
those that come next there. Numbers inside a saved graph are keys that the supply knows nothing of.
-/
namespace FiniteAutomata

/-- From here on, the numbers of one supply go to those of the other. -/
structure Supply.Follows (ρ : StateId → StateId) (τ : TransitionId → TransitionId)
    (supply start : Supply) : Prop where
  states : ∀ i, ρ ⟨supply.states + i⟩ = ⟨start.states + i⟩
  transitions : ∀ i, τ ⟨supply.transitions + i⟩ = ⟨start.transitions + i⟩

/-- An attempt that comes to what another comes to, under other numbers. -/
structure Attempt.Follows {ε α : Type} (ρ : StateId → StateId) (τ : TransitionId → TransitionId)
    (f : α → α) (a a' : Attempt ε α) : Prop where
  outcome_eq : a'.outcome = a.outcome.map f
  supply : Supply.Follows ρ τ a.supply a'.supply

variable {ρ : StateId → StateId} {τ : TransitionId → TransitionId} {supply start : Supply}

namespace Supply.Follows

theorem nextState_eq (hfollows : Follows ρ τ supply start) :
    ρ supply.nextState = start.nextState := hfollows.states 0

theorem nextTransition_eq (hfollows : Follows ρ τ supply start) :
    τ supply.nextTransition = start.nextTransition := hfollows.transitions 0

theorem afterState (hfollows : Follows ρ τ supply start) :
    Follows ρ τ supply.afterState start.afterState where
  states i := by
    have heq := hfollows.states (1 + i)
    rwa [← Nat.add_assoc, ← Nat.add_assoc] at heq
  transitions := hfollows.transitions

theorem afterTransition (hfollows : Follows ρ τ supply start) :
    Follows ρ τ supply.afterTransition start.afterTransition where
  states := hfollows.states
  transitions i := by
    have heq := hfollows.transitions (1 + i)
    rwa [← Nat.add_assoc, ← Nat.add_assoc] at heq

end Supply.Follows

/-! ### Names of states -/

/-- The names with other numbers for the states that they stand for. -/
def renumberedNames {κ : Type} (ρ : StateId → StateId) (names : List (κ × StateId)) :
    List (κ × StateId) :=
  names.map fun p => (p.1, ρ p.2)

theorem lookup_renumberedNames {κ : Type} [BEq κ] (names : List (κ × StateId)) (k : κ) :
    (renumberedNames ρ names).lookup k = (names.lookup k).map ρ :=
  Graph.lookup_map_snd ρ names k

open FiniteAutomata.Graph

/-- A transition between states that names stand for, made with the next number. -/
theorem Supply.Follows.insertTransition (hfollows : Supply.Follows ρ τ supply start) (g : Graph)
    (source target : StateId) (symbol : String) :
    (g.renumbered ρ τ).insertTransition ⟨start.nextTransition, ρ source, ρ target, symbol⟩ =
      (g.insertTransition ⟨supply.nextTransition, source, target, symbol⟩).renumbered ρ τ := by
  rw [renumbered_insertTransition, Transition.renumbered, hfollows.nextTransition_eq]

/-! ### Documents -/

namespace Document

theorem addStates_follows (ds : List StateDecl) (index : Nat) (names : Names) (g : Graph)
    (hfollows : Supply.Follows ρ τ supply start) :
    Attempt.Follows ρ τ (fun r => (renumberedNames ρ r.1, r.2.renumbered ρ τ))
      (addStates supply index names g ds)
      (addStates start index (renumberedNames ρ names) (g.renumbered ρ τ) ds) := by
  induction ds generalizing supply start index names g with
  | nil => exact ⟨rfl, hfollows⟩
  | cons d ds ih =>
    rw [addStates, addStates, lookup_renumberedNames]
    cases names.lookup d.id with
    | some id => exact ⟨rfl, hfollows⟩
    | none =>
      have hstate : State.renumbered ρ (d.toState supply.nextState index) =
          d.toState start.nextState index := by
        rw [← hfollows.nextState_eq]
        rfl
      have hplaced := ih (index + 1) ((d.id, supply.nextState) :: names)
        (g.insertState (d.toState supply.nextState index)) hfollows.afterState
      rw [renumbered_insertState, hstate] at hplaced
      rw [renumberedNames, List.map_cons, hfollows.nextState_eq] at hplaced
      exact hplaced

theorem addSymbols_follows (symbols : List String) (g : Graph) (source target : StateId)
    (hfollows : Supply.Follows ρ τ supply start) :
    (addSymbols start (g.renumbered ρ τ) (ρ source) (ρ target) symbols).1 =
        (addSymbols supply g source target symbols).1.renumbered ρ τ ∧
      Supply.Follows ρ τ (addSymbols supply g source target symbols).2
        (addSymbols start (g.renumbered ρ τ) (ρ source) (ρ target) symbols).2 := by
  induction symbols generalizing supply start g with
  | nil => exact ⟨rfl, hfollows⟩
  | cons symbol rest ih =>
    rw [addSymbols, addSymbols, hfollows.insertTransition]
    exact ih _ hfollows.afterTransition

theorem addTransitions_follows (ds : List TransitionDecl) (names : Names) (g : Graph)
    (hfollows : Supply.Follows ρ τ supply start) :
    Attempt.Follows ρ τ (·.renumbered ρ τ) (addTransitions supply names g ds)
      (addTransitions start (renumberedNames ρ names) (g.renumbered ρ τ) ds) := by
  induction ds generalizing supply start g with
  | nil => exact ⟨rfl, hfollows⟩
  | cons d ds ih =>
    rw [addTransitions, addTransitions, lookup_renumberedNames, lookup_renumberedNames]
    cases names.lookup d.source with
    | none => exact ⟨rfl, hfollows⟩
    | some source =>
      cases names.lookup d.target with
      | none => exact ⟨rfl, hfollows⟩
      | some target =>
        obtain ⟨hmade, hafter⟩ := addSymbols_follows d.symbols g source target hfollows
        have hrest := ih (addSymbols supply g source target d.symbols).1 hafter
        rw [← hmade] at hrest
        exact hrest

theorem toGraph_follows (d : Document) (hfollows : Supply.Follows ρ τ supply start) :
    Attempt.Follows ρ τ (·.renumbered ρ τ) (d.toGraph supply) (d.toGraph start) := by
  have hplaced := addStates_follows d.states 0 [] (.named d.name) hfollows
  rw [renumbered_named] at hplaced
  rw [toGraph, toGraph]
  have hplaced : Attempt.Follows ρ τ _ _ (addStates start 0 [] (.named d.name) d.states) := hplaced
  simp only [hplaced.outcome_eq]
  cases (addStates supply 0 [] (.named d.name) d.states).outcome with
  | error e => exact ⟨rfl, hplaced.supply⟩
  | ok placed => exact addTransitions_follows d.transitions placed.1 placed.2 hplaced.supply

end Document

/-! ### Snapshots -/

namespace Snapshot

theorem addStates_follows (ss : List State) (ids : Renumbering) (g : Graph)
    (hfollows : Supply.Follows ρ τ supply start) :
    Attempt.Follows ρ τ (fun r => (renumberedNames ρ r.1, r.2.renumbered ρ τ))
      (addStates supply ids g ss)
      (addStates start (renumberedNames ρ ids) (g.renumbered ρ τ) ss) := by
  induction ss generalizing supply start ids g with
  | nil => exact ⟨rfl, hfollows⟩
  | cons s ss ih =>
    rw [addStates, addStates, lookup_renumberedNames]
    cases ids.lookup s.id with
    | some id => exact ⟨rfl, hfollows⟩
    | none =>
      have hplaced := ih ((s.id, supply.nextState) :: ids)
        (g.insertState { s with id := supply.nextState }) hfollows.afterState
      rw [renumbered_insertState, State.renumbered, renumberedNames, List.map_cons] at hplaced
      simp only [hfollows.nextState_eq] at hplaced
      exact hplaced

theorem addTransitions_follows (ts : List Transition) (ids : Renumbering) (g : Graph)
    (hfollows : Supply.Follows ρ τ supply start) :
    Attempt.Follows ρ τ (·.renumbered ρ τ) (addTransitions supply ids g ts)
      (addTransitions start (renumberedNames ρ ids) (g.renumbered ρ τ) ts) := by
  induction ts generalizing supply start g with
  | nil => exact ⟨rfl, hfollows⟩
  | cons t ts ih =>
    rw [addTransitions, addTransitions, lookup_renumberedNames, lookup_renumberedNames]
    cases ids.lookup t.source with
    | none => exact ⟨rfl, hfollows⟩
    | some source =>
      cases ids.lookup t.target with
      | none => exact ⟨rfl, hfollows⟩
      | some target =>
        simp only [Option.map_some, hfollows.insertTransition]
        exact ih _ hfollows.afterTransition

theorem toGraph_follows (s : Snapshot) (hfollows : Supply.Follows ρ τ supply start) :
    Attempt.Follows ρ τ (·.renumbered ρ τ) (s.toGraph supply) (s.toGraph start) := by
  have hplaced := addStates_follows s.states [] (.named s.name) hfollows
  rw [renumbered_named] at hplaced
  rw [toGraph, toGraph]
  have hplaced : Attempt.Follows ρ τ _ _ (addStates start [] (.named s.name) s.states) := hplaced
  simp only [hplaced.outcome_eq]
  cases (addStates supply [] (.named s.name) s.states).outcome with
  | error e => exact ⟨rfl, hplaced.supply⟩
  | ok placed => exact addTransitions_follows s.transitions placed.1 placed.2 hplaced.supply

end Snapshot

/-! ### Sources -/

/-- Rewording what went wrong does not depend on numbers. -/
theorem Attempt.Follows.mapError {ε ε' α : Type} {f : α → α} {a a' : Attempt ε α}
    (hfollows : Attempt.Follows ρ τ f a a') (report : ε → ε') :
    Attempt.Follows ρ τ f (⟨a.outcome.mapError report, a.supply⟩ : Attempt ε' α)
      ⟨a'.outcome.mapError report, a'.supply⟩ where
  outcome_eq := by
    rw [hfollows.outcome_eq]
    cases a.outcome <;> rfl
  supply := hfollows.supply

namespace Source

theorem Content.make_follows (c : Content) (hfollows : Supply.Follows ρ τ supply start) :
    Attempt.Follows ρ τ (·.renumbered ρ τ) (c.make supply) (c.make start) := by
  cases c with
  | unreadable error => exact ⟨rfl, hfollows⟩
  | bare name => exact ⟨rfl, hfollows⟩
  | document d => exact (d.toGraph_follows hfollows).mapError _
  | snapshot s report => exact (s.toGraph_follows hfollows).mapError _
  | overlong s report error =>
    have hmade := s.toGraph_follows hfollows
    refine ⟨?_, hmade.supply⟩
    simp only [make, hmade.outcome_eq]
    cases (s.toGraph supply).outcome <;> rfl

theorem load_follows (source : Source) (hfollows : Supply.Follows ρ τ supply start) :
    Attempt.Follows ρ τ (·.renumbered ρ τ) (source.load supply) (source.load start) := by
  obtain ⟨c, hc⟩ := source.exists_content
  rw [hc, hc]
  exact c.make_follows hfollows

/-- A load from another supply gives the same under the numbers that come next there. -/
theorem load_renumbered (source : Source)
    (htracks : Supply.Tracks ρ τ supply (source.load supply).supply start) :
    source.load start =
      ⟨(source.load supply).outcome.map (·.renumbered ρ τ),
        start.advanced supply (source.load supply).supply⟩ := by
  let shift (id : StateId) : StateId := ⟨start.states + (id.number - supply.states)⟩
  let shift' (id : TransitionId) : TransitionId :=
    ⟨start.transitions + (id.number - supply.transitions)⟩
  have hfollows : Supply.Follows shift shift' supply start :=
    ⟨fun i => by simp [shift], fun i => by simp [shift']⟩
  obtain ⟨houtcome, hsupply⟩ := source.load_follows hfollows
  have hadvanced : (source.load start).supply =
      start.advanced supply (source.load supply).supply := by
    have hstates := congrArg StateId.number hsupply.nextState_eq
    have htransitions := congrArg TransitionId.number hsupply.nextTransition_eq
    exact congrArg₂ Supply.mk hstates.symm htransitions.symm
  have hoverlap : (source.load supply).outcome.map (·.renumbered shift shift') =
      (source.load supply).outcome.map (·.renumbered ρ τ) := by
    cases hload : (source.load supply).outcome with
    | error e => rfl
    | ok g =>
      have hmade := ((source.makes_load supply).2 g hload).wellFormed
      have hgiven : source.load supply = ⟨.ok g, (source.load supply).supply⟩ := by rw [← hload]
      obtain ⟨hstates, htransitions⟩ := given_out_of_load hgiven
      refine congrArg Except.ok (renumbered_congr g hmade (fun id hid => ?_) fun id hid => ?_)
      · exact (htracks.state_eq (hstates id hid)).symm
      · exact (htracks.transition_eq (htransitions id hid)).symm
  rw [hoverlap] at houtcome
  rw [← houtcome, ← hadvanced]

end Source

end FiniteAutomata
