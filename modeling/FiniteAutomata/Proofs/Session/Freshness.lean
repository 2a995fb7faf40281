import FiniteAutomata.Proofs.Graph.Effect
import FiniteAutomata.Proofs.Session.Refusal

/-!
Numbers are given out once (`numbers_fresh`). In a run they rise, no number that is given out is
carried by any graph yet, and a graph that has lost a number never carries it again. Numbers come to
a second graph by a copy only.
-/
namespace FiniteAutomata

namespace Session

open FiniteAutomata.Graph

/-- Whether a command copies the graph of one session to another. -/
def Command.crosses : Command → Bool
  | .copy t origin => decide (t ≠ origin)
  | _ => false

/-- The numbers that are given out in a moment are new to all graphs. What a graph carries it
carried before, or it was given out in that moment, unless the graph is a copy. A graph that is
loaded carries nothing old, and an answer names what was given out. -/
structure Moment.Fresh (m : Moment) : Prop where
  states_new : ∀ id ∈ m.states, ∀ h g, m.before.graph? h = some g → id ∉ g.stateIds
  transitions_new : ∀ id ∈ m.transitions, ∀ h g, m.before.graph? h = some g →
    id ∉ g.transitionIds
  brought : ∀ h g, m.after.graph? h = some g →
    (∃ t origin, m.command = .copy t origin ∧ m.before.sessionGraph? origin = some g) ∨
      (∀ id ∈ g.stateIds, id ∈ m.states ∨ ∃ k, m.before.graph? h = some k ∧ id ∈ k.stateIds) ∧
        ∀ id ∈ g.transitionIds,
          id ∈ m.transitions ∨ ∃ k, m.before.graph? h = some k ∧ id ∈ k.transitionIds
  loaded : m.command.loads → ∀ h g, m.after.graph? h = some g → m.before.graph? h ≠ some g →
    (∀ id ∈ g.stateIds, id ∈ m.states) ∧ ∀ id ∈ g.transitionIds, id ∈ m.transitions
  state_answered : ∀ target change p, m.command = .edit target change → change.places →
    m.answer = .ok (.effect (.state p)) → m.states = [p.id]
  transition_answered : ∀ t, m.answer = .ok (.effect (.transition t)) → m.transitions = [t.id]

namespace Store

variable {s : Store} {c : Command} {h : Handle} {g k : Graph}

/-- No number is carried by the graphs of two sessions, so no transition joins their states. -/
structure Unshared (s : Store) : Prop where
  states : ∀ t u g g', s.sessionGraph? t = some g → s.sessionGraph? u = some g' → t ≠ u →
    ∀ id ∈ g.stateIds, id ∉ g'.stateIds
  transitions : ∀ t u g g', s.sessionGraph? t = some g → s.sessionGraph? u = some g' → t ≠ u →
    ∀ id ∈ g.transitionIds, id ∉ g'.transitionIds
  foreign_refused : ∀ t u g g', s.sessionGraph? t = some g → s.sessionGraph? u = some g' → t ≠ u →
    ∀ id ∈ g'.stateIds, ∀ other symbol,
      (s.perform (.edit (.session t) (.addTransition id other symbol))).1 =
          .error (.unknownEndpoint id) ∧
        (s.perform (.edit (.session t) (.addTransition other id symbol))).1 =
          .error (.unknownEndpoint (if g.hasState other then id else other))

/-- What a graph has lost by the end of some commands it does not carry any more after others. Lost
is what a change takes away: a state or a transition that it names, the transitions that touch a
state that it names, and the states that cleaning finds alone. -/
structure Forgetful (s : Store) : Prop where
  dropped : ∀ target change h g, target.handle? s = some h → s.graph? h = some g →
    ∀ id, g.Drops change id →
      ∀ ds, ∃ l, ((s.after [.edit target change]).after ds).graph? h = some l ∧ l.state? id = none
  cut : ∀ target change h g, target.handle? s = some h → s.graph? h = some g →
    ∀ t, g.Cuts change t →
      ∀ ds, ∃ l, ((s.after [.edit target change]).after ds).graph? h = some l ∧
        l.transition? t.id = none
  states : ∀ cs h g k, s.graph? h = some g → (s.after cs).graph? h = some k →
    ∀ id, (g.state? id).isSome → k.state? id = none →
      ∀ ds, ∃ l, ((s.after cs).after ds).graph? h = some l ∧ l.state? id = none
  transitions : ∀ cs h g k, s.graph? h = some g → (s.after cs).graph? h = some k →
    ∀ id, (g.transition? id).isSome → k.transition? id = none →
      ∀ ds, ∃ l, ((s.after cs).after ds).graph? h = some l ∧ l.transition? id = none

/-! ### What is given out -/

/-- The numbers of a run, moment after moment, are those that its supply has moved on by. -/
theorem flatMap_states_history (s : Store) (cs : List Command) :
    (s.history cs).flatMap (·.states) = s.supply.statesUntil (s.after cs).supply := by
  induction cs generalizing s with
  | nil => exact s.supply.statesUntil_self.symm
  | cons c cs ih =>
    rw [history_cons, List.flatMap_cons, ih, after_cons]
    exact Supply.statesUntil_append (move_perform s c).supply_le (supply_le_after _ cs)

theorem flatMap_transitions_history (s : Store) (cs : List Command) :
    (s.history cs).flatMap (·.transitions) = s.supply.transitionsUntil (s.after cs).supply := by
  induction cs generalizing s with
  | nil => exact s.supply.transitionsUntil_self.symm
  | cons c cs ih =>
    rw [history_cons, List.flatMap_cons, ih, after_cons]
    exact Supply.transitionsUntil_append (move_perform s c).supply_le (supply_le_after _ cs)

theorem AllMade.state_lt (hs : s.AllMade) (hgraph : s.graph? h = some g) {id : StateId}
    (hid : id ∈ g.stateIds) : id.number < s.supply.states := by
  obtain ⟨p, hp, rfl⟩ := List.mem_map.mp hid
  exact (hs.wellFormed hgraph).state_given_out p hp

theorem AllMade.transition_lt (hs : s.AllMade) (hgraph : s.graph? h = some g) {id : TransitionId}
    (hid : id ∈ g.transitionIds) : id.number < s.supply.transitions := by
  obtain ⟨t, ht, rfl⟩ := List.mem_map.mp hid
  exact (hs.wellFormed hgraph).transition_given_out t ht

/-- A graph carries what it carried before and what is given out meanwhile, unless it is a copy. -/
theorem AllMade.brought (hs : s.AllMade) (hgraph : (s.perform c).2.graph? h = some g) :
    (∃ t origin, c = .copy t origin ∧ s.sessionGraph? origin = some g) ∨
      (∀ id ∈ g.stateIds, id ∈ s.supply.statesUntil (s.perform c).2.supply ∨
          ∃ k, s.graph? h = some k ∧ id ∈ k.stateIds) ∧
        ∀ id ∈ g.transitionIds, id ∈ s.supply.transitionsUntil (s.perform c).2.supply ∨
          ∃ k, s.graph? h = some k ∧ id ∈ k.transitionIds := by
  obtain ⟨touched, hothers, htouched⟩ := (move_perform s c).exists_touched
  by_cases hh : h = touched
  · subst hh
    rcases htouched g hgraph with hgrows | ⟨-, hcopied⟩
    · refine Or.inr ⟨fun id hid => ?_, fun id hid => ?_⟩
      · rcases hgrows.states id hid with hold | hnew
        · exact Or.inr (exists_of_mem_stateIds_getD hold)
        · exact Or.inl (Supply.mem_statesUntil.mpr ⟨hnew, (hs.perform c).state_lt hgraph hid⟩)
      · rcases hgrows.transitions id hid with hold | hnew
        · exact Or.inr (exists_of_mem_transitionIds_getD hold)
        · exact Or.inl
            (Supply.mem_transitionsUntil.mpr ⟨hnew, (hs.perform c).transition_lt hgraph hid⟩)
    · exact Or.inl hcopied
  · rw [hothers h hh] at hgraph
    exact Or.inr ⟨fun id hid => Or.inr ⟨g, hgraph, hid⟩, fun id hid => Or.inr ⟨g, hgraph, hid⟩⟩

/-- A load gives numbers of its own to the graph that it makes. -/
theorem loaded_perform (hloads : c.loads) (hgraph : (s.perform c).2.graph? h = some g)
    (hchanged : s.graph? h ≠ some g) :
    (∀ id ∈ g.stateIds, id ∈ s.supply.statesUntil (s.perform c).2.supply) ∧
      ∀ id ∈ g.transitionIds, id ∈ s.supply.transitionsUntil (s.perform c).2.supply := by
  have hstep := step_perform s c
  generalize s.perform c = outcome at hstep hgraph ⊢
  cases hstep with
  | @replaced t source made later hload =>
    have hgraph : (s.replace t made).graph? h = some g := hgraph
    rw [graph?_replace] at hgraph
    by_cases hnew : h.index = s.graphs.length
    · rw [if_pos hnew] at hgraph
      cases hgraph
      exact Source.given_out_of_load hload
    · rw [if_neg hnew] at hgraph
      exact absurd hgraph hchanged
  | @reloaded target k old made later hfind hload =>
    rcases graph?_put_eq_some hgraph with ⟨-, rfl⟩ | ⟨-, hkept⟩
    · have hsaved : (Source.saved old.snapshotText).load s.supply = ⟨.ok g, later⟩ := by
        simp only [Source.load, hload]
        rfl
      exact Source.given_out_of_load hsaved
    · exact absurd hkept hchanged
  | unknown => exact absurd hgraph hchanged
  | unloaded => exact absurd hgraph hchanged
  | spoiled => exact absurd hgraph hchanged
  | _ => cases hloads

/-- Only an edit answers with what became of a graph. -/
theorem exists_edit_of_effect {effect : Graph.Effect}
    (hanswer : (s.perform c).1 = .ok (.effect effect)) :
    ∃ (target : Target) (change : Graph.Edit) (g : Graph), c = .edit target change ∧
      (g.edit s.supply change).answer = .ok effect ∧
      (s.perform c).2.supply = (g.edit s.supply change).supply := by
  have hstep := step_perform s c
  generalize s.perform c = outcome at hstep hanswer ⊢
  cases hstep with
  | @edited target change h g g' answered later hfind hedit =>
    cases hanswer
    refine ⟨target, change, g, rfl, ?_, ?_⟩
    · rw [hedit]
    · rw [hedit]
      rfl
  | _ => cases hanswer

theorem AllMade.fresh (hs : s.AllMade) (c : Command) : (⟨s, c⟩ : Moment).Fresh where
  states_new id hid h g hgraph hmem := by
    have hnew := (Supply.mem_statesUntil.mp hid).1
    have hold := hs.state_lt hgraph hmem
    exact Nat.lt_irrefl _ (Nat.lt_of_lt_of_le hold hnew)
  transitions_new id hid h g hgraph hmem := by
    have hnew := (Supply.mem_transitionsUntil.mp hid).1
    have hold := hs.transition_lt hgraph hmem
    exact Nat.lt_irrefl _ (Nat.lt_of_lt_of_le hold hnew)
  brought h g hgraph := hs.brought hgraph
  loaded hloads h g hgraph hchanged := loaded_perform hloads hgraph hchanged
  state_answered target change p hcommand hplaces hanswer := by
    obtain ⟨target', change', g, heq, heffect, hsupply⟩ := exists_edit_of_effect hanswer
    have hcommand : c = .edit target change := hcommand
    rw [hcommand] at heq
    cases heq
    obtain ⟨q, hplaced, hid, hlater⟩ := edit_of_places hplaces g s.supply
    rw [hplaced] at heffect
    cases heffect
    rw [Moment.states, Moment.after, hsupply, hlater, Supply.statesUntil_afterState, hid]
  transition_answered t hanswer := by
    obtain ⟨target, change, g, rfl, heffect, hsupply⟩ := exists_edit_of_effect hanswer
    obtain ⟨hid, hlater, -⟩ := edit_of_transition heffect
    rw [Moment.transitions, Moment.after, hsupply, hlater, Supply.transitionsUntil_afterTransition,
      hid]

/-! ### What is not shared -/

theorem perform_addTransition_of_foreign {t : Token} {id : StateId}
    (hgraph : s.sessionGraph? t = some g) (hforeign : id ∉ g.stateIds) (other : StateId)
    (symbol : String) :
    (s.perform (.edit (.session t) (.addTransition id other symbol))).1 =
        .error (.unknownEndpoint id) ∧
      (s.perform (.edit (.session t) (.addTransition other id symbol))).1 =
        .error (.unknownEndpoint (if g.hasState other then id else other)) := by
  obtain ⟨h, hget, hheld⟩ := sessionGraph?_eq_some_iff.mp hgraph
  have hfind : s.find (.session t) = .ok (h, g) := find_of_graph? hget hheld
  have hfree : g.hasState id = false := by
    rw [← Bool.not_eq_true, ← mem_stateIds_iff]
    exact hforeign
  refine ⟨?_, ?_⟩
  · rw [perform_edit_of_refuses hfind (.source hfree)]
    rfl
  · cases hother : g.hasState other with
    | true =>
      rw [perform_edit_of_refuses hfind (.target hother hfree)]
      rfl
    | false =>
      rw [perform_edit_of_refuses hfind (.source hother)]
      rfl

/-- The graphs of different sessions carry different numbers. -/
def Disjoint (s : Store) : Prop :=
  ∀ t u g g', s.sessionGraph? t = some g → s.sessionGraph? u = some g' → t ≠ u →
    (∀ id ∈ g.stateIds, id ∉ g'.stateIds) ∧ ∀ id ∈ g.transitionIds, id ∉ g'.transitionIds

theorem Disjoint.unshared (hdisjoint : s.Disjoint) : s.Unshared where
  states t u g g' hg hg' hne := (hdisjoint t u g g' hg hg' hne).1
  transitions t u g g' hg hg' hne := (hdisjoint t u g g' hg hg' hne).2
  foreign_refused t u g g' hg hg' hne id hid other symbol := by
    have hforeign := (hdisjoint u t g' g hg' hg (Ne.symm hne)).1 id hid
    exact perform_addTransition_of_foreign hg hforeign other symbol

/-- A graph that gained new numbers only has none in common with a graph that had none in common
before and was left alone. -/
theorem Disjoint.of_grows (hdisjoint : s.Disjoint) (hs : s.AllMade) {t u : Token} {l : Graph}
    (hne : t ≠ u) (hgrows : Grows s.supply ((s.sessionGraph? t).getD .unnamed) g)
    (hl : s.sessionGraph? u = some l) :
    (∀ id ∈ g.stateIds, id ∉ l.stateIds) ∧ ∀ id ∈ g.transitionIds, id ∉ l.transitionIds := by
  obtain ⟨h, -, hlead⟩ := sessionGraph?_eq_some_iff.mp hl
  refine ⟨fun id hid hmem => ?_, fun id hid hmem => ?_⟩
  · rcases hgrows.states id hid with hold | hnew
    · obtain ⟨g₀, hheld, hold⟩ := exists_of_mem_stateIds_getD hold
      exact (hdisjoint t u g₀ l hheld hl hne).1 id hold hmem
    · have := hs.state_lt hlead hmem
      omega
  · rcases hgrows.transitions id hid with hold | hnew
    · obtain ⟨g₀, hheld, hold⟩ := exists_of_mem_transitionIds_getD hold
      exact (hdisjoint t u g₀ l hheld hl hne).2 id hold hmem
    · have := hs.transition_lt hlead hmem
      omega

section Move

variable {s' : Store} {t u : Token}

/-- What a token is bound to carries new numbers, unless it is the graph of another session. -/
theorem Move.grows_of_bound (hmove : Move s c s') (hcrosses : c.crosses = false)
    (hbound : c.bound? s = some u) (hgraph : s'.sessionGraph? u = some g) :
    Grows s.supply ((s.sessionGraph? u).getD .unnamed) g := by
  cases hmove with
  | wait =>
    have hgraph : s.sessionGraph? u = some g := hgraph
    rw [hgraph]
    exact .refl s.supply g
  | @register t made later drawn hbound' hle hdrawn horigin =>
    rw [hbound] at hbound'
    cases hbound'
    have hgraph : (s.replace u made).sessionGraph? u = some g := hgraph
    rw [sessionGraph?, get?_replace, if_pos rfl, Option.bind_some, graph?_replace, if_pos rfl]
      at hgraph
    cases hgraph
    rcases horigin with hnew | ⟨origin, rfl, hcopied⟩
    · exact hnew _
    · have hself : u = origin := by simpa [Command.crosses] using hcrosses
      rw [hself, hcopied]
      exact .refl s.supply _
  | @forget t hbound' =>
    rw [hbound] at hbound'
    cases hbound'
    rw [sessionGraph?, get?_delete, if_pos rfl] at hgraph
    cases hgraph
  | change hedited =>
    rw [edited?_eq_none_of_bound hbound] at hedited
    cases hedited

theorem Move.sessionGraph?_eq_bind (hmove : Move s c s') (hbound : c.bound? s = none) (t : Token) :
    s'.sessionGraph? t = (s.get? t).bind s'.graph? := by
  rw [sessionGraph?, hmove.get?_eq (by simp [hbound])]

/-- A command touches the graph of one session at most, and the numbers that it brings to it are new
unless it copies the graph of another. -/
theorem Move.exists_touched_session (hmove : Move s c s') (hs : s.Sound)
    (hcrosses : c.crosses = false) :
    ∃ u, (∀ t, t ≠ u → s'.sessionGraph? t = s.sessionGraph? t) ∧
      ∀ g, s'.sessionGraph? u = some g →
        Grows s.supply ((s.sessionGraph? u).getD .unnamed) g := by
  cases hbound : c.bound? s with
  | some u =>
    exact ⟨u, fun t hne => hmove.sessionGraph?_eq_of_bound hs hbound hne,
      fun g hgraph => hmove.grows_of_bound hcrosses hbound hgraph⟩
  | none =>
    obtain ⟨touched, hothers, htouched⟩ := hmove.exists_touched
    have hkept (t : Token) (hne : s.get? t ≠ some touched) :
        s'.sessionGraph? t = s.sessionGraph? t := by
      rw [hmove.sessionGraph?_eq_bind hbound, sessionGraph?]
      cases ht : s.get? t with
      | none => rfl
      | some h => exact hothers h fun heq => hne (heq ▸ ht)
    by_cases hregistered : ∃ u, s.get? u = some touched
    · obtain ⟨u, hu⟩ := hregistered
      refine ⟨u, fun t hne => hkept t fun ht => hne (hs.distinct t u touched ht hu), ?_⟩
      intro g hgraph
      rw [hmove.sessionGraph?_eq_bind hbound, hu] at hgraph
      rw [sessionGraph?, hu]
      rcases htouched g hgraph with hgrows | ⟨hnew, -⟩
      · exact hgrows
      · exact absurd hnew (Nat.ne_of_lt (hs.leads u touched hu))
    · have hall (t : Token) : s'.sessionGraph? t = s.sessionGraph? t :=
        hkept t fun ht => hregistered ⟨t, ht⟩
      refine ⟨.drawn 0, fun t _ => hall t, fun g hgraph => ?_⟩
      rw [← hall, hgraph]
      exact .refl s.supply g

end Move

theorem Disjoint.perform (hdisjoint : s.Disjoint) (hsound : s.Sound) (hs : s.AllMade)
    (hcrosses : c.crosses = false) : (s.perform c).2.Disjoint := by
  obtain ⟨touched, hothers, hgrown⟩ := (move_perform s c).exists_touched_session hsound hcrosses
  intro t u g g' hg hg' hne
  by_cases ht : t = touched
  · subst ht
    rw [hothers u (Ne.symm hne)] at hg'
    exact hdisjoint.of_grows hs hne (hgrown g hg) hg'
  · rw [hothers t ht] at hg
    by_cases hu : u = touched
    · subst hu
      obtain ⟨hstates, htransitions⟩ := hdisjoint.of_grows hs (Ne.symm hne) (hgrown g' hg') hg
      exact ⟨fun id hid hid' => hstates id hid' hid,
        fun id hid hid' => htransitions id hid' hid⟩
    · rw [hothers u hu] at hg'
      exact hdisjoint t u g g' hg hg' hne

theorem Disjoint.after {cs : List Command} (hdisjoint : s.Disjoint) (hsound : s.Sound)
    (hs : s.AllMade) (hcrosses : ∀ c ∈ cs, c.crosses = false) : (s.after cs).Disjoint := by
  induction cs generalizing s with
  | nil => exact hdisjoint
  | cons c cs ih =>
    have hstep := hdisjoint.perform hsound hs (hcrosses c (List.mem_cons_self ..))
    exact ih hstep ((move_perform s c).sound hsound) (hs.perform c)
      fun d hd => hcrosses d (List.mem_cons_of_mem c hd)

/-! ### What does not come back -/

theorem grows_perform (hgraph : s.graph? h = some g) (c : Command) :
    ∃ k, (s.perform c).2.graph? h = some k ∧ Grows s.supply g k := by
  have hmove := move_perform s c
  have hlead : h.index < s.graphs.length :=
    graph?_isSome_iff.mp (Option.isSome_iff_exists.mpr ⟨g, hgraph⟩)
  have hlead' : h.index < (s.perform c).2.graphs.length := Nat.lt_of_lt_of_le hlead hmove.length_le
  obtain ⟨k, hk⟩ := Option.isSome_iff_exists.mp (graph?_isSome_iff.mpr hlead')
  refine ⟨k, hk, ?_⟩
  obtain ⟨touched, hothers, htouched⟩ := hmove.exists_touched
  by_cases hh : h = touched
  · subst hh
    rcases htouched k hk with hgrows | ⟨hnew, -⟩
    · rwa [hgraph] at hgrows
    · exact absurd hnew (Nat.ne_of_lt hlead)
  · rw [hothers h hh, hgraph] at hk
    cases hk
    exact .refl s.supply g

/-- Whatever commands do to a graph, they bring no number into it that was given out before. -/
theorem grows_after (hgraph : s.graph? h = some g) (cs : List Command) :
    ∃ k, (s.after cs).graph? h = some k ∧ Grows s.supply g k := by
  induction cs generalizing s g with
  | nil => exact ⟨g, hgraph, .refl s.supply g⟩
  | cons c cs ih =>
    obtain ⟨k, hk, hstep⟩ := grows_perform hgraph c
    obtain ⟨l, hl, hrest⟩ := ih hk
    exact ⟨l, hl, hstep.trans hrest (move_perform s c).supply_le⟩

/-- A state that was there and is not there any more does not come back. -/
theorem AllMade.state_stays_gone (hs : s.AllMade) {cs : List Command} (hg : s.graph? h = some g)
    (hk : (s.after cs).graph? h = some k) {id : StateId} (hid : (g.state? id).isSome)
    (hgone : k.state? id = none) (ds : List Command) :
    ∃ l, ((s.after cs).after ds).graph? h = some l ∧ l.state? id = none := by
  obtain ⟨l, hl, hgrows⟩ := grows_after hk ds
  refine ⟨l, hl, ?_⟩
  by_contra hback
  have hmem := state?_isSome_iff.mp (Option.isSome_iff_ne_none.mpr hback)
  rcases hgrows.states id hmem with hold | hnew
  · rw [← state?_isSome_iff, hgone] at hold
    cases hold
  · have hlt := hs.state_lt hg (state?_isSome_iff.mp hid)
    have hle := (supply_le_after s cs).1
    omega

theorem AllMade.transition_stays_gone (hs : s.AllMade) {cs : List Command}
    (hg : s.graph? h = some g) (hk : (s.after cs).graph? h = some k) {id : TransitionId}
    (hid : (g.transition? id).isSome) (hgone : k.transition? id = none) (ds : List Command) :
    ∃ l, ((s.after cs).after ds).graph? h = some l ∧ l.transition? id = none := by
  obtain ⟨l, hl, hgrows⟩ := grows_after hk ds
  refine ⟨l, hl, ?_⟩
  by_contra hback
  have hmem := transition?_isSome_iff.mp (Option.isSome_iff_ne_none.mpr hback)
  rcases hgrows.transitions id hmem with hold | hnew
  · rw [← transition?_isSome_iff, hgone] at hold
    cases hold
  · have hlt := hs.transition_lt hg (transition?_isSome_iff.mp hid)
    have hle := (supply_le_after s cs).2
    omega

theorem AllMade.forgetful (hs : s.AllMade) : s.Forgetful where
  dropped target change h g hhandle hgraph id hdrops := by
    have hwf := hs.wellFormed hgraph
    have hid : (g.state? id).isSome := by
      rw [state?_isSome_iff, mem_stateIds_iff]
      exact hdrops.hasState
    have hafter : (s.after [.edit target change]).graph? h = some (g.edit s.supply change).graph :=
      graph?_perform_edit hhandle hgraph change
    exact hs.state_stays_gone hgraph hafter hid (state?_eq_none_iff.mpr (hdrops.hasState_edit hwf))
  cut target change h g hhandle hgraph t hcuts := by
    have hwf := hs.wellFormed hgraph
    have hid : (g.transition? t.id).isSome :=
      transition?_isSome_iff.mpr (List.mem_map_of_mem hcuts.mem)
    have hafter : (s.after [.edit target change]).graph? h = some (g.edit s.supply change).graph :=
      graph?_perform_edit hhandle hgraph change
    exact hs.transition_stays_gone hgraph hafter hid (hcuts.transition?_edit hwf)
  states _ _ _ _ hg hk _ hid hgone := hs.state_stays_gone hg hk hid hgone
  transitions _ _ _ _ hg hk _ hid hgone := hs.transition_stays_gone hg hk hid hgone

/-! ### Main statement -/

/-- What can be said of the numbers of a run from a store without sessions. -/
structure Numbered (start : Store) (cs : List Command) : Prop where
  states_rise : ((start.history cs).flatMap (·.states)).Pairwise fun i j => i.number < j.number
  transitions_rise :
    ((start.history cs).flatMap (·.transitions)).Pairwise fun i j => i.number < j.number
  fresh : ∀ m ∈ start.history cs, m.Fresh
  unshared : (∀ c ∈ cs, c.crosses = false) → (start.after cs).Unshared
  forgetful : (start.after cs).Forgetful

/-- The two counters run ahead of every number in every graph, whatever is loaded, copied, replaced
or deleted and whatever fails. -/
theorem numbers_fresh (defaultName : String) (supply : Supply) (generator : Generator)
    (cs : List Command) : (emptyWith generator defaultName supply).Numbered cs where
  states_rise := by
    rw [flatMap_states_history]
    exact Supply.pairwise_statesUntil ..
  transitions_rise := by
    rw [flatMap_transitions_history]
    exact Supply.pairwise_transitionsUntil ..
  fresh m hm := by
    obtain ⟨done, rest, -, hbefore⟩ := exists_of_mem_history hm
    have hmade : m.before.AllMade := by
      rw [hbefore]
      exact (allMade_empty defaultName supply generator).after done
    exact hmade.fresh m.command
  unshared hcrosses := by
    have hnone : (emptyWith generator defaultName supply).Disjoint := fun _ _ _ _ hg => nomatch hg
    exact (hnone.after (.empty defaultName supply generator)
      (allMade_empty defaultName supply generator) hcrosses).unshared
  forgetful := ((allMade_empty defaultName supply generator).after cs).forgetful

/-- Two sessions with a state each. -/
def paired : List Command :=
  [.create none, .create (some "ab"), .edit (.session (.drawn 0)) (.addState ⟨0, 0⟩),
    .edit (.session (.drawn 1)) (.addLabeledState "q0" ⟨0, 0⟩)]

/-- The state of the one session is unknown in the other, and removed it stays away when its graph
is saved and loaded again. -/
theorem numbers_fresh_paired :
    (∀ c ∈ paired, c.crosses = false) ∧
      (((empty "Mon Automate" .initial).after paired).perform
        (.edit (.session (.drawn 0)) (.addTransition ⟨0⟩ ⟨1⟩ "a"))).1 =
          .error (.unknownEndpoint ⟨1⟩) ∧
      ∃ l, ((((empty "Mon Automate" .initial).after paired).after
        [.edit (.session (.drawn 0)) (.removeState ⟨0⟩)]).after
          [.edit (.session (.drawn 0)) (.addState ⟨0, 0⟩), .reload (.held ⟨0⟩)]).graph? ⟨0⟩ =
            some l ∧ l.state? ⟨0⟩ = none := by
  have hcrosses : ∀ c ∈ paired, c.crosses = false := by simp [paired, Command.crosses]
  have hnumbered := numbers_fresh "Mon Automate" .initial .numbered paired
  refine ⟨hcrosses, ?_, ?_⟩
  · have hforeign := (hnumbered.unshared hcrosses).foreign_refused (.drawn 0) (.drawn 1) _ _ rfl rfl
      (by decide) ⟨1⟩ (by decide) ⟨0⟩ "a"
    exact hforeign.2
  · exact hnumbered.forgetful.states _ ⟨0⟩ _ _ rfl rfl ⟨0⟩ rfl rfl _

end Store
end Session
end FiniteAutomata
