import FiniteAutomata.Proofs.Session.Simulation
import Mathlib.Logic.Equiv.Basic

/-!
Sessions do not feel each other (`exists_independent`). All sessions of a store draw on one supply,
so what one does shows in the numbers that another is given. It shows in nothing else: the commands
on one session, carried out alone on an empty store, are answered as they were among all others, up
to the names of tokens, states and transitions. New names keep the order of the session's own
numbers, and the numbers of other sessions become numbers that are never given out.
-/
namespace FiniteAutomata.Session

open FiniteAutomata.Graph

/-- The token of the session that the moment is about. -/
def Moment.session? (m : Moment) : Option Token := m.command.session? m.before

namespace Store

variable {r : Renaming} {t : Token} {s s' : Store} {c : Command} {cs : List Command} {g : Graph}
  {ids : List StateId} {ids' : List TransitionId}

/-- The moments of a run that are about a session. -/
def own (s : Store) (t : Token) (cs : List Command) : List Moment :=
  (s.history cs).filter fun m => m.session? = some t

/-- The numbers of states that a session was given in a run. -/
def ownStates (s : Store) (t : Token) (cs : List Command) : List StateId :=
  (s.own t cs).flatMap (·.states)

def ownTransitions (s : Store) (t : Token) (cs : List Command) : List TransitionId :=
  (s.own t cs).flatMap (·.transitions)

/-- The commands of a run on one session, under other names. -/
def alone (s : Store) (r : Renaming) (t : Token) (cs : List Command) : List Command :=
  (s.own t cs).map fun m => r.command m.command

/-- The run of one session among others from `start` and its run alone from `fresh` are the same
under other names. -/
structure Independent (start fresh : Store) (cs : List Command) (t : Token) (r : Renaming) :
    Prop where
  answers : List.Forall₂ (fun m a => r.Alike m.command m.answer a) (start.own t cs)
    (fresh.performAll (start.alone r t cs)).1
  graph_eq : (fresh.after (start.alone r t cs)).sessionGraph? (r.token t) =
    ((start.after cs).sessionGraph? t).map r.graph
  graph_seen : ∀ g, (start.after cs).sessionGraph? t = some g →
    SeenAlike r.state r.transition g (r.graph g)
  graph_own : ∀ g, (start.after cs).sessionGraph? t = some g →
    (∀ id ∈ g.stateIds, id ∈ start.ownStates t cs) ∧
      ∀ id ∈ g.transitionIds, id ∈ start.ownTransitions t cs
  states_rise : ∀ i ∈ start.ownStates t cs, ∀ j ∈ start.ownStates t cs,
    i.number < j.number → (r.state i).number < (r.state j).number
  transitions_rise : ∀ i ∈ start.ownTransitions t cs, ∀ j ∈ start.ownTransitions t cs,
    i.number < j.number → (r.transition i).number < (r.transition j).number
  states_given_out : (fresh.history (start.alone r t cs)).flatMap (·.states) =
    (start.ownStates t cs).map r.state
  transitions_given_out : (fresh.history (start.alone r t cs)).flatMap (·.transitions) =
    (start.ownTransitions t cs).map r.transition
  states_foreign : ∀ m ∈ start.history cs, m.session? ≠ some t → ∀ id ∈ m.states,
    r.state id ∉ (fresh.history (start.alone r t cs)).flatMap (·.states)
  transitions_foreign : ∀ m ∈ start.history cs, m.session? ≠ some t → ∀ id ∈ m.transitions,
    r.transition id ∉ (fresh.history (start.alone r t cs)).flatMap (·.transitions)
  token_kept : ∀ u, (∀ n, start.generator.draw n ≠ u) → (∀ n, fresh.generator.draw n ≠ u) →
    r.token u = u

/-! ### Own numbers -/

theorem own_cons_of_own (howner : c.session? s = some t) :
    s.own t (c :: cs) = ⟨s, c⟩ :: (s.perform c).2.own t cs :=
  List.filter_cons_of_pos (decide_eq_true howner)

theorem own_cons_of_foreign (hother : c.session? s ≠ some t) :
    s.own t (c :: cs) = (s.perform c).2.own t cs :=
  List.filter_cons_of_neg fun howner => hother (of_decide_eq_true howner)

section Rising

variable {ι : Type} {f : Moment → List ι} {key : ι → Nat}

theorem pairwise_flatMap_own
    (hrise : ((s.history cs).flatMap f).Pairwise fun i j => key i < key j) (t : Token) :
    ((s.own t cs).flatMap f).Pairwise fun i j => key i < key j := by
  rw [List.pairwise_flatMap] at hrise ⊢
  exact ⟨fun m hm => hrise.1 m (List.mem_filter.mp hm).1, hrise.2.filter _⟩

/-- What is given out in a moment of another session is not the session's own. -/
theorem notMem_flatMap_own
    (hrise : ((s.history cs).flatMap f).Pairwise fun i j => key i < key j) {m : Moment}
    (hm : m ∈ s.history cs) (hother : m.session? ≠ some t) {i : ι} (hi : i ∈ f m) :
    i ∉ (s.own t cs).flatMap f := by
  have happart : (s.history cs).Pairwise fun m m' => ∀ i ∈ f m, ∀ j ∈ f m', i ≠ j := by
    refine (List.pairwise_flatMap.mp hrise).2.imp ?_
    intro m m' hlt i hi j hj heq
    have hlt := hlt i hi j hj
    rw [heq] at hlt
    exact Nat.lt_irrefl _ hlt
  have hsymm : Std.Symm fun m m' => ∀ i ∈ f m, ∀ j ∈ f m', i ≠ j :=
    ⟨fun m m' hne i hi j hj heq => hne j hj i hi heq.symm⟩
  intro hmem
  obtain ⟨m', hm', hi'⟩ := List.mem_flatMap.mp hmem
  obtain ⟨hhistory, howner⟩ := List.mem_filter.mp hm'
  have hne : m ≠ m' := by
    intro heq
    rw [heq] at hother
    exact hother (of_decide_eq_true howner)
  exact happart.forall hm hhistory hne i hi i hi' rfl

end Rising

theorem pairwise_states_history (s : Store) (cs : List Command) :
    ((s.history cs).flatMap (·.states)).Pairwise fun i j => i.number < j.number := by
  rw [flatMap_states_history]
  exact Supply.pairwise_statesUntil ..

theorem pairwise_transitions_history (s : Store) (cs : List Command) :
    ((s.history cs).flatMap (·.transitions)).Pairwise fun i j => i.number < j.number := by
  rw [flatMap_transitions_history]
  exact Supply.pairwise_transitionsUntil ..

/-! ### The numbers in a session's graph -/

/-- The graph of a session carries only such numbers. -/
structure Carries (s : Store) (t : Token) (ids : List StateId) (ids' : List TransitionId) :
    Prop where
  states : ∀ g, s.sessionGraph? t = some g → ∀ id ∈ g.stateIds, id ∈ ids
  transitions : ∀ g, s.sessionGraph? t = some g → ∀ id ∈ g.transitionIds, id ∈ ids'

theorem carries_empty (defaultName : String) (supply : Supply) (generator : Generator) (t : Token)
    (ids : List StateId) (ids' : List TransitionId) :
    (emptyWith generator defaultName supply).Carries t ids ids' where
  states _ hgraph := nomatch hgraph
  transitions _ hgraph := nomatch hgraph

theorem Move.grows_session (hmove : Move s c s') (hs : s.Sound) (hcrosses : c.crosses = false)
    (hgraph : s'.sessionGraph? t = some g) :
    Grows s.supply ((s.sessionGraph? t).getD .unnamed) g := by
  obtain ⟨u, hothers, htouched⟩ := hmove.exists_touched_session hs hcrosses
  by_cases ht : t = u
  · subst ht
    exact htouched g hgraph
  · rw [hothers t ht] at hgraph
    rw [hgraph]
    exact .refl s.supply g

theorem crosses_of_plain (hplain : c.plain) : c.crosses = false := by
  cases c with
  | copy => cases hplain
  | _ => rfl

/-- The graph of a session gains numbers only where they are given out for it. -/
theorem Carries.perform (hcarries : s.Carries t ids ids') (hs : s.Sound) (hmade : s.AllMade)
    (hplain : c.plain)
    (hown : c.session? s = some t → (∀ id ∈ (⟨s, c⟩ : Moment).states, id ∈ ids) ∧
      ∀ id ∈ (⟨s, c⟩ : Moment).transitions, id ∈ ids') :
    (s.perform c).2.Carries t ids ids' := by
  by_cases howner : c.session? s = some t
  · have hgrows (g : Graph) (hgraph : (s.perform c).2.sessionGraph? t = some g) :=
      (move_perform s c).grows_session hs (crosses_of_plain hplain) hgraph
    refine ⟨fun g hgraph id hid => ?_, fun g hgraph id hid => ?_⟩
    · obtain ⟨h, -, hheld⟩ := sessionGraph?_eq_some_iff.mp hgraph
      rcases (hgrows g hgraph).states id hid with hold | hnew
      · obtain ⟨k, hk, hmem⟩ := exists_of_mem_stateIds_getD hold
        exact hcarries.states k hk id hmem
      · have hlt := (hmade.perform c).state_lt hheld hid
        exact (hown howner).1 id (Supply.mem_statesUntil.mpr ⟨hnew, hlt⟩)
    · obtain ⟨h, -, hheld⟩ := sessionGraph?_eq_some_iff.mp hgraph
      rcases (hgrows g hgraph).transitions id hid with hold | hnew
      · obtain ⟨k, hk, hmem⟩ := exists_of_mem_transitionIds_getD hold
        exact hcarries.transitions k hk id hmem
      · have hlt := (hmade.perform c).transition_lt hheld hid
        exact (hown howner).2 id (Supply.mem_transitionsUntil.mpr ⟨hnew, hlt⟩)
  · have hkept := hs.sessionGraph?_of_foreign hplain howner
    exact ⟨fun g hgraph => hcarries.states g (hkept ▸ hgraph),
      fun g hgraph => hcarries.transitions g (hkept ▸ hgraph)⟩

/-! ### Runs -/

/-- What the names have to do for the rest of a run: the numbers that the session is still given go
to those that come next on the right, and all its numbers keep their order. -/
structure Fits (r : Renaming) (t : Token) (ids : List StateId) (ids' : List TransitionId)
    (s s' : Store) (cs : List Command) : Prop where
  plain : ∀ c ∈ cs, c.plain
  rises : Rises r.state ids
  own_states : ∀ m ∈ s.own t cs, ∀ id ∈ m.states, id ∈ ids
  own_transitions : ∀ m ∈ s.own t cs, ∀ id ∈ m.transitions, id ∈ ids'
  states : Consecutive StateId.mk s'.supply.states ((s.ownStates t cs).map r.state)
  transitions : Consecutive TransitionId.mk s'.supply.transitions
    ((s.ownTransitions t cs).map r.transition)

theorem Fits.foreign (hfits : Fits r t ids ids' s s' (c :: cs)) (hother : c.session? s ≠ some t) :
    Fits r t ids ids' (s.perform c).2 s' cs := by
  obtain ⟨hplain, hrises, hown, hown', hstates, htransitions⟩ := hfits
  rw [ownStates] at hstates
  rw [ownTransitions] at htransitions
  rw [own_cons_of_foreign hother] at hown hown' hstates htransitions
  exact ⟨fun d hd => hplain d (List.mem_cons_of_mem c hd), hrises, hown, hown', hstates,
    htransitions⟩

theorem Fits.tracks (hfits : Fits r t ids ids' s s' (c :: cs)) (howner : c.session? s = some t) :
    Supply.Tracks r.state r.transition s.supply (s.perform c).2.supply s'.supply := by
  have hstates := hfits.states
  have htransitions := hfits.transitions
  rw [ownStates, own_cons_of_own howner, List.flatMap_cons, List.map_append, consecutive_append]
    at hstates
  rw [ownTransitions, own_cons_of_own howner, List.flatMap_cons, List.map_append,
    consecutive_append] at htransitions
  exact ⟨hstates.1, htransitions.1⟩

theorem Fits.own (hfits : Fits r t ids ids' s s' (c :: cs)) (howner : c.session? s = some t)
    (hagrees : Agrees r t c s s') :
    Fits r t ids ids' (s.perform c).2 (s'.perform (r.command c)).2 cs where
  plain d hd := hfits.plain d (List.mem_cons_of_mem c hd)
  rises := hfits.rises
  own_states m hm := hfits.own_states m (own_cons_of_own howner ▸ List.mem_cons_of_mem _ hm)
  own_transitions m hm :=
    hfits.own_transitions m (own_cons_of_own howner ▸ List.mem_cons_of_mem _ hm)
  states := by
    have hstates := hfits.states
    rw [ownStates, own_cons_of_own howner, List.flatMap_cons, List.map_append, consecutive_append,
      List.length_map, Moment.states, Supply.length_statesUntil] at hstates
    rw [hagrees.supply_eq]
    exact hstates.2
  transitions := by
    have htransitions := hfits.transitions
    rw [ownTransitions, own_cons_of_own howner, List.flatMap_cons, List.map_append,
      consecutive_append, List.length_map, Moment.transitions, Supply.length_transitionsUntil]
      at htransitions
    rw [hagrees.supply_eq]
    exact htransitions.2

/-- A run and what is done in it on one session are alike from stores that are. -/
theorem Simulates.after (hsim : Simulates r t s s') (hcarries : s.Carries t ids ids')
    (hfits : Fits r t ids ids' s s' cs) :
    List.Forall₂ (fun m a => r.Alike m.command m.answer a) (s.own t cs)
        (s'.performAll (s.alone r t cs)).1 ∧
      Simulates r t (s.after cs) (s'.after (s.alone r t cs)) ∧
      (s.after cs).Carries t ids ids' ∧
      (s'.history (s.alone r t cs)).flatMap (·.states) = (s.ownStates t cs).map r.state ∧
      (s'.history (s.alone r t cs)).flatMap (·.transitions) =
        (s.ownTransitions t cs).map r.transition := by
  induction cs generalizing s s' with
  | nil => exact ⟨.nil, hsim, hcarries, rfl, rfl⟩
  | cons c cs ih =>
    have hplain := hfits.plain c (List.mem_cons_self ..)
    by_cases howner : c.session? s = some t
    · have hagrees := hsim.agrees hplain howner (hfits.tracks howner)
        fun g hgraph i hi j hj => hfits.rises i (hcarries.states g hgraph i hi) j
          (hcarries.states g hgraph j hj)
      have hmem : (⟨s, c⟩ : Moment) ∈ s.own t (c :: cs) := by
        rw [own_cons_of_own howner]
        exact List.mem_cons_self ..
      have hcarries' := hcarries.perform hsim.sound hsim.made hplain fun _ =>
        ⟨hfits.own_states _ hmem, hfits.own_transitions _ hmem⟩
      obtain ⟨hanswers, hsim', hcarries'', hstates, htransitions⟩ :=
        ih (hsim.own howner hagrees) hcarries' (hfits.own howner hagrees)
      have htracks := hfits.tracks howner
      have hstates₀ : (⟨s', r.command c⟩ : Moment).states =
          (⟨s, c⟩ : Moment).states.map r.state := by
        rw [Moment.states, Moment.states, Moment.after, Moment.after, htracks.map_states,
          hagrees.supply_eq]
      have htransitions₀ : (⟨s', r.command c⟩ : Moment).transitions =
          (⟨s, c⟩ : Moment).transitions.map r.transition := by
        rw [Moment.transitions, Moment.transitions, Moment.after, Moment.after,
          htracks.map_transitions, hagrees.supply_eq]
      rw [alone, ownStates, ownTransitions, own_cons_of_own howner, List.map_cons, history_cons]
      refine ⟨.cons hagrees.answer hanswers, hsim', hcarries'', ?_, ?_⟩
      · rw [List.flatMap_cons, List.flatMap_cons, List.map_append, hstates₀]
        exact congrArg _ hstates
      · rw [List.flatMap_cons, List.flatMap_cons, List.map_append, htransitions₀]
        exact congrArg _ htransitions
    · have hcarries' := hcarries.perform hsim.sound hsim.made hplain fun h => absurd h howner
      have hrest := ih (hsim.foreign hplain howner) hcarries' (hfits.foreign howner)
      rw [alone, ownStates, ownTransitions, own_cons_of_foreign howner]
      exact hrest

/-! ### Names -/

/-- A token that was drawn changes places with the one that another generator gives first. -/
theorem exists_tokenNames (generator solo : Generator) (t : Token) :
    ∃ names : Equiv.Perm Token, (∀ n, generator.draw n = t → names t = solo.draw 0) ∧
      ∀ u, (∀ n, generator.draw n ≠ u) → (∀ n, solo.draw n ≠ u) → names u = u := by
  by_cases hdrawn : ∃ n, generator.draw n = t
  · obtain ⟨n, rfl⟩ := hdrawn
    refine ⟨Equiv.swap (generator.draw n) (solo.draw 0), fun _ _ => Equiv.swap_apply_left .., ?_⟩
    exact fun u hu hu' => Equiv.swap_apply_of_ne_of_ne (hu n).symm (hu' 0).symm
  · exact ⟨Equiv.refl Token, fun n ht => absurd ⟨n, ht⟩ hdrawn, fun _ _ _ => rfl⟩

/-- The names under which a session runs alone: its numbers in the order in which they were given
out become those that come next with `supply`. -/
def soloNames (s : Store) (t : Token) (cs : List Command) (supply : Supply)
    (names : Equiv.Perm Token) : Renaming where
  token := names
  state := renumbering StateId.mk StateId.number supply.states (s.ownStates t cs)
  transition := renumbering TransitionId.mk TransitionId.number supply.transitions
    (s.ownTransitions t cs)
  token_injective := names.injective
  state_injective := renumbering_injective (fun _ _ heq => StateId.mk.inj heq)
    fun _ _ heq => congrArg StateId.mk heq
  transition_injective := renumbering_injective (fun _ _ heq => TransitionId.mk.inj heq)
    fun _ _ heq => congrArg TransitionId.mk heq

theorem consecutive_soloNames (s : Store) (t : Token) (cs : List Command) (supply : Supply)
    (names : Equiv.Perm Token) :
    Consecutive StateId.mk supply.states
        ((s.ownStates t cs).map (s.soloNames t cs supply names).state) ∧
      Consecutive TransitionId.mk supply.transitions
        ((s.ownTransitions t cs).map (s.soloNames t cs supply names).transition) :=
  ⟨consecutive_renumbering (nodup_of_pairwise_lt
      (pairwise_flatMap_own (pairwise_states_history s cs) t)),
    consecutive_renumbering (nodup_of_pairwise_lt
      (pairwise_flatMap_own (pairwise_transitions_history s cs) t))⟩

/-- The names keep the order of the session's own numbers. -/
theorem soloNames_rise (s : Store) (t : Token) (cs : List Command) (supply : Supply)
    (names : Equiv.Perm Token) :
    (∀ i ∈ s.ownStates t cs, ∀ j ∈ s.ownStates t cs, i.number < j.number →
        ((s.soloNames t cs supply names).state i).number <
          ((s.soloNames t cs supply names).state j).number) ∧
      ∀ i ∈ s.ownTransitions t cs, ∀ j ∈ s.ownTransitions t cs, i.number < j.number →
        ((s.soloNames t cs supply names).transition i).number <
          ((s.soloNames t cs supply names).transition j).number := by
  obtain ⟨hstates, htransitions⟩ := consecutive_soloNames s t cs supply names
  have hstates := hstates.pairwise_lt StateId.number fun _ => rfl
  have htransitions := htransitions.pairwise_lt TransitionId.number fun _ => rfl
  rw [List.pairwise_map] at hstates htransitions
  refine ⟨fun i hi j hj hlt => ?_, fun i hi j hj hlt => ?_⟩
  · exact lt_of_pairwise_lt (pairwise_flatMap_own (pairwise_states_history s cs) t) hstates hi hj
      hlt
  · exact lt_of_pairwise_lt (pairwise_flatMap_own (pairwise_transitions_history s cs) t)
      htransitions hi hj hlt

/-! ### Main statement -/

theorem simulates_empty (r : Renaming) (defaultName : String) (supply later : Supply)
    {generator solo : Generator} (honce : generator.GivesOnce t)
    (hfirst : ∀ n, generator.draw n = t → r.token t = solo.draw 0) :
    Simulates r t (emptyWith generator defaultName supply) (emptyWith solo defaultName later) where
  sound := .empty defaultName supply generator
  sound' := .empty defaultName later solo
  made := allMade_empty defaultName supply generator
  made' := allMade_empty defaultName later solo
  defaultName_eq := rfl
  graph_eq := rfl
  gives_once := honce
  drawn_eq n ht _ := hfirst n ht

/-- For every run and every token there are names under which the session runs alone as it ran among
the others, whatever numbers and tokens come first in either run. The generator may repeat tokens as
long as it gives that of the session once only. -/
theorem exists_independent (defaultName : String) (supply later : Supply)
    (generator solo : Generator) (cs : List Command) (hplain : ∀ c ∈ cs, c.plain) (t : Token)
    (honce : generator.GivesOnce t) :
    ∃ r, Independent (emptyWith generator defaultName supply) (emptyWith solo defaultName later)
      cs t r := by
  let start := emptyWith generator defaultName supply
  obtain ⟨names, hfirst, hkept⟩ := exists_tokenNames generator solo t
  let r := start.soloNames t cs later names
  have hsim : Simulates r t start (emptyWith solo defaultName later) :=
    simulates_empty r defaultName supply later honce hfirst
  have hcarries := carries_empty defaultName supply generator t (start.ownStates t cs)
    (start.ownTransitions t cs)
  obtain ⟨hrise, hrise'⟩ := soloNames_rise start t cs later names
  obtain ⟨hstates, htransitions⟩ := consecutive_soloNames start t cs later names
  have hfits : Fits r t (start.ownStates t cs) (start.ownTransitions t cs) start
      (emptyWith solo defaultName later) cs :=
    { plain := hplain
      rises := hrise
      own_states := fun m hm id hid => List.mem_flatMap.mpr ⟨m, hm, hid⟩
      own_transitions := fun m hm id hid => List.mem_flatMap.mpr ⟨m, hm, hid⟩
      states := hstates
      transitions := htransitions }
  obtain ⟨hanswers, hsim', hcarries', hgiven, hgiven'⟩ := hsim.after hcarries hfits
  refine ⟨r, hanswers, hsim'.graph_eq, ?_, ?_, hrise, hrise', hgiven, hgiven', ?_, ?_,
    hkept⟩
  · intro g hgraph
    refine hsim'.seenAlike hgraph ?_
    intro i hi j hj
    exact hrise i (hcarries'.states g hgraph i hi) j (hcarries'.states g hgraph j hj)
  · intro g hgraph
    exact ⟨hcarries'.states g hgraph, hcarries'.transitions g hgraph⟩
  · intro m hm hother id hid
    rw [hgiven, List.mem_map_of_injective r.state_injective]
    exact notMem_flatMap_own (pairwise_states_history start cs) hm hother hid
  · intro m hm hother id hid
    rw [hgiven', List.mem_map_of_injective r.transition_injective]
    exact notMem_flatMap_own (pairwise_transitions_history start cs) hm hother hid

/-- Two sessions by turns. The second is refused a state of the first. -/
def interleaved : List Command :=
  [.create none, .create (some "b"), .edit (.session (.drawn 0)) (.addState ⟨0, 0⟩),
    .edit (.session (.drawn 1)) (.addState ⟨0, 0⟩), .size,
    .edit (.session (.drawn 0)) (.addState ⟨1, 0⟩), .edit (.session (.drawn 1)) (.addState ⟨1, 0⟩),
    .edit (.session (.drawn 1)) (.addTransition ⟨1⟩ ⟨0⟩ "a"), .delete (.drawn 0),
    .edit (.session (.drawn 1)) (.addTransition ⟨1⟩ ⟨3⟩ "a"), .inspect (.session (.drawn 1))]

theorem exists_independent_interleaved :
    (∀ c ∈ interleaved, c.plain) ∧ Generator.numbered.GivesOnce (.drawn 1) ∧
      (empty "Mon Automate" .initial).ownStates (.drawn 1) interleaved = [⟨1⟩, ⟨3⟩] ∧
      ∃ r, Independent (empty "Mon Automate" .initial) (empty "Mon Automate" .initial) interleaved
        (.drawn 1) r ∧ (r.state ⟨1⟩).number < (r.state ⟨3⟩).number := by
  have hplain : ∀ c ∈ interleaved, c.plain := by simp [interleaved, Command.plain]
  have hown : (empty "Mon Automate" .initial).ownStates (.drawn 1) interleaved = [⟨1⟩, ⟨3⟩] := rfl
  have honce : Generator.numbered.GivesOnce (.drawn 1) := Generator.givesOnce_numbered _
  obtain ⟨r, hindependent⟩ : ∃ r, Independent (empty "Mon Automate" .initial)
      (empty "Mon Automate" .initial) interleaved (.drawn 1) r :=
    exists_independent "Mon Automate" .initial .initial .numbered .numbered interleaved hplain _
      honce
  refine ⟨hplain, honce, hown, r, hindependent, ?_⟩
  have hrise := hindependent.states_rise
  rw [hown] at hrise
  exact hrise ⟨1⟩ (by simp) ⟨3⟩ (by simp) (by decide)

end Store

end FiniteAutomata.Session
