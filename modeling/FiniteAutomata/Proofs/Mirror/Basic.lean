import FiniteAutomata.Proofs.Graph.Consistency
import Mathlib.Data.List.Forall2
import Mathlib.Data.Set.Function

/-!
Graphs that look alike. A graph mirrors another if its states are those of the other under new
numbers, listed in the same order, and joined in the same way. Where states lie and in which order
transitions were made does not matter. Mirroring goes both ways (`Mirrors.symm`), and everything
that is read off a listing or off the transitions at a state is the same on both sides.
-/
namespace FiniteAutomata

/-- `t` shows what `s` shows, under the number that `f` gives it. -/
structure State.Mirrors (f : StateId → StateId) (s t : State) : Prop where
  id_eq : t.id = f s.id
  label_eq : t.label = s.label
  initial_eq : t.initial = s.initial
  accepting_eq : t.accepting = s.accepting

/-- What a drawing shows of a transition. -/
structure Arrow where
  source : StateId
  target : StateId
  symbol : String
deriving DecidableEq

def Transition.arrow (t : Transition) : Arrow := ⟨t.source, t.target, t.symbol⟩

def Arrow.moved (f : StateId → StateId) (a : Arrow) : Arrow := ⟨f a.source, f a.target, a.symbol⟩

namespace Graph

/-- `h` shows what `g` shows, with states under the numbers that `f` gives them. -/
structure Mirrors (f : StateId → StateId) (g h : Graph) : Prop where
  name_eq : h.name = g.name
  listed : List.Forall₂ (State.Mirrors f) g.listedStates h.listedStates
  arrows : (h.transitions.map (·.arrow)).Perm (g.transitions.map (·.arrow.moved f))
  injective : Set.InjOn f {id | g.hasState id}

theorem exists_of_forall₂ {α β : Type} {R : α → β → Prop} {as : List α} {bs : List β}
    (h : List.Forall₂ R as bs) {a : α} (ha : a ∈ as) : ∃ b ∈ bs, R a b := by
  induction h with
  | nil => exact absurd ha List.not_mem_nil
  | cons hhead _ ih =>
    rcases List.mem_cons.mp ha with rfl | ha
    · exact ⟨_, List.mem_cons_self .., hhead⟩
    · obtain ⟨b, hb, hab⟩ := ih ha
      exact ⟨b, List.mem_cons_of_mem _ hb, hab⟩

theorem map_eq_of_forall₂ {α β γ : Type} {R : α → β → Prop} {as : List α} {bs : List β}
    (h : List.Forall₂ R as bs) {p : α → γ} {q : β → γ} (hpq : ∀ a b, R a b → q b = p a) :
    bs.map q = as.map p := by
  induction h with
  | nil => rfl
  | cons hhead _ ih => rw [List.map_cons, List.map_cons, hpq _ _ hhead, ih]

namespace Mirrors

variable {supply later : Supply} {f : StateId → StateId} {g h : Graph}

/-! ### States -/

theorem exists_mirror (hm : Mirrors f g h) {s : State} (hs : s ∈ g.states) :
    ∃ t ∈ h.states, s.Mirrors f t := by
  obtain ⟨t, ht, hst⟩ := exists_of_forall₂ hm.listed (mem_listedStates.mpr hs)
  exact ⟨t, mem_listedStates.mp ht, hst⟩

theorem exists_mirrored (hm : Mirrors f g h) {t : State} (ht : t ∈ h.states) :
    ∃ s ∈ g.states, s.Mirrors f t := by
  obtain ⟨s, hs, hst⟩ := exists_of_forall₂ hm.listed.flip (mem_listedStates.mpr ht)
  exact ⟨s, mem_listedStates.mp hs, hst⟩

theorem filter_listedStates (hm : Mirrors f g h) {p q : State → Bool}
    (hpq : ∀ s t, s.Mirrors f t → q t = p s) :
    List.Forall₂ (State.Mirrors f) (g.listedStates.filter p) (h.listedStates.filter q) :=
  List.rel_filter (fun s t hst => iff_of_eq (congrArg (· = true) (hpq s t hst).symm)) hm.listed

theorem initialStates_forall₂ (hm : Mirrors f g h) :
    List.Forall₂ (State.Mirrors f) g.initialStates h.initialStates :=
  hm.filter_listedStates fun _ _ hst => hst.initial_eq

theorem acceptingStates_forall₂ (hm : Mirrors f g h) :
    List.Forall₂ (State.Mirrors f) g.acceptingStates h.acceptingStates :=
  hm.filter_listedStates fun _ _ hst => hst.accepting_eq

theorem initialState?_rel (hm : Mirrors f g h) :
    Option.Rel (State.Mirrors f) g.initialState? h.initialState? := by
  have hstates := hm.initialStates_forall₂
  rw [initialState?, initialState?]
  generalize g.initialStates = as at hstates
  generalize h.initialStates = bs at hstates
  cases hstates with
  | nil => exact .none
  | cons hhead => exact .some hhead

/-- What all states have on one side they have on the other. -/
theorem all_states (hm : Mirrors f g h) {p q : State → Bool}
    (hpq : ∀ s ∈ g.states, ∀ t ∈ h.states, s.Mirrors f t → q t = p s) :
    h.states.all q = g.states.all p := by
  rw [Bool.eq_iff_iff, List.all_eq_true, List.all_eq_true]
  constructor
  · intro hq s hs
    obtain ⟨t, ht, hst⟩ := hm.exists_mirror hs
    rw [← hpq s hs t ht hst]
    exact hq t ht
  · intro hp t ht
    obtain ⟨s, hs, hst⟩ := hm.exists_mirrored ht
    rw [hpq s hs t ht hst]
    exact hp s hs

theorem stateCount_eq (hm : Mirrors f g h) : h.stateCount = g.stateCount := by
  have hg := g.listedStates_perm.length_eq
  have hh := h.listedStates_perm.length_eq
  rw [stateCount, stateCount, ← hg, ← hh, hm.listed.length_eq]

theorem isEmpty_eq (hm : Mirrors f g h) : h.isEmpty = g.isEmpty := by
  have hcount : h.states.length = g.states.length := hm.stateCount_eq
  rw [isEmpty, isEmpty, Bool.eq_iff_iff, List.isEmpty_iff_length_eq_zero,
    List.isEmpty_iff_length_eq_zero, hcount]

theorem carriesLabel_eq (hm : Mirrors f g h) (label : String) :
    h.carriesLabel label = g.carriesLabel label := by
  have hlabels : h.listedStates.map State.label = g.listedStates.map State.label :=
    map_eq_of_forall₂ hm.listed fun _ _ hst => hst.label_eq
  have hg : g.carriesLabel label = (g.listedStates.map State.label).any (· = label) := by
    rw [List.any_map, g.listedStates_perm.any_eq]
    rfl
  have hh : h.carriesLabel label = (h.listedStates.map State.label).any (· = label) := by
    rw [List.any_map, h.listedStates_perm.any_eq]
    rfl
  rw [hg, hh, hlabels]

theorem freeLabel_eq (hm : Mirrors f g h) : h.freeLabel = g.freeLabel := by
  have hcarries : h.carriesLabel = g.carriesLabel := funext hm.carriesLabel_eq
  rw [freeLabel, freeLabel, freeNumber, freeNumber, hm.stateCount_eq, hcarries]

/-- Looking up the new number of a state leads to its mirror. -/
theorem exists_state?_mirror (hm : Mirrors f g h) (hh : WellFormed later h) {id : StateId}
    {s : State} (hs : g.state? id = some s) :
    ∃ t, h.state? (f id) = some t ∧ s.Mirrors f t := by
  obtain ⟨hmem, rfl⟩ := mem_of_state?_eq_some hs
  obtain ⟨t, ht, hst⟩ := hm.exists_mirror hmem
  exact ⟨t, hh.state?_eq_some_iff.mpr ⟨ht, hst.id_eq⟩, hst⟩

/-! ### Transitions -/

theorem transitionCount_eq (hm : Mirrors f g h) : h.transitionCount = g.transitionCount := by
  simpa [transitionCount] using hm.arrows.length_eq

theorem symbols_perm (hm : Mirrors f g h) :
    (h.transitions.map (·.symbol)).Perm (g.transitions.map (·.symbol)) := by
  have hsymbols := hm.arrows.map Arrow.symbol
  rwa [List.map_map, List.map_map] at hsymbols

theorem alphabet_eq (hm : Mirrors f g h) (hg : WellFormed supply g) (hh : WellFormed later h) :
    h.alphabet = g.alphabet := by
  rw [hg.alphabet_eq, hh.alphabet_eq]
  apply OrderedSet.ext
  intro symbol
  have hread (ts : List Transition) :
      symbol ∈ symbolsOf ts ↔ symbol ∈ ts.map (·.symbol) ∧ isEpsilon symbol = false := by
    rw [mem_symbolsOf, List.mem_map]
    constructor
    · rintro ⟨t, ht, hsilent, rfl⟩
      exact ⟨⟨t, ht, rfl⟩, hsilent⟩
    · rintro ⟨⟨t, ht, rfl⟩, hsilent⟩
      exact ⟨t, ht, hsilent, rfl⟩
  rw [hread, hread, hm.symbols_perm.mem_iff]

/-- The transitions that leave a state lead the same ways on both sides. -/
theorem outgoing_perm (hm : Mirrors f g h) (hg : WellFormed supply g) {s t : State}
    (hs : s ∈ g.states) (hst : s.Mirrors f t) :
    ((h.outgoing t.id).map (·.arrow)).Perm ((g.outgoing s.id).map (·.arrow.moved f)) := by
  have hleft : (h.outgoing t.id).map (·.arrow) =
      (h.transitions.map (·.arrow)).filter (·.source = t.id) := by
    rw [List.filter_map]
    rfl
  have hright : (g.outgoing s.id).map (·.arrow.moved f) =
      (g.transitions.map (·.arrow.moved f)).filter (·.source = t.id) := by
    rw [List.filter_map, outgoing]
    congr 1
    apply List.filter_congr
    intro u hu
    have hsource : f u.source = f s.id ↔ u.source = s.id :=
      hm.injective.eq_iff (hg.source_present u hu) (hasState_of_mem hs)
    simp [Transition.arrow, Arrow.moved, hst.id_eq, hsource]
  rw [hleft, hright]
  exact hm.arrows.filter _

theorem exists_outgoing_iff (hm : Mirrors f g h) (hg : WellFormed supply g) {s t : State}
    (hs : s ∈ g.states) (hst : s.Mirrors f t) (p : Arrow → Prop) :
    (∃ v ∈ h.outgoing t.id, p v.arrow) ↔ ∃ u ∈ g.outgoing s.id, p (u.arrow.moved f) := by
  have hmem (a : Arrow) := (hm.outgoing_perm hg hs hst).mem_iff (a := a)
  simp only [List.mem_map] at hmem
  constructor
  · rintro ⟨v, hv, hp⟩
    obtain ⟨u, hu, heq⟩ := (hmem v.arrow).mp ⟨v, hv, rfl⟩
    exact ⟨u, hu, heq ▸ hp⟩
  · rintro ⟨u, hu, hp⟩
    obtain ⟨v, hv, heq⟩ := (hmem (u.arrow.moved f)).mpr ⟨u, hu, rfl⟩
    exact ⟨v, hv, heq ▸ hp⟩

theorem outgoing_symbols_perm (hm : Mirrors f g h) (hg : WellFormed supply g) {s t : State}
    (hs : s ∈ g.states) (hst : s.Mirrors f t) :
    ((h.outgoing t.id).map (·.symbol)).Perm ((g.outgoing s.id).map (·.symbol)) := by
  have hsymbols := (hm.outgoing_perm hg hs hst).map Arrow.symbol
  rwa [List.map_map, List.map_map] at hsymbols

/-- A transition is a loop on both sides or on neither. -/
theorem moved_isLoop_iff (hm : Mirrors f g h) (hg : WellFormed supply g) {u : Transition}
    (hu : u ∈ g.transitions) :
    (u.arrow.moved f).source = (u.arrow.moved f).target ↔ u.isLoop := by
  have hends : f u.source = f u.target ↔ u.source = u.target :=
    hm.injective.eq_iff (hg.source_present u hu) (hg.target_present u hu)
  rw [Transition.isLoop, decide_eq_true_eq]
  exact hends

/-! ### The other way -/

/-- A graph is the mirror of its mirror, under the numbers that it had. -/
theorem symm (hm : Mirrors f g h) (hg : WellFormed supply g) : ∃ back, Mirrors back h g := by
  have hids : Nonempty StateId := ⟨⟨0⟩⟩
  obtain ⟨back, hback⟩ : ∃ back : StateId → StateId, ∀ id, g.hasState id → back (f id) = id :=
    ⟨Function.invFunOn f {id | g.hasState id}, fun id hid => hm.injective.leftInvOn_invFunOn hid⟩
  refine ⟨back, hm.name_eq.symm, ?_, ?_, ?_⟩
  · have hlisted : List.Forall₂ (fun s t => s ∈ g.states ∧ s.Mirrors f t) g.listedStates
        h.listedStates :=
      (List.forall₂_and_left _ _).mpr ⟨fun s hs => mem_listedStates.mp hs, hm.listed⟩
    refine List.Forall₂.flip (hlisted.imp ?_)
    intro s t hst
    obtain ⟨hs, hst⟩ := hst
    refine ⟨?_, hst.label_eq.symm, hst.initial_eq.symm, hst.accepting_eq.symm⟩
    rw [hst.id_eq, hback s.id (hasState_of_mem hs)]
  · have harrows := (hm.arrows.map (Arrow.moved back)).symm
    rw [List.map_map, List.map_map] at harrows
    have hundone : g.transitions.map (Arrow.moved back ∘ (·.arrow.moved f)) =
        g.transitions.map (·.arrow) := by
      apply List.map_congr_left
      intro u hu
      simp only [Function.comp_apply, Arrow.moved, Transition.arrow,
        hback u.source (hg.source_present u hu), hback u.target (hg.target_present u hu)]
    rwa [hundone] at harrows
  · intro id hid id' hid' heq
    obtain ⟨t, ht, rfl⟩ := hasState_iff.mp hid
    obtain ⟨t', ht', rfl⟩ := hasState_iff.mp hid'
    obtain ⟨s, hs, hst⟩ := hm.exists_mirrored ht
    obtain ⟨s', hs', hst'⟩ := hm.exists_mirrored ht'
    rw [hst.id_eq, hst'.id_eq, hback s.id (hasState_of_mem hs),
      hback s'.id (hasState_of_mem hs')] at heq
    rw [hst.id_eq, hst'.id_eq, heq]

end Mirrors

end Graph

end FiniteAutomata
