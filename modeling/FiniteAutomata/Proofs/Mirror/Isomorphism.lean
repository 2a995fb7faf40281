import FiniteAutomata.Proofs.Graph.Cleaning
import FiniteAutomata.Proofs.Mirror.Report
import FiniteAutomata.Proofs.Mirror.Table

/-!
Graphs that are isomorphic, and what is then the same about them (`alike_of_isomorphic`). A
bijection of the states that keeps labels, flags and the number of transitions from state to state,
and the order of states with one label, keeps the order in which states are listed. So the one graph
mirrors the other, and everything that is read off a graph agrees. Nothing else counts, neither
where states lie nor in which order transitions were made (`Redrawn`).
-/
namespace FiniteAutomata

theorem StateRef.compare_moved_eq_lt {f : StateId → StateId} {r r' : StateRef}
    (hlt : compare r r' = .lt)
    (hf : r.label = r'.label → r.id.number < r'.id.number →
      (f r.id).number < (f r'.id).number) : compare (r.moved f) (r'.moved f) = .lt := by
  have hlt : (compare r.label r'.label).then (compare r.id r'.id) = .lt := hlt
  change (compare r.label r'.label).then (compare (f r.id) (f r'.id)) = .lt
  rw [Ordering.then_eq_lt] at hlt ⊢
  rcases hlt with hlabel | ⟨hlabel, hid⟩
  · exact Or.inl hlabel
  · have hid : r.id.number < r'.id.number := Nat.compare_eq_lt.mp hid
    exact Or.inr ⟨hlabel, Nat.compare_eq_lt.mpr (hf (Std.LawfulEqOrd.eq_of_compare hlabel) hid)⟩

namespace Graph

/-- How many transitions lead from one state to another on a symbol. -/
def strands (g : Graph) (source target : StateId) (symbol : String) : Nat :=
  g.transitions.countP fun t => t.source = source ∧ t.target = target ∧ t.symbol = symbol

/-- The states of `h` are those of `g` under other numbers. Numbers may change their order, but not
among states with one label. -/
structure Isomorphic (f : StateId → StateId) (g h : Graph) : Prop where
  name_eq : h.name = g.name
  bijective : Set.BijOn f {id | g.hasState id} {id | h.hasState id}
  flags : ∀ s ∈ g.states, ∀ t ∈ h.states, t.id = f s.id →
    t.label = s.label ∧ t.initial = s.initial ∧ t.accepting = s.accepting
  strands_eq : ∀ source target symbol, g.hasState source → g.hasState target →
    h.strands (f source) (f target) symbol = g.strands source target symbol
  order : ∀ s ∈ g.states, ∀ t ∈ g.states, s.label = t.label →
    ((f s.id).number < (f t.id).number ↔ s.id.number < t.id.number)

/-- The same drawing with states in other places and transitions made in another order. -/
structure Redrawn (g h : Graph) : Prop where
  name_eq : h.name = g.name
  states : List.Forall₂ (State.Mirrors id) g.states h.states
  arrows : (h.transitions.map (·.arrow)).Perm (g.transitions.map (·.arrow))

/-- What isomorphic graphs have in common. -/
structure Alike (f : StateId → StateId) (g h : Graph) : Prop where
  report_eq : h.report = g.report
  shape_eq : h.shape = g.shape
  table : g.table.Mirrors f h.table
  text_eq : h.table.text = g.table.text
  removed_eq : h.clean.1 = g.clean.1
  removed_iff : ∀ id, g.hasState id → (h.clean.2.hasState (f id) ↔ g.clean.2.hasState id)
  cleaned : Isomorphic f g.clean.2 h.clean.2

theorem count_arrow (g : Graph) (source target : StateId) (symbol : String) :
    (g.transitions.map (·.arrow)).count ⟨source, target, symbol⟩ =
      g.strands source target symbol := by
  rw [strands, List.count, List.countP_map]
  exact List.countP_congr fun t _ => by simp [Transition.arrow]

variable {supply later : Supply} {f : StateId → StateId} {g h : Graph}

/-- Under other numbers the transitions between two states are as many as before. -/
theorem WellFormed.count_moved (hg : WellFormed supply g) (hf : Set.InjOn f {id | g.hasState id})
    {source target : StateId} (hsource : g.hasState source) (htarget : g.hasState target)
    (symbol : String) :
    (g.transitions.map (·.arrow.moved f)).count ⟨f source, f target, symbol⟩ =
      g.strands source target symbol := by
  rw [strands, List.count, List.countP_map]
  refine List.countP_congr fun t ht => ?_
  have hs : f t.source = f source ↔ t.source = source :=
    hf.eq_iff (hg.source_present t ht) hsource
  have ht : f t.target = f target ↔ t.target = target :=
    hf.eq_iff (hg.target_present t ht) htarget
  simp [Arrow.moved, Transition.arrow, hs, ht]

theorem WellFormed.strands_eq_of_perm (hg : WellFormed supply g)
    (hf : Set.InjOn f {id | g.hasState id})
    (harrows : (h.transitions.map (·.arrow)).Perm (g.transitions.map (·.arrow.moved f)))
    {source target : StateId} (hsource : g.hasState source) (htarget : g.hasState target)
    (symbol : String) :
    h.strands (f source) (f target) symbol = g.strands source target symbol := by
  rw [← count_arrow, harrows.count_eq, hg.count_moved hf hsource htarget]

/-! ### Listing -/

namespace Isomorphic

theorem exists_image (hi : Isomorphic f g h) {s : State} (hs : s ∈ g.states) :
    ∃ t ∈ h.states, s.Mirrors f t := by
  obtain ⟨t, ht, hid⟩ := hasState_iff.mp (hi.bijective.mapsTo (hasState_of_mem hs))
  obtain ⟨hlabel, hinitial, haccepting⟩ := hi.flags s hs t ht hid
  exact ⟨t, ht, hid, hlabel, hinitial, haccepting⟩

theorem exists_preimage (hi : Isomorphic f g h) {t : State} (ht : t ∈ h.states) :
    ∃ s ∈ g.states, s.Mirrors f t := by
  obtain ⟨id, hid, heq⟩ := hi.bijective.surjOn (hasState_of_mem ht)
  obtain ⟨s, hs, rfl⟩ := hasState_iff.mp hid
  obtain ⟨hlabel, hinitial, haccepting⟩ := hi.flags s hs t ht heq.symm
  exact ⟨s, hs, heq.symm, hlabel, hinitial, haccepting⟩

theorem listedRefs_eq (hi : Isomorphic f g h) (hg : WellFormed supply g)
    (hh : WellFormed later h) :
    (g.listedStates.map StateRef.ofState).map (StateRef.moved f) =
      h.listedStates.map StateRef.ofState := by
  have hmoved {s t : State} (hst : s.Mirrors f t) :
      (StateRef.ofState s).moved f = StateRef.ofState t := by
    rw [StateRef.ofState, StateRef.ofState, StateRef.moved, hst.id_eq, hst.label_eq]
  refine OrderedSet.eq_of_mem_iff ?_ hh.listedRefs_increasing fun r => ?_
  · rw [List.pairwise_map]
    refine hg.listedRefs_increasing.imp_of_mem fun {r r'} hr hr' hlt => ?_
    obtain ⟨s, hs, rfl⟩ := List.mem_map.mp hr
    obtain ⟨s', hs', rfl⟩ := List.mem_map.mp hr'
    exact StateRef.compare_moved_eq_lt hlt fun hlabel =>
      (hi.order s (mem_listedStates.mp hs) s' (mem_listedStates.mp hs') hlabel).mpr
  · simp only [List.map_map, List.mem_map, mem_listedStates, Function.comp_apply]
    constructor
    · rintro ⟨s, hs, rfl⟩
      obtain ⟨t, ht, hst⟩ := hi.exists_image hs
      exact ⟨t, ht, (hmoved hst).symm⟩
    · rintro ⟨t, ht, rfl⟩
      obtain ⟨s, hs, hst⟩ := hi.exists_preimage ht
      exact ⟨s, hs, hmoved hst⟩

theorem listed (hi : Isomorphic f g h) (hg : WellFormed supply g) (hh : WellFormed later h) :
    List.Forall₂ (State.Mirrors f) g.listedStates h.listedStates := by
  have hrefs := hi.listedRefs_eq hg hh
  rw [← List.forall₂_eq_eq_eq, List.map_map, List.forall₂_map_left_iff,
    List.forall₂_map_right_iff, List.forall₂_iff_zip] at hrefs
  obtain ⟨hlength, hpairs⟩ := hrefs
  refine List.forall₂_iff_zip.mpr ⟨hlength, fun {s t} hpair => ?_⟩
  obtain ⟨hs, ht⟩ := List.of_mem_zip hpair
  have hid : t.id = f s.id := (congrArg StateRef.id (hpairs hpair)).symm
  obtain ⟨hlabel, hinitial, haccepting⟩ :=
    hi.flags s (mem_listedStates.mp hs) t (mem_listedStates.mp ht) hid
  exact ⟨hid, hlabel, hinitial, haccepting⟩

/-! ### Transitions -/

theorem arrows_perm (hi : Isomorphic f g h) (hg : WellFormed supply g) (hh : WellFormed later h) :
    (h.transitions.map (·.arrow)).Perm (g.transitions.map (·.arrow.moved f)) := by
  rw [List.perm_iff_count]
  rintro ⟨source, target, symbol⟩
  by_cases hends : h.hasState source ∧ h.hasState target
  · obtain ⟨a, ha, rfl⟩ := hi.bijective.surjOn hends.1
    obtain ⟨b, hb, rfl⟩ := hi.bijective.surjOn hends.2
    rw [count_arrow, hg.count_moved hi.bijective.injOn ha hb, hi.strands_eq a b symbol ha hb]
  · -- there is no such transition on either side
    rw [List.count_eq_zero_of_not_mem, List.count_eq_zero_of_not_mem]
    · intro hmem
      obtain ⟨t, ht, heq⟩ := List.mem_map.mp hmem
      cases heq
      exact hends ⟨hi.bijective.mapsTo (hg.source_present t ht),
        hi.bijective.mapsTo (hg.target_present t ht)⟩
    · intro hmem
      obtain ⟨t, ht, heq⟩ := List.mem_map.mp hmem
      cases heq
      exact hends ⟨hh.source_present t ht, hh.target_present t ht⟩

theorem mirrors (hi : Isomorphic f g h) (hg : WellFormed supply g) (hh : WellFormed later h) :
    Mirrors f g h :=
  ⟨hi.name_eq, hi.listed hg hh, hi.arrows_perm hg hh, hi.bijective.injOn⟩

end Isomorphic

/-! ### Cleaning -/

theorem Mirrors.isIsolated_eq (hm : Mirrors f g h) (hg : WellFormed supply g) {s t : State}
    (hs : s ∈ g.states) (hst : s.Mirrors f t) : h.isIsolated t = g.isIsolated s := by
  let touching (a : Arrow) : Bool := a.source = t.id || a.target = t.id
  have hright : h.transitions.any (·.touches t.id) =
      (h.transitions.map (·.arrow)).any touching := by
    rw [List.any_map]
    rfl
  have hleft : g.transitions.any (·.touches s.id) =
      (g.transitions.map (·.arrow.moved f)).any touching := by
    rw [List.any_map, Bool.eq_iff_iff, List.any_eq_true, List.any_eq_true]
    refine exists_congr fun u => and_congr_right fun hu => ?_
    have hsource : f u.source = f s.id ↔ u.source = s.id :=
      hm.injective.eq_iff (hg.source_present u hu) (hasState_of_mem hs)
    have htarget : f u.target = f s.id ↔ u.target = s.id :=
      hm.injective.eq_iff (hg.target_present u hu) (hasState_of_mem hs)
    simp [touching, Transition.touches, Arrow.moved, Transition.arrow, hst.id_eq, hsource, htarget]
  rw [isIsolated, isIsolated, hright, hleft, hm.arrows.any_eq]

/-- A state stays when its graph is cleaned if its image does. -/
theorem Mirrors.mem_settledStates_iff (hm : Mirrors f g h) (hg : WellFormed supply g)
    {s t : State} (hs : s ∈ g.states) (ht : t ∈ h.states) (hst : s.Mirrors f t) :
    t ∈ h.settledStates ↔ s ∈ g.settledStates := by
  rw [mem_settledStates, mem_settledStates, hst.initial_eq, hm.isIsolated_eq hg hs hst]
  exact and_congr_left fun _ => iff_of_true ht hs

namespace Isomorphic

theorem hasState_clean_iff (hi : Isomorphic f g h) (hg : WellFormed supply g)
    (hh : WellFormed later h) {id : StateId} (hid : g.hasState id) :
    h.clean.2.hasState (f id) ↔ g.clean.2.hasState id := by
  obtain ⟨s, hs, rfl⟩ := hasState_iff.mp hid
  obtain ⟨t, ht, hst⟩ := hi.exists_image hs
  have hsettled := (hi.mirrors hg hh).mem_settledStates_iff hg hs ht hst
  rw [Graph.hasState_clean_iff hg, Graph.hasState_clean_iff hh]
  constructor
  · rintro ⟨t', ht', heq⟩
    rw [hh.state_eq (mem_settledStates.mp ht').1 ht (heq.trans hst.id_eq.symm), hsettled] at ht'
    exact ⟨s, ht', rfl⟩
  · rintro ⟨s', hs', heq⟩
    rw [hg.state_eq (mem_settledStates.mp hs').1 hs heq, ← hsettled] at hs'
    exact ⟨t, hs', hst.id_eq⟩

/-- What cleaning leaves of isomorphic graphs is isomorphic. -/
theorem clean (hi : Isomorphic f g h) (hg : WellFormed supply g) (hh : WellFormed later h) :
    Isomorphic f g.clean.2 h.clean.2 where
  name_eq := by
    rw [clean_eq hg, clean_eq hh]
    exact hi.name_eq
  bijective := by
    refine ⟨fun id hid => ?_, ?_, fun id hid => ?_⟩
    · exact (hi.hasState_clean_iff hg hh (hasState_of_clean hg hid)).mpr hid
    · exact hi.bijective.injOn.mono fun id hid => hasState_of_clean hg hid
    · obtain ⟨id', hid', rfl⟩ := hi.bijective.surjOn (hasState_of_clean hh hid)
      exact ⟨id', (hi.hasState_clean_iff hg hh hid').mp hid, rfl⟩
  flags s hs t ht := hi.flags s (mem_of_mem_clean hg hs) t (mem_of_mem_clean hh ht)
  strands_eq source target symbol hsource htarget := by
    -- cleaning leaves all transitions
    have hstrands := hi.strands_eq source target symbol (hasState_of_clean hg hsource)
      (hasState_of_clean hg htarget)
    rw [clean_eq hg, clean_eq hh]
    exact hstrands
  order s hs t ht := hi.order s (mem_of_mem_clean hg hs) t (mem_of_mem_clean hg ht)

/-- As many states are left on both sides, and there were as many, so as many went. -/
theorem removed_eq (hi : Isomorphic f g h) (hg : Made supply g) (hh : Made later h) :
    h.clean.1 = g.clean.1 := by
  have hcount := (hi.mirrors hg.wellFormed hh.wellFormed).stateCount_eq
  have hleft : h.clean.2.stateCount = g.clean.2.stateCount :=
    ((hi.clean hg.wellFormed hh.wellFormed).mirrors (hg.edited .clean).wellFormed
      (hh.edited .clean).wellFormed).stateCount_eq
  rw [clean_eq hg.wellFormed, clean_eq hh.wellFormed] at hleft ⊢
  have hsettled : h.settledStates.length = g.settledStates.length := hleft
  rw [← length_strayStates_add, ← length_strayStates_add, hsettled] at hcount
  exact Nat.add_right_cancel hcount

end Isomorphic

/-! ### Main statement -/

theorem Redrawn.isomorphic (hr : Redrawn g h) (hg : WellFormed supply g)
    (hh : WellFormed later h) : Isomorphic id g h := by
  have hids : h.states.map (·.id) = g.states.map (·.id) :=
    map_eq_of_forall₂ hr.states fun _ _ hst => hst.id_eq
  have hstates : {id | h.hasState id} = {id | g.hasState id} := by
    have hmem (k : Graph) (id : StateId) : k.hasState id ↔ id ∈ k.states.map (·.id) := by
      rw [hasState_iff, List.mem_map]
    ext id
    rw [Set.mem_ofPred_eq, Set.mem_ofPred_eq, hmem, hmem, hids]
  refine ⟨hr.name_eq, ?_, fun s hs t ht hid => ?_, fun _ _ symbol hsource htarget => ?_,
    fun _ _ _ _ _ => Iff.rfl⟩
  · rw [hstates]
    exact Set.bijOn_id _
  · obtain ⟨t', ht', hst⟩ := exists_of_forall₂ hr.states hs
    rw [hh.state_eq ht ht' (hid.trans hst.id_eq.symm)]
    exact ⟨hst.label_eq, hst.initial_eq, hst.accepting_eq⟩
  · exact hg.strands_eq_of_perm (f := id) (Set.injOn_id _) hr.arrows hsource htarget symbol

theorem Isomorphic.alike (hi : Isomorphic f g h) (hg : Made supply g) (hh : Made later h) :
    Alike f g h where
  report_eq := (hi.mirrors hg.wellFormed hh.wellFormed).report_eq hg.wellFormed hh.wellFormed
  shape_eq := (hi.mirrors hg.wellFormed hh.wellFormed).shape_eq hg.wellFormed hh.wellFormed
  table := (hi.mirrors hg.wellFormed hh.wellFormed).table_mirrors hg.wellFormed hh.wellFormed
  text_eq :=
    ((hi.mirrors hg.wellFormed hh.wellFormed).table_mirrors hg.wellFormed hh.wellFormed).text_eq
  removed_eq := hi.removed_eq hg hh
  removed_iff _ := hi.hasState_clean_iff hg.wellFormed hh.wellFormed
  cleaned := hi.clean hg.wellFormed hh.wellFormed

theorem alike_of_isomorphic (hg : Made supply g) (hh : Made later h) :
    (∀ f, Isomorphic f g h → Alike f g h) ∧ (Redrawn g h → Alike id g h) :=
  ⟨fun _ hi => hi.alike hg hh,
    fun hr => (hr.isomorphic hg.wellFormed hh.wellFormed).alike hg hh⟩

/-- A graph with two states of one label, which two transitions join on one symbol. -/
def doubled : Supply × Graph :=
  editAll .initial .unnamed
    [.addLabeledState "p" ⟨0, 0⟩, .addLabeledState "q" ⟨1, 0⟩, .addLabeledState "q" ⟨2, 0⟩,
      .updateState ⟨0⟩ ⟨0, 0⟩ (some true) none, .updateState ⟨2⟩ ⟨2, 0⟩ none (some true),
      .addTransition ⟨0⟩ ⟨1⟩ "a", .addTransition ⟨1⟩ ⟨2⟩ "b", .addTransition ⟨1⟩ ⟨2⟩ "b"]

/-- The same with states made in another order and transitions too. -/
def doubledAnew : Supply × Graph :=
  editAll .initial .unnamed
    [.addLabeledState "q" ⟨5, 5⟩, .addLabeledState "p" ⟨0, 9⟩, .addLabeledState "q" ⟨7, 0⟩,
      .updateState ⟨1⟩ ⟨0, 9⟩ (some true) none, .updateState ⟨2⟩ ⟨7, 0⟩ none (some true),
      .addTransition ⟨0⟩ ⟨2⟩ "b", .addTransition ⟨1⟩ ⟨0⟩ "a", .addTransition ⟨0⟩ ⟨2⟩ "b"]

/-- The numbers of the states in the one graph and in the other. -/
def doubledAs : StateId → StateId
  | ⟨0⟩ => ⟨1⟩
  | ⟨1⟩ => ⟨0⟩
  | id => id

theorem made_doubled : Made doubled.1 doubled.2 := (Made.named .initial "Automate").editedAll _

theorem isomorphic_doubled : Isomorphic doubledAs doubled.2 doubledAnew.2 := by
  have hdistinct : ∀ s ∈ doubled.2.states, ∀ t ∈ doubled.2.states,
      doubledAs s.id = doubledAs t.id → s.id = t.id := by decide
  have hinto : ∀ s ∈ doubled.2.states, doubledAnew.2.hasState (doubledAs s.id) := by decide
  have honto : ∀ t ∈ doubledAnew.2.states, ∃ s ∈ doubled.2.states, doubledAs s.id = t.id := by
    decide
  have hinjective : Set.InjOn doubledAs {id | doubled.2.hasState id} := by
    intro id hid id' hid' heq
    obtain ⟨s, hs, rfl⟩ := hasState_iff.mp hid
    obtain ⟨t, ht, rfl⟩ := hasState_iff.mp hid'
    exact hdistinct s hs t ht heq
  refine ⟨by decide, ⟨fun id hid => ?_, hinjective, fun id hid => ?_⟩, by decide,
    fun _ _ symbol hsource htarget => ?_, by decide⟩
  · obtain ⟨s, hs, rfl⟩ := hasState_iff.mp hid
    exact hinto s hs
  · obtain ⟨t, ht, rfl⟩ := hasState_iff.mp hid
    obtain ⟨s, hs, heq⟩ := honto t ht
    exact ⟨s.id, hasState_of_mem hs, heq⟩
  · have harrows : (doubledAnew.2.transitions.map (·.arrow)).Perm
        (doubled.2.transitions.map (·.arrow.moved doubledAs)) := by decide
    exact made_doubled.wellFormed.strands_eq_of_perm hinjective harrows hsource htarget symbol

theorem alike_of_isomorphic_doubled :
    Made doubled.1 doubled.2 ∧ Made doubledAnew.1 doubledAnew.2 ∧
      Isomorphic doubledAs doubled.2 doubledAnew.2 ∧ doubledAnew.2.report = doubled.2.report ∧
      doubledAnew.2.table.text = doubled.2.table.text := by
  have hmade : Made doubledAnew.1 doubledAnew.2 := (Made.named .initial "Automate").editedAll _
  have halike := (alike_of_isomorphic made_doubled hmade).1 doubledAs isomorphic_doubled
  exact ⟨made_doubled, hmade, isomorphic_doubled, halike.report_eq, halike.text_eq⟩

end Graph

end FiniteAutomata
