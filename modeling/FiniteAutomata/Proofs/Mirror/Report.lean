import FiniteAutomata.Analysis.Report
import FiniteAutomata.Proofs.Language.Shape
import FiniteAutomata.Proofs.Mirror.Basic

/-!
A graph and its mirror have one report. A chain is mirrored by a chain that spells the same text, so
the walks agree, and with them the shapes.
-/
namespace FiniteAutomata.Graph.Mirrors

variable {supply later : Supply} {f : StateId → StateId} {g h : Graph}

/-! ### Determinism and completeness -/

theorem any_isSilent_eq (hm : Mirrors f g h) :
    h.transitions.any (·.isSilent) = g.transitions.any (·.isSilent) := by
  have hread (ts : List Transition) : ts.any (·.isSilent) = (ts.map (·.symbol)).any isEpsilon := by
    rw [List.any_map]
    rfl
  rw [hread, hread, hm.symbols_perm.any_eq]

theorem hasDistinctMoves_eq (hm : Mirrors f g h) (hg : WellFormed supply g) {s t : State}
    (hs : s ∈ g.states) (hst : s.Mirrors f t) :
    h.hasDistinctMoves t.id = g.hasDistinctMoves s.id := by
  have hperm := hm.outgoing_symbols_perm hg hs hst
  have hset : OrderedSet.ofList ((h.outgoing t.id).map (·.symbol)) =
      OrderedSet.ofList ((g.outgoing s.id).map (·.symbol)) := by
    apply OrderedSet.ext
    intro symbol
    rw [OrderedSet.mem_ofList, OrderedSet.mem_ofList, hperm.mem_iff]
  rw [hasDistinctMoves, hasDistinctMoves, hset, hperm.length_eq]

theorem isDeterministic_eq (hm : Mirrors f g h) (hg : WellFormed supply g) :
    h.isDeterministic = g.isDeterministic := by
  have hmoves : (h.states.all fun t => h.hasDistinctMoves t.id) =
      g.states.all fun s => g.hasDistinctMoves s.id :=
    hm.all_states fun s hs t _ hst => hm.hasDistinctMoves_eq hg hs hst
  rw [isDeterministic, isDeterministic, hm.isEmpty_eq, hm.initialStates_forall₂.length_eq,
    hm.any_isSilent_eq, hmoves]

theorem hasMove_eq (hm : Mirrors f g h) (hg : WellFormed supply g) {s t : State}
    (hs : s ∈ g.states) (hst : s.Mirrors f t) : h.hasMove t.id = g.hasMove s.id := by
  funext symbol
  have hread (k : Graph) (id : StateId) :
      k.hasMove id symbol = ((k.outgoing id).map (·.symbol)).any (· = symbol) := by
    rw [List.any_map]
    rfl
  rw [hread, hread, (hm.outgoing_symbols_perm hg hs hst).any_eq]

theorem isComplete_eq (hm : Mirrors f g h) (hg : WellFormed supply g) (hh : WellFormed later h) :
    h.isComplete = g.isComplete := by
  have hmoves : (h.states.all fun t => g.alphabet.toList.all (h.hasMove t.id)) =
      g.states.all fun s => g.alphabet.toList.all (g.hasMove s.id) :=
    hm.all_states fun s hs t _ hst => by rw [hm.hasMove_eq hg hs hst]
  rw [isComplete, isComplete, hm.isDeterministic_eq hg, hm.alphabet_eq hg hh, hmoves]

/-! ### Shape -/

theorem loopSymbols_eq (hm : Mirrors f g h) (hg : WellFormed supply g) {s t : State}
    (hs : s ∈ g.states) (hst : s.Mirrors f t) : h.loopSymbols t.id = g.loopSymbols s.id := by
  apply OrderedSet.ext
  intro symbol
  have hiff := hm.exists_outgoing_iff hg hs hst fun a => a.source = a.target ∧ a.symbol = symbol
  rw [mem_loopSymbols, mem_loopSymbols]
  constructor
  · rintro ⟨v, hv, hloop, hsymbol⟩
    obtain ⟨u, hu, hends, hread⟩ := hiff.mp ⟨v, hv, of_decide_eq_true hloop, hsymbol⟩
    exact ⟨u, hu, (hm.moved_isLoop_iff hg (mem_outgoing.mp hu).1).mp hends, hread⟩
  · rintro ⟨u, hu, hloop, hsymbol⟩
    obtain ⟨v, hv, hends, hread⟩ :=
      hiff.mpr ⟨u, hu, (hm.moved_isLoop_iff hg (mem_outgoing.mp hu).1).mpr hloop, hsymbol⟩
    exact ⟨v, hv, decide_eq_true hends, hread⟩

/-- A chain has a mirror that spells the same. -/
theorem exists_chain (hm : Mirrors f g h) (hg : WellFormed supply g) (hh : WellFormed later h)
    {s t last : State} {us : List Transition} (hchain : g.Chain s us last) (hs : s ∈ g.states)
    (hst : s.Mirrors f t) :
    ∃ vs last', h.Chain t vs last' ∧ spelling vs = spelling us ∧ last.Mirrors f last' := by
  induction hchain generalizing t with
  | stop haccepting => exact ⟨[], t, .stop (by rw [hst.accepting_eq, haccepting]), rfl, hst⟩
  | @on s next last u us hgoes hway hmoves hnext hrest ih =>
    have hperm := hm.outgoing_perm hg hs hst
    rw [hway, List.map_singleton, List.perm_singleton, List.map_eq_singleton_iff] at hperm
    obtain ⟨v, hway', harrow⟩ := hperm
    have hu : u ∈ g.transitions := (mem_outgoing.mp (hway ▸ List.mem_singleton_self u)).1
    have htarget : v.target = f u.target := congrArg Arrow.target harrow
    have hsource : v.source = f u.source := congrArg Arrow.source harrow
    have hmoves' : ¬v.isLoop := by
      rw [Transition.isLoop, decide_eq_true_eq, hsource, htarget]
      exact fun hends => hmoves ((hm.moved_isLoop_iff hg hu).mp hends)
    obtain ⟨next', hnext', hmirror⟩ := hm.exists_state?_mirror hh hnext
    rw [← htarget] at hnext'
    obtain ⟨vs, last', hchain', hspell, hlast⟩ := ih (mem_of_state?_eq_some hnext).1 hmirror
    refine ⟨v :: vs, last', .on ?_ hway' hmoves' hnext' hchain', ?_, hlast⟩
    · rw [hst.accepting_eq]
      exact hgoes
    · have hsymbol : v.symbol = u.symbol := congrArg Arrow.symbol harrow
      rw [spelling_cons, spelling_cons, hspell, hsymbol]

theorem pathShape?_of_some (hm : Mirrors f g h) (hg : WellFormed supply g)
    (hh : WellFormed later h) {shape : Shape} (hshape : g.pathShape? = some shape) :
    h.pathShape? = some shape := by
  rw [Graph.pathShape?_eq] at hshape
  obtain ⟨⟨stem, last⟩, hwalk, rfl⟩ := Option.map_eq_some_iff.mp hshape
  obtain ⟨first, us, hfirst, hchain, rfl⟩ := chain_of_walk? hwalk
  have hmem := (initialState?_spec hfirst).1
  have hrel := hm.initialState?_rel
  rw [hfirst] at hrel
  generalize hfirst' : h.initialState? = found at hrel
  cases hrel with
  | @some _ first' hmirror =>
    obtain ⟨vs, last', hchain', hspell, hlast⟩ := hm.exists_chain hg hh hchain hmem hmirror
    have hwalk' : h.walk? = some (spelling us, last') :=
      (walk?_eq_some_iff hh).mpr ⟨first', vs, hfirst', hchain', hspell.symm⟩
    rw [Graph.pathShape?_eq, hwalk', Option.map_some]
    have hloops := hm.loopSymbols_eq hg (hchain.last_mem hmem) hlast
    exact congrArg (fun loops => some (Shape.path (spelling us) loops)) hloops

theorem pathShape?_eq (hm : Mirrors f g h) (hg : WellFormed supply g) (hh : WellFormed later h) :
    h.pathShape? = g.pathShape? := by
  obtain ⟨back, hback⟩ := hm.symm hg
  apply Option.ext
  intro shape
  exact ⟨hback.pathShape?_of_some hh hg, hm.pathShape?_of_some hg hh⟩

theorem initialState?_isNone_eq (hm : Mirrors f g h) :
    h.initialState?.isNone = g.initialState?.isNone := by
  have hrel := hm.initialState?_rel
  generalize g.initialState? = a at hrel ⊢
  generalize h.initialState? = b at hrel ⊢
  cases hrel <;> rfl

theorem acceptingStates_isEmpty_eq (hm : Mirrors f g h) :
    h.acceptingStates.isEmpty = g.acceptingStates.isEmpty := by
  have hstates := hm.acceptingStates_forall₂
  generalize g.acceptingStates = as at hstates ⊢
  generalize h.acceptingStates = bs at hstates ⊢
  cases hstates <;> rfl

theorem singleShape?_eq (hm : Mirrors f g h) (hg : WellFormed supply g) :
    h.singleShape? = g.singleShape? := by
  have hrel := hm.initialState?_rel
  rw [singleShape?, singleShape?, hm.stateCount_eq]
  generalize hfirst : g.initialState? = a at hrel ⊢
  generalize h.initialState? = b at hrel ⊢
  cases hrel with
  | none => rfl
  | @some s t hst =>
    simp only [hst.accepting_eq, hm.loopSymbols_eq hg (initialState?_spec hfirst).1 hst]

theorem any_isLoop_eq (hm : Mirrors f g h) (hg : WellFormed supply g) :
    h.transitions.any (·.isLoop) = g.transitions.any (·.isLoop) := by
  have hleft : h.transitions.any (·.isLoop) =
      (h.transitions.map (·.arrow)).any fun a => a.source = a.target := by
    rw [List.any_map]
    rfl
  rw [hleft, hm.arrows.any_eq, Bool.eq_iff_iff, List.any_map, List.any_eq_true, List.any_eq_true]
  refine exists_congr fun u => and_congr_right fun hu => ?_
  rw [Function.comp_apply, decide_eq_true_eq]
  exact hm.moved_isLoop_iff hg hu

theorem shape_eq (hm : Mirrors f g h) (hg : WellFormed supply g) (hh : WellFormed later h) :
    h.shape = g.shape := by
  have hlack : h.lack? = g.lack? := by
    rw [lack?, lack?, hm.isEmpty_eq, hm.initialState?_isNone_eq, hm.acceptingStates_isEmpty_eq]
  rw [shape, shape, emptyShape?, emptyShape?, hlack, hm.singleShape?_eq hg, hm.pathShape?_eq hg hh,
    describedShape, describedShape, hm.alphabet_eq hg hh, hm.any_isLoop_eq hg]

/-! ### Main statement -/

/-- Everything that an analysis finds out of a graph it finds out of its mirror. -/
theorem report_eq (hm : Mirrors f g h) (hg : WellFormed supply g) (hh : WellFormed later h) :
    h.report = g.report := by
  have hlanguage : h.languageSummary = g.languageSummary := by
    rw [languageSummary, languageSummary, hm.isEmpty_eq, hm.initialState?_isNone_eq,
      hm.acceptingStates_isEmpty_eq, hm.alphabet_eq hg hh]
  have hinitial : h.initialState?.map (·.label) = g.initialState?.map (·.label) := by
    have hrel := hm.initialState?_rel
    generalize g.initialState? = a at hrel ⊢
    generalize h.initialState? = b at hrel ⊢
    cases hrel with
    | none => rfl
    | some hst => exact congrArg some hst.label_eq
  have haccepting : h.acceptingStates.map (·.label) = g.acceptingStates.map (·.label) :=
    map_eq_of_forall₂ hm.acceptingStates_forall₂ fun _ _ hst => hst.label_eq
  rw [report, report, hm.name_eq, hm.isDeterministic_eq hg, hm.isComplete_eq hg hh,
    hm.stateCount_eq, hm.transitionCount_eq, hm.alphabet_eq hg hh, hinitial, haccepting, expression,
    expression, hm.shape_eq hg hh, hlanguage]

end FiniteAutomata.Graph.Mirrors
