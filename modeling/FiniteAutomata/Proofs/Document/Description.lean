import FiniteAutomata.Document.Construction
import FiniteAutomata.Proofs.Graph.Listing
import FiniteAutomata.Proofs.Snapshot.Renumbering
import Mathlib.Data.List.Induction

/-!
What a document describes. A document of which nothing is wrong describes one graph (`drawn`):
its declared states with the next numbers, and for each declared transition and each of its symbols
one transition between the states that the two identifiers name. Anything else has a first flaw
(`Flaw`), and `toGraph` gives the one or the other (`toGraph_of_sound`, `toGraph_of_flaw`).
-/
namespace FiniteAutomata

/-- The graph with other transitions. -/
def Graph.withTransitions (g : Graph) (ts : List Transition) : Graph :=
  { g with transitions := ts, alphabet := Graph.symbolsOf ts }

theorem Graph.insertTransition_withTransitions (g : Graph) (ts : List Transition)
    (t : Transition) :
    (g.withTransitions ts).insertTransition t = g.withTransitions (ts ++ [t]) := by
  simp [insertTransition, withTransitions, symbolsOf_concat]

/-! ### First exceptions -/

/-- A list has only members of one sort, or a first one of another. -/
theorem all_or_first {α : Type} (p : α → Prop) (l : List α) :
    (∀ a ∈ l, p a) ∨ ∃ before a after, l = before ++ a :: after ∧ (∀ b ∈ before, p b) ∧ ¬p a := by
  induction l with
  | nil => exact .inl nofun
  | cons a l ih =>
    by_cases ha : p a
    · rcases ih with hall | ⟨before, b, after, rfl, hbefore, hb⟩
      · exact .inl (List.forall_mem_cons.mpr ⟨ha, hall⟩)
      · exact .inr ⟨a :: before, b, after, rfl, List.forall_mem_cons.mpr ⟨ha, hbefore⟩, hb⟩
    · exact .inr ⟨[], a, l, rfl, nofun, ha⟩

/-- Keys are all different, or there is a first one that was there before. -/
theorem nodup_or_first {α κ : Type} (f : α → κ) (l : List α) :
    (l.map f).Nodup ∨ ∃ before a after, l = before ++ a :: after ∧ (before.map f).Nodup ∧
      f a ∈ before.map f := by
  induction l using List.reverseRecOn with
  | nil => exact .inl List.nodup_nil
  | append_singleton l a ih =>
    rcases ih with hl | ⟨before, b, after, rfl, hbefore, hb⟩
    · by_cases ha : f a ∈ l.map f
      · exact .inr ⟨l, a, [], rfl, hl, ha⟩
      · refine .inl ?_
        rw [List.map_append, List.map_singleton, ← List.concat_eq_append]
        exact hl.concat ha
    · exact .inr ⟨before, b, after ++ [a], by simp, hbefore, hb⟩

namespace Document

/-! ### The graph of a document -/

/-- The declared identifiers, in order. -/
def identifiers (d : Document) : List String := d.states.map (·.id)

/-- The number of the state that an identifier names: the declared states have the next numbers of
the supply, in order. -/
def stateNamed (d : Document) (supply : Supply) (name : String) : StateId :=
  ⟨supply.states + d.identifiers.idxOf name⟩

/-- The states of a row of declarations, of which the first has the number `start` and `index`
others before it. -/
def placed (start index : Nat) (ds : List StateDecl) : List State :=
  ds.mapIdx fun i s => ⟨⟨start + i⟩, s.label.getD s.id,
    s.position.getD (defaultPosition (index + i)), s.initial, s.accepting⟩

/-- The two identifiers and the symbol of each transition that is declared. -/
def arrows (ts : List TransitionDecl) : List (String × String × String) :=
  ts.flatMap fun t => t.symbols.map fun symbol => (t.source, t.target, symbol)

/-- The transitions of a row of declarations, of which the first has the number `start`. -/
def joined (number : String → StateId) (start : Nat) (ts : List TransitionDecl) :
    List Transition :=
  (arrows ts).mapIdx fun i (source, target, symbol) =>
    ⟨⟨start + i⟩, number source, number target, symbol⟩

/-- The graph that a document describes. -/
def drawn (d : Document) (supply : Supply) : Graph :=
  let transitions := joined (d.stateNamed supply) supply.transitions d.transitions
  { name := d.name
    states := placed supply.states 0 d.states
    transitions
    alphabet := Graph.symbolsOf transitions }

/-- The supply behind a document that has been drawn. -/
def spent (d : Document) (supply : Supply) : Supply :=
  ⟨supply.states + d.states.length, supply.transitions + (arrows d.transitions).length⟩

/-- Both ends of a transition are declared, wherever in the document. -/
def Resolved (d : Document) (t : TransitionDecl) : Prop :=
  t.source ∈ d.identifiers ∧ t.target ∈ d.identifiers

/-- Nothing is wrong with a document: no state is declared twice and every end is declared. -/
structure Sound (d : Document) : Prop where
  distinct : d.identifiers.Nodup
  resolved : ∀ t ∈ d.transitions, d.Resolved t

/-- What is wrong with a document: the first state that is declared again, or else the first end of
a transition that is not declared, where the source comes before the target. -/
inductive Flaw (d : Document) : Complaint → Prop
  | redeclared {before after : List StateDecl} {s : StateDecl}
      (hstates : d.states = before ++ s :: after) (hbefore : (before.map (·.id)).Nodup)
      (hagain : s.id ∈ before.map (·.id)) : Flaw d ⟨.declaredTwice s.id, s.location⟩
  | source {before after : List TransitionDecl} {t : TransitionDecl}
      (hdistinct : d.identifiers.Nodup) (htransitions : d.transitions = before ++ t :: after)
      (hbefore : ∀ u ∈ before, d.Resolved u) (hsource : t.source ∉ d.identifiers) :
      Flaw d ⟨.undeclared t.source, t.location⟩
  | target {before after : List TransitionDecl} {t : TransitionDecl}
      (hdistinct : d.identifiers.Nodup) (htransitions : d.transitions = before ++ t :: after)
      (hbefore : ∀ u ∈ before, d.Resolved u) (hsource : t.source ∈ d.identifiers)
      (htarget : t.target ∉ d.identifiers) : Flaw d ⟨.undeclared t.target, t.location⟩

theorem sound_or_flaw (d : Document) : d.Sound ∨ ∃ c, Flaw d c := by
  rcases nodup_or_first (·.id) d.states with hdistinct | ⟨before, s, after, hstates, hbefore, hs⟩
  · rcases all_or_first d.Resolved d.transitions with hall | ⟨before, t, after, ht, hbefore, hnot⟩
    · exact .inl ⟨hdistinct, hall⟩
    · refine .inr ?_
      by_cases hsource : t.source ∈ d.identifiers
      · exact ⟨_, .target hdistinct ht hbefore hsource fun htarget => hnot ⟨hsource, htarget⟩⟩
      · exact ⟨_, .source hdistinct ht hbefore hsource⟩
  · exact .inr ⟨_, .redeclared hstates hbefore hs⟩

/-! ### States -/

/-- The names of some states stand for their numbers, and no other name stands for anything. -/
def Resolves (names : Names) (number : String → StateId) (done : List String) : Prop :=
  ∀ name, names.lookup name = if name ∈ done then some (number name) else none

theorem Resolves.cons {names : Names} {number : String → StateId} {done : List String}
    (h : Resolves names number done) (name : String) :
    Resolves ((name, number name) :: names) number (done ++ [name]) :=
  lookup_cons_numbered h name

/-- States whose names are new are placed in their order, and the rest is placed behind them. -/
theorem addStates_append {number : String → StateId} (ds rest : List StateDecl)
    (supply : Supply) (index : Nat) (g : Graph) {names : Names} {done : List String}
    (hnames : Resolves names number done) (hnew : (done ++ ds.map (·.id)).Nodup)
    (hnumber : ds.map (number ·.id) = (List.range' supply.states ds.length).map StateId.mk) :
    ∃ names', Resolves names' number (done ++ ds.map (·.id)) ∧
      addStates supply index names g (ds ++ rest) =
        addStates { supply with states := supply.states + ds.length } (index + ds.length) names'
          { g with states := g.states ++ placed supply.states index ds } rest := by
  induction ds generalizing done supply index names g with
  | nil => exact ⟨names, by simpa using hnames, by simp [placed]⟩
  | cons d ds ih =>
    rw [List.map_cons, List.length_cons, List.range'_succ, List.map_cons, List.cons.injEq]
      at hnumber
    obtain ⟨hhead, htail⟩ := hnumber
    have hunused : names.lookup d.id = none := lookup_eq_none_of_nodup hnames hnew
    have hnext : supply.nextState = number d.id := hhead.symm
    rw [List.map_cons, List.append_cons] at hnew
    obtain ⟨names', hnames', hrest⟩ := ih supply.afterState (index + 1)
      (g.insertState (d.toState supply.nextState index)) (hnames.cons d.id) hnew htail
    refine ⟨names', by simpa using hnames', ?_⟩
    rw [List.cons_append, addStates, hunused]
    simp only [hnext] at hrest ⊢
    rw [hrest]
    simp only [Supply.afterState, List.length_cons, Nat.add_assoc, Nat.add_comm 1]
    congr 1
    simp [Graph.insertState, placed, StateDecl.toState, ← hnext, Supply.nextState, Nat.add_assoc,
      Nat.add_comm 1]

theorem addStates_distinct {before : List StateDecl} (hbefore : (before.map (·.id)).Nodup)
    (rest : List StateDecl) (supply : Supply) (g : Graph) :
    ∃ names, Resolves names (fun name => ⟨supply.states + (before.map (·.id)).idxOf name⟩)
        (before.map (·.id)) ∧
      addStates supply 0 [] g (before ++ rest) =
        addStates { supply with states := supply.states + before.length } before.length names
          { g with states := g.states ++ placed supply.states 0 before } rest := by
  have hnumber := map_idxOf hbefore supply.states StateId.mk
  rw [List.map_map, List.length_map] at hnumber
  have hnone : Resolves [] (fun name => ⟨supply.states + (before.map (·.id)).idxOf name⟩) [] := by
    simp [Resolves]
  obtain ⟨names, hnames, hrest⟩ :=
    addStates_append before rest supply 0 g hnone (by simpa using hbefore) hnumber
  exact ⟨names, by simpa using hnames, by simpa using hrest⟩

/-! ### Transitions -/

theorem addSymbols_eq (symbols : List String) (supply : Supply) (g : Graph)
    (ts : List Transition) (source target : StateId) :
    addSymbols supply (g.withTransitions ts) source target symbols =
      (g.withTransitions (ts ++ symbols.mapIdx fun i symbol =>
        ⟨⟨supply.transitions + i⟩, source, target, symbol⟩),
      { supply with transitions := supply.transitions + symbols.length }) := by
  induction symbols generalizing supply ts with
  | nil => simp [addSymbols]
  | cons symbol symbols ih =>
    rw [addSymbols, Graph.insertTransition_withTransitions, ih]
    simp [Supply.afterTransition, Supply.nextTransition, Nat.add_assoc, Nat.add_comm 1]

theorem joined_cons (number : String → StateId) (start : Nat) (t : TransitionDecl)
    (ts : List TransitionDecl) :
    joined number start (t :: ts) =
      (t.symbols.mapIdx fun i symbol => ⟨⟨start + i⟩, number t.source, number t.target, symbol⟩) ++
        joined number (start + t.symbols.length) ts := by
  simp only [joined, arrows, List.flatMap_cons, List.mapIdx_append, List.length_map]
  congr 1
  · exact List.ext_getElem (by simp) (by simp)
  · simp only [Nat.add_assoc, Nat.add_comm t.symbols.length]

/-- Transitions whose ends have names are made in their order, and the rest is made behind them. -/
theorem addTransitions_append {number : String → StateId} {names : Names} {known : List String}
    (hnames : Resolves names number known) (before rest : List TransitionDecl)
    (hbefore : ∀ t ∈ before, t.source ∈ known ∧ t.target ∈ known) (supply : Supply) (g : Graph)
    (ts : List Transition) :
    addTransitions supply names (g.withTransitions ts) (before ++ rest) =
      addTransitions { supply with transitions := supply.transitions + (arrows before).length }
        names (g.withTransitions (ts ++ joined number supply.transitions before)) rest := by
  induction before generalizing supply ts with
  | nil => simp [joined, arrows]
  | cons t before ih =>
    obtain ⟨⟨hsource, htarget⟩, hbefore⟩ := List.forall_mem_cons.mp hbefore
    rw [List.cons_append, addTransitions, hnames, hnames, if_pos hsource, if_pos htarget]
    simp only [addSymbols_eq]
    rw [ih hbefore, joined_cons]
    simp [arrows, Nat.add_assoc]

/-! ### Documents -/

/-- Where no state is declared twice, the states are all there before the first transition. -/
theorem toGraph_of_distinct {d : Document} (hdistinct : d.identifiers.Nodup) (supply : Supply) :
    ∃ names, Resolves names (d.stateNamed supply) d.identifiers ∧
      d.toGraph supply =
        addTransitions { supply with states := supply.states + d.states.length } names
          ((d.drawn supply).withTransitions []) d.transitions := by
  obtain ⟨names, hnames, hstates⟩ := addStates_distinct hdistinct [] supply (.named d.name)
  refine ⟨names, hnames, ?_⟩
  rw [List.append_nil] at hstates
  rw [toGraph, hstates]
  rfl

/-- A document of which nothing is wrong gives the graph that it describes. -/
theorem toGraph_of_sound {d : Document} (h : d.Sound) (supply : Supply) :
    d.toGraph supply = ⟨.ok (d.drawn supply), d.spent supply⟩ := by
  obtain ⟨names, hnames, hgraph⟩ := toGraph_of_distinct h.distinct supply
  have htransitions := addTransitions_append hnames d.transitions [] h.resolved
    { supply with states := supply.states + d.states.length } (d.drawn supply) []
  rw [List.append_nil] at htransitions
  rw [hgraph, htransitions]
  rfl

/-- A document gives the complaint about its flaw. -/
theorem toGraph_of_flaw {d : Document} {c : Complaint} (h : Flaw d c) (supply : Supply) :
    (d.toGraph supply).outcome = .error c := by
  cases h with
  | @redeclared before after s hstates hbefore hagain =>
    obtain ⟨names, hnames, hrest⟩ := addStates_distinct hbefore (s :: after) supply (.named d.name)
    rw [toGraph, hstates, hrest, addStates, hnames, if_pos hagain]
  | source hdistinct htransitions hbefore hsource =>
    obtain ⟨names, hnames, hgraph⟩ := toGraph_of_distinct hdistinct supply
    rw [hgraph, htransitions, addTransitions_append hnames _ _ hbefore, addTransitions, hnames,
      if_neg hsource]
  | target hdistinct htransitions hbefore hsource htarget =>
    obtain ⟨names, hnames, hgraph⟩ := toGraph_of_distinct hdistinct supply
    rw [hgraph, htransitions, addTransitions_append hnames _ _ hbefore, addTransitions, hnames,
      hnames, if_pos hsource, if_neg htarget]

end Document

end FiniteAutomata
