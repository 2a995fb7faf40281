import FiniteAutomata.Analysis.Dot
import FiniteAutomata.Proofs.Mirror.Report
import FiniteAutomata.Proofs.Mirror.Table
import FiniteAutomata.Proofs.Snapshot.Renumbering
import Mathlib.Data.List.Permutation

/-!
Saving a graph and loading it again. The graph that is loaded is the one that was saved, with new
numbers for its states and transitions and everything else as it was (`Renumbers`). It mirrors the
old one, and every view of it is the view of the old one under the new numbers (`Views`).
-/
namespace FiniteAutomata

/-- The snapshot with other numbers for its states and transitions. -/
def Snapshot.renumbered (ρ : StateId → StateId) (τ : TransitionId → TransitionId) (s : Snapshot) :
    Snapshot :=
  { s with
    states := s.states.map (·.renumbered ρ)
    transitions := s.transitions.map (·.renumbered ρ τ) }

namespace Graph

/-- The DOT text of a graph whose states have other numbers but are listed as before. -/
def dotUnder (ρ : StateId → StateId) (τ : TransitionId → TransitionId) (g : Graph) : String :=
  let entries := g.initialStates.map fun s => Dot.initialLines (s.renumbered ρ)
  "digraph Automaton \x7b\n  rankdir=LR;\n  label=" ++ Dot.quoted g.name ++
    ";\n  node [shape=circle];\n\n" ++
    String.join (g.listedStates.map fun s => Dot.stateLine (s.renumbered ρ)) ++
    (if entries.isEmpty then "" else "\n") ++ String.join entries ++ "\n" ++
    String.join (g.transitions.map fun t => Dot.transitionLine (t.renumbered ρ τ)) ++ "\x7d\n"

/-- `h` is `g` with numbers that were not given out before. States and transitions keep their order
and everything else that is known of them. -/
structure Renumbers (supply : Supply) (ρ : StateId → StateId) (τ : TransitionId → TransitionId)
    (g h : Graph) : Prop where
  name_eq : h.name = g.name
  listed_eq : h.listedStates = g.listedStates.map (·.renumbered ρ)
  transitions_eq : h.transitions = g.transitions.map (·.renumbered ρ τ)
  alphabet_eq : h.alphabet = g.alphabet
  state_ids_bijOn : Set.BijOn ρ {id | id ∈ g.listedStates.map (·.id)}
    {id | id ∈ h.listedStates.map (·.id)}
  transition_ids_bijOn : Set.BijOn τ {id | id ∈ g.transitions.map (·.id)}
    {id | id ∈ h.transitions.map (·.id)}
  state_ids_new : ∀ id ∈ h.listedStates.map (·.id), supply.states ≤ id.number
  transition_ids_new : ∀ id ∈ h.transitions.map (·.id), supply.transitions ≤ id.number

/-- What is seen of `h` is what is seen of `g`, with other numbers where numbers are seen. -/
structure Views (ρ : StateId → StateId) (τ : TransitionId → TransitionId) (g h : Graph) :
    Prop where
  report_eq : h.report = g.report
  freeLabel_eq : h.freeLabel = g.freeLabel
  table_text_eq : h.table.text = g.table.text
  table_mirrors : g.table.Mirrors ρ h.table
  snapshot_eq : Snapshot.ofGraph h = (Snapshot.ofGraph g).renumbered ρ τ
  dot_eq : h.dot = g.dotUnder ρ τ

namespace Renumbers

variable {supply later : Supply} {ρ : StateId → StateId} {τ : TransitionId → TransitionId}
  {g h : Graph}

theorem mirrors (hr : Renumbers supply ρ τ g h) : Mirrors ρ g h where
  name_eq := hr.name_eq
  listed := by
    rw [hr.listed_eq, List.forall₂_map_right_iff, List.forall₂_same]
    exact fun _ _ => ⟨rfl, rfl, rfl, rfl⟩
  arrows := by
    rw [hr.transitions_eq, List.map_map]
    exact List.Perm.refl _
  injective := by
    intro id hid id' hid' heq
    have hlisted {id : StateId} (hid : g.hasState id) : id ∈ g.listedStates.map (·.id) := by
      obtain ⟨s, hs, rfl⟩ := hasState_iff.mp hid
      exact List.mem_map_of_mem (mem_listedStates.mpr hs)
    exact hr.state_ids_bijOn.injOn (hlisted hid) (hlisted hid') heq

theorem dot_eq (hr : Renumbers supply ρ τ g h) : h.dot = g.dotUnder ρ τ := by
  have hentries : h.initialStates.map Dot.initialLines =
      g.initialStates.map fun s => Dot.initialLines (s.renumbered ρ) := by
    rw [initialStates, initialStates, hr.listed_eq, List.filter_map, List.map_map]
    rfl
  have hstates : h.listedStates.map Dot.stateLine =
      g.listedStates.map fun s => Dot.stateLine (s.renumbered ρ) := by
    rw [hr.listed_eq, List.map_map]
    rfl
  have htransitions : h.transitions.map Dot.transitionLine =
      g.transitions.map fun t => Dot.transitionLine (t.renumbered ρ τ) := by
    rw [hr.transitions_eq, List.map_map]
    rfl
  unfold dot dotUnder
  simp only [hentries, hstates, htransitions, hr.name_eq]

theorem views {made : Supply} (hr : Renumbers supply ρ τ g h) (hg : WellFormed made g)
    (hh : WellFormed later h) : Views ρ τ g h where
  report_eq := hr.mirrors.report_eq hg hh
  freeLabel_eq := hr.mirrors.freeLabel_eq
  table_text_eq := (hr.mirrors.table_mirrors hg hh).text_eq
  table_mirrors := hr.mirrors.table_mirrors hg hh
  snapshot_eq := by
    rw [Snapshot.ofGraph, Snapshot.ofGraph, Snapshot.renumbered, hr.name_eq, hr.listed_eq,
      hr.transitions_eq, hr.alphabet_eq]
  dot_eq := hr.dot_eq

end Renumbers

/-- Numbers that rise keep the order of two states: labels are as they were, and equal labels are
ordered by the numbers. -/
theorem precedes_renumbered {ρ : StateId → StateId} {s t : State} (h : s.precedes t)
    (hρ : (ρ s.id).number < (ρ t.id).number) :
    (s.renumbered ρ).precedes (t.renumbered ρ) := by
  have hids : compare (ρ s.id) (ρ t.id) = .lt := Nat.compare_eq_lt.mpr hρ
  have horder : State.order (s.renumbered ρ) (t.renumbered ρ) =
      (compare s.label t.label).then (compare (ρ s.id) (ρ t.id)) := rfl
  have h : ((compare s.label t.label).then (compare s.id t.id)).isLE := h
  rw [State.precedes, horder, hids]
  cases hlabels : compare s.label t.label with
  | lt => rfl
  | eq => rfl
  | gt =>
    rw [hlabels] at h
    cases h

/-- States that are listed in their order are still so under numbers that rise. -/
theorem listedStates_of_renumbered {ρ : StateId → StateId} {g h : Graph} {start : Nat}
    (hstates : h.states = g.listedStates.map (·.renumbered ρ))
    (hρ : g.listedStates.map (ρ ·.id) =
      (List.range' start g.listedStates.length).map StateId.mk) :
    h.listedStates = g.listedStates.map (·.renumbered ρ) := by
  have hrising : g.listedStates.Pairwise fun s t => (ρ s.id).number < (ρ t.id).number := by
    have hnumbers : (g.listedStates.map (ρ ·.id)).Pairwise fun a b => a.number < b.number := by
      rw [hρ, List.pairwise_map]
      exact List.pairwise_lt_range'
    rwa [List.pairwise_map] at hnumbers
  rw [listedStates, hstates]
  apply List.mergeSort_of_pairwise
  rw [List.pairwise_map]
  refine (g.listedStates_pairwise.and hrising).imp ?_
  intro s t hst
  exact precedes_renumbered hst.1 hst.2

theorem symbolsOf_renumbered {ρ : StateId → StateId} {τ : TransitionId → TransitionId}
    (ts : List Transition) : symbolsOf (ts.map (·.renumbered ρ τ)) = symbolsOf ts := by
  apply OrderedSet.ext
  intro symbol
  simp only [mem_symbolsOf, List.mem_map]
  constructor
  · rintro ⟨_, ⟨t, ht, rfl⟩, hsilent, hsymbol⟩
    exact ⟨t, ht, hsilent, hsymbol⟩
  · rintro ⟨t, ht, hsilent, hsymbol⟩
    exact ⟨_, ⟨t, ht, rfl⟩, hsilent, hsymbol⟩

/-- A graph that was saved can be loaded, and is what it was but for its numbers. -/
theorem exists_renumbers {supply : Supply} {g : Graph} (hg : WellFormed supply g) :
    ∃ h ρ τ, ((Snapshot.ofGraph g).toGraph supply).outcome = .ok h ∧
      Renumbers supply ρ τ g h := by
  have hlisted := hg.consistent
  obtain ⟨ρ, hρ⟩ := exists_numbering hlisted.state_ids_nodup supply.states StateId.mk
  obtain ⟨τ, hτ⟩ :=
    exists_numbering hlisted.transition_ids_nodup supply.transitions TransitionId.mk
  have hρ' : g.listedStates.map (ρ ·.id) =
      (List.range' supply.states g.listedStates.length).map StateId.mk := by
    rwa [List.map_map, List.length_map] at hρ
  obtain ⟨h, hload, hname, hstates, htransitions⟩ :=
    @Snapshot.exists_toGraph (.ofGraph g) supply ρ hlisted.state_ids_nodup
      (fun t ht => List.mem_map.mpr (hlisted.source_listed t ht))
      (fun t ht => List.mem_map.mpr (hlisted.target_listed t ht)) hρ'
  have hrelisted : h.listedStates = g.listedStates.map (·.renumbered ρ) :=
    listedStates_of_renumbered hstates hρ'
  have htransitions : h.transitions = g.transitions.map (·.renumbered ρ τ) :=
    htransitions.trans (Snapshot.mapIdx_eq_map hτ)
  have hkeys : h.listedStates.map (·.id) = (g.listedStates.map (·.id)).map ρ := by
    rw [hrelisted, List.map_map, List.map_map]
    rfl
  have htkeys : h.transitions.map (·.id) = (g.transitions.map (·.id)).map τ := by
    rw [htransitions, List.map_map, List.map_map]
    rfl
  refine ⟨h, ρ, τ, hload, hname, hrelisted, htransitions, ?_, ?_, ?_, ?_, ?_⟩
  · have hh := (Made.loaded _ hload).wellFormed
    rw [hg.alphabet_eq, hh.alphabet_eq, htransitions, symbolsOf_renumbered]
  · rw [hkeys]
    exact bijOn_of_numbering (fun _ _ => StateId.mk.inj) hρ
  · rw [htkeys]
    exact bijOn_of_numbering (fun _ _ => TransitionId.mk.inj) hτ
  · rw [hkeys]
    intro id hid
    obtain ⟨n, hn, rfl⟩ := exists_le_of_numbering hρ hid
    exact hn
  · rw [htkeys]
    intro id hid
    obtain ⟨n, hn, rfl⟩ := exists_le_of_numbering hτ hid
    exact hn

/-- Every graph that can be made can be saved and loaded again. The graph that is loaded has other
numbers, in the same order, and nothing else is different about it. -/
theorem toGraph_ofGraph {supply : Supply} {g : Graph} (hmade : Made supply g) :
    ∃ h ρ τ, ((Snapshot.ofGraph g).toGraph supply).outcome = .ok h ∧
      Renumbers supply ρ τ g h ∧ Views ρ τ g h := by
  obtain ⟨h, ρ, τ, hload, hr⟩ := exists_renumbers hmade.wellFormed
  exact ⟨h, ρ, τ, hload, hr, hr.views hmade.wellFormed (Made.loaded _ hload).wellFormed⟩

/-- Two states with one label that are not listed in the order of making, two transitions alike, and
two spellings of a move that reads nothing. -/
def tangled : Supply × Graph :=
  editAll .initial .unnamed
    [.addLabeledState "b" ⟨0, 0⟩, .addLabeledState "a" ⟨1, 0⟩, .addLabeledState "a" ⟨2, 0⟩,
      .updateState ⟨0⟩ ⟨0, 0⟩ (some true) none, .updateState ⟨2⟩ ⟨2, 0⟩ none (some true),
      .addTransition ⟨0⟩ ⟨1⟩ "x", .addTransition ⟨0⟩ ⟨1⟩ "x", .addTransition ⟨1⟩ ⟨2⟩ "epsilon",
      .addTransition ⟨2⟩ ⟨2⟩ ""]

theorem made_tangled : Made tangled.1 tangled.2 := (Made.named ..).editedAll _

theorem toGraph_ofGraph_tangled :
    Made tangled.1 tangled.2 ∧
      ∃ h, ((Snapshot.ofGraph tangled.2).toGraph tangled.1).outcome = .ok h ∧
        h.listedStates.map (fun s => (s.label, s.initial, s.accepting)) =
          [("a", false, false), ("a", false, true), ("b", true, false)] ∧
        h.transitions.map (·.symbol) = ["x", "x", "epsilon", ""] ∧
        h.report.alphabet = .ofList ["x"] := by
  obtain ⟨h, ρ, τ, hload, hr, hviews⟩ := toGraph_ofGraph made_tangled
  have hstates : tangled.2.states = [⟨⟨0⟩, "b", ⟨0, 0⟩, true, false⟩,
      ⟨⟨1⟩, "a", ⟨1, 0⟩, false, false⟩, ⟨⟨2⟩, "a", ⟨2, 0⟩, false, true⟩] := rfl
  have hlabels : tangled.2.listedStates.map (fun s => (s.label, s.initial, s.accepting)) =
      [("a", false, false), ("a", false, true), ("b", true, false)] := by
    rw [listedStates, hstates]
    cbv
  have hsymbols : tangled.2.transitions.map (·.symbol) = ["x", "x", "epsilon", ""] := by
    decide +kernel
  refine ⟨made_tangled, h, hload, ?_, ?_, ?_⟩
  · rw [hr.listed_eq, List.map_map]
    exact hlabels
  · rw [hr.transitions_eq, List.map_map]
    exact hsymbols
  · rw [hviews.report_eq]
    decide +kernel

end Graph

end FiniteAutomata
