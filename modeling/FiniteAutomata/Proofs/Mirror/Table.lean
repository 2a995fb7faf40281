import FiniteAutomata.Analysis.Written
import FiniteAutomata.Proofs.Mirror.Basic

/-!
The table of a graph and that of its mirror. They have the same rows and columns in the same order,
and their cells hold the same states in the same order, so that they read the same.
-/
namespace FiniteAutomata

def StateRef.moved (f : StateId → StateId) (r : StateRef) : StateRef := ⟨r.label, f r.id⟩

/-- A row that shows what another shows, with states under the numbers that `f` gives them. -/
structure Table.Row.Mirrors (f : StateId → StateId) (r r' : Table.Row) : Prop where
  state_eq : r'.state = r.state.moved f
  initial_eq : r'.initial = r.initial
  accepting_eq : r'.accepting = r.accepting
  cells_eq : (r'.cells.map fun (symbol, cell) => (symbol, cell.toList)) =
    r.cells.map fun (symbol, cell) => (symbol, cell.toList.map (StateRef.moved f))

structure Table.Mirrors (f : StateId → StateId) (t t' : Table) : Prop where
  symbols_eq : t'.symbols = t.symbols
  rows : List.Forall₂ (Table.Row.Mirrors f) t.rows t'.rows

/-! ### Text -/

namespace Table

variable {f : StateId → StateId}

theorem Row.Mirrors.texts_eq {r r' : Row} (h : r.Mirrors f r') : r'.texts = r.texts := by
  let text (refs : List StateRef) : String :=
    if refs.isEmpty then "-" else bracedList (refs.map (·.label))
  have hcells : r'.cells.map (fun (_, cell) => cellText cell) =
      r.cells.map fun (_, cell) => cellText cell := by
    have htexts := congrArg (List.map fun c => text c.2) h.cells_eq
    rw [List.map_map, List.map_map] at htexts
    have hmoved (refs : List StateRef) : text (refs.map (StateRef.moved f)) = text refs := by
      simp only [text, List.isEmpty_map, List.map_map]
      rfl
    simp only [Function.comp_def, hmoved] at htexts
    exact htexts
  have hmarker : r'.marker = r.marker := by
    rw [marker, marker, h.initial_eq, h.accepting_eq]
  have hlabel : r'.state.label = r.state.label := by
    rw [h.state_eq]
    rfl
  rw [texts, texts, hmarker, hlabel, hcells]

/-- Numbers are nowhere in the text of a table. -/
theorem Mirrors.text_eq {t t' : Table} (h : t.Mirrors f t') : t'.text = t.text := by
  have hrows : t'.rows.map Row.texts = t.rows.map Row.texts :=
    Graph.map_eq_of_forall₂ h.rows fun _ _ hr => hr.texts_eq
  have hlines : t'.lines = t.lines := by
    rw [lines, lines, header, header, h.symbols_eq, hrows]
  simp only [text, hlines, header, h.symbols_eq]
  congr 2
  exact Graph.map_eq_of_forall₂ h.rows fun _ _ hr => by rw [hr.texts_eq]

end Table

/-! ### Order -/

/-- If a list increases and still does so when its elements are mapped, the map keeps the order of
any two of its elements. -/
theorem compare_map_eq_lt {α β : Type} [Ord α] [Ord β] [Std.TransOrd α] {as : List α} {m : α → β}
    (has : as.Pairwise fun a b => compare a b = .lt)
    (hmapped : (as.map m).Pairwise fun a b => compare a b = .lt) {a b : α} (ha : a ∈ as)
    (hb : b ∈ as) (hab : compare a b = .lt) : compare (m a) (m b) = .lt := by
  induction as with
  | nil => exact absurd ha List.not_mem_nil
  | cons c cs ih =>
    obtain ⟨hc, hcs⟩ := List.pairwise_cons.mp has
    rw [List.map_cons] at hmapped
    obtain ⟨hmc, hmcs⟩ := List.pairwise_cons.mp hmapped
    rcases List.mem_cons.mp ha with rfl | ha'
    · rcases List.mem_cons.mp hb with rfl | hb'
      · rw [Std.ReflOrd.compare_self] at hab
        cases hab
      · exact hmc (m b) (List.mem_map_of_mem hb')
    · rcases List.mem_cons.mp hb with rfl | hb'
      · have hba := hc a ha'
        rw [Std.OrientedOrd.eq_swap, hab] at hba
        cases hba
      · exact ih hcs hmcs ha' hb'

namespace Graph

/-- States are listed by label, and by number where labels are equal. -/
theorem WellFormed.listedRefs_increasing {supply : Supply} {g : Graph} (hg : WellFormed supply g) :
    (g.listedStates.map StateRef.ofState).Pairwise fun r r' => compare r r' = .lt := by
  have hdistinct : g.listedStates.Pairwise fun s t => s.id ≠ t.id :=
    List.pairwise_map.mp hg.consistent.state_ids_nodup
  rw [List.pairwise_map]
  refine (g.listedStates_pairwise.and hdistinct).imp ?_
  intro s t hst
  obtain ⟨hle, hne⟩ := hst
  have hle : (compare (StateRef.ofState s) (StateRef.ofState t)).isLE := hle
  cases hcompare : compare (StateRef.ofState s) (StateRef.ofState t) with
  | lt => rfl
  | eq => exact absurd (congrArg StateRef.id (Std.LawfulEqOrd.eq_of_compare hcompare)) hne
  | gt =>
    rw [hcompare] at hle
    cases hle

theorem WellFormed.listedStates_increasing {supply : Supply} {g : Graph}
    (hg : WellFormed supply g) :
    g.listedStates.Pairwise fun s t =>
      s.label < t.label ∨ s.label = t.label ∧ s.id.number < t.id.number := by
  refine (List.pairwise_map.mp hg.listedRefs_increasing).imp fun {s t} hlt => ?_
  have hlt : (compare s.label t.label).then (compare s.id.number t.id.number) = .lt := hlt
  rcases Ordering.then_eq_lt.mp hlt with hlabel | ⟨hlabel, hnumber⟩
  · exact Or.inl (compareOfLessAndEq_eq_lt.mp hlabel)
  · exact Or.inr ⟨Std.compare_eq_iff_eq.mp hlabel, Nat.compare_eq_lt.mp hnumber⟩

theorem mem_destinations {g : Graph} {id : StateId} {symbol : String} {r : StateRef} :
    r ∈ g.destinations id symbol ↔
      ∃ u ∈ g.outgoing id, u.symbol = symbol ∧
        ∃ s, g.state? u.target = some s ∧ StateRef.ofState s = r := by
  simp only [destinations, OrderedSet.mem_ofList, List.mem_filterMap, List.mem_filter,
    Option.map_eq_some_iff, decide_eq_true_eq, and_assoc]

namespace Mirrors

variable {supply later : Supply} {f : StateId → StateId} {g h : Graph}

theorem listedRefs_eq (hm : Mirrors f g h) :
    h.listedStates.map StateRef.ofState =
      (g.listedStates.map StateRef.ofState).map (StateRef.moved f) := by
  rw [List.map_map]
  refine map_eq_of_forall₂ hm.listed fun s t hst => ?_
  rw [Function.comp_apply, StateRef.ofState, StateRef.ofState, StateRef.moved, hst.id_eq,
    hst.label_eq]

theorem mem_destinations_iff (hm : Mirrors f g h) (hg : WellFormed supply g)
    (hh : WellFormed later h) {s t : State} (hs : s ∈ g.states) (hst : s.Mirrors f t)
    (symbol : String) (r : StateRef) :
    r ∈ h.destinations t.id symbol ↔
      ∃ r₀ ∈ g.destinations s.id symbol, r₀.moved f = r := by
  have hiff := hm.exists_outgoing_iff hg hs hst fun a =>
    a.symbol = symbol ∧ ∃ t', h.state? a.target = some t' ∧ StateRef.ofState t' = r
  -- the look-ups of a target on the two sides give a state and its mirror
  have hlookup {u : Transition} {s' : State} (hs' : g.state? u.target = some s') :
      (∃ t', h.state? (f u.target) = some t' ∧ StateRef.ofState t' = r) ↔
        (StateRef.ofState s').moved f = r := by
    obtain ⟨t', ht', hmirror⟩ := hm.exists_state?_mirror hh hs'
    have href : StateRef.ofState t' = (StateRef.ofState s').moved f := by
      rw [StateRef.ofState, StateRef.ofState, StateRef.moved, hmirror.id_eq, hmirror.label_eq]
    constructor
    · rintro ⟨t'', ht'', hr⟩
      cases ht'.symm.trans ht''
      rw [← href, hr]
    · intro hr
      exact ⟨t', ht', by rw [href, hr]⟩
  rw [mem_destinations]
  refine hiff.trans ?_
  constructor
  · rintro ⟨u, hu, hsymbol, hfound⟩
    obtain ⟨s', hmem, hid⟩ := hasState_iff.mp (hg.target_present u (mem_outgoing.mp hu).1)
    have hs' : g.state? u.target = some s' := hg.state?_eq_some_iff.mpr ⟨hmem, hid⟩
    exact ⟨.ofState s', mem_destinations.mpr ⟨u, hu, hsymbol, s', hs', rfl⟩,
      (hlookup hs').mp hfound⟩
  · rintro ⟨r₀, hr₀, hr⟩
    obtain ⟨u, hu, hsymbol, s', hs', rfl⟩ := mem_destinations.mp hr₀
    exact ⟨u, hu, hsymbol, (hlookup hs').mpr hr⟩

theorem destinations_eq (hm : Mirrors f g h) (hg : WellFormed supply g) (hh : WellFormed later h)
    {s t : State} (hs : s ∈ g.states) (hst : s.Mirrors f t) (symbol : String) :
    (h.destinations t.id symbol).toList =
      (g.destinations s.id symbol).toList.map (StateRef.moved f) := by
  have hlisted : ∀ r ∈ (g.destinations s.id symbol).toList,
      r ∈ g.listedStates.map StateRef.ofState := by
    intro r hr
    obtain ⟨u, -, -, s', hs', rfl⟩ := mem_destinations.mp hr
    exact List.mem_map_of_mem (mem_listedStates.mpr (mem_of_state?_eq_some hs').1)
  have hmapped := hh.listedRefs_increasing
  rw [hm.listedRefs_eq] at hmapped
  refine OrderedSet.eq_of_mem_iff (h.destinations t.id symbol).increasing ?_ ?_
  · rw [List.pairwise_map]
    refine (g.destinations s.id symbol).increasing.imp_of_mem ?_
    intro r r' hr hr' hlt
    exact compare_map_eq_lt hg.listedRefs_increasing hmapped (hlisted r hr) (hlisted r' hr') hlt
  · intro r
    rw [List.mem_map]
    exact hm.mem_destinations_iff hg hh hs hst symbol r

/-! ### Main statement -/

theorem table_mirrors (hm : Mirrors f g h) (hg : WellFormed supply g) (hh : WellFormed later h) :
    g.table.Mirrors f h.table where
  symbols_eq := by
    rw [table, table, hm.alphabet_eq hg hh]
  rows := by
    have hlisted := (List.forall₂_and_left _ _).mpr
      ⟨fun s hs => mem_listedStates.mp hs, hm.listed⟩
    rw [table, table, List.forall₂_map_left_iff, List.forall₂_map_right_iff]
    refine hlisted.imp ?_
    intro s t hst
    obtain ⟨hs, hst⟩ := hst
    refine ⟨?_, hst.initial_eq, hst.accepting_eq, ?_⟩
    · rw [row, row, StateRef.ofState, StateRef.ofState, StateRef.moved, hst.id_eq, hst.label_eq]
    · rw [row, row, hm.alphabet_eq hg hh, List.map_map, List.map_map]
      refine List.map_congr_left fun symbol _ => ?_
      exact congrArg (symbol, ·) (hm.destinations_eq hg hh hs hst symbol)

end Mirrors

end Graph

end FiniteAutomata
