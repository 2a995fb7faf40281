import FiniteAutomata.Proofs.Language.Determinism
import FiniteAutomata.Proofs.Mirror.Table

/-!
What the table of a graph shows (`tabulated`). It has a column for each symbol that is read
somewhere and a row for each state, and a cell holds the states that transitions on its symbol lead
to. No destination is missing, because every transition ends in a state of the graph. No two
transitions of a deterministic graph share a cell, so determinism and completeness can be read off
the sizes of the cells.
-/
namespace FiniteAutomata

/-- How many members a set has tells whether two of them can differ. -/
theorem OrderedSet.size_le_one_iff {α : Type} [Ord α] [Std.LawfulEqOrd α] {s : OrderedSet α} :
    s.size ≤ 1 ↔ ∀ a ∈ s, ∀ b ∈ s, a = b := by
  obtain ⟨as, has⟩ := s
  have hnodup := OrderedSet.nodup ⟨as, has⟩
  simp only [size, mem_def] at hnodup ⊢
  match as, hnodup with
  | [], _ => simp
  | [a], _ => simp
  | a :: b :: bs, hnodup =>
    have hne : a ≠ b := (List.pairwise_cons.mp hnodup).1 b (List.mem_cons_self ..)
    simp [hne]

theorem OrderedSet.size_pos_iff {α : Type} [Ord α] {s : OrderedSet α} :
    0 < s.size ↔ ∃ a, a ∈ s :=
  List.length_pos_iff_exists_mem

/-- The order of rows: by label, and by number where labels are equal. -/
def StateRef.Above (r r' : StateRef) : Prop :=
  r.label < r'.label ∨ r.label = r'.label ∧ r.id.number < r'.id.number

namespace Graph

variable {supply : Supply} {g : Graph}

/-- Some transition leads from a state to a state and reads the symbol. -/
def Leads (g : Graph) (s : State) (symbol : String) (t : State) : Prop :=
  ∃ u ∈ g.transitions, u.source = s.id ∧ u.symbol = symbol ∧ u.target = t.id

/-- A row shows a state of a graph: its marks, and under each symbol the states that it leads to. -/
structure Shows (g : Graph) (symbols : List String) (s : State) (row : Table.Row) : Prop where
  state_eq : row.state = ⟨s.label, s.id⟩
  initial_eq : row.initial = s.initial
  accepting_eq : row.accepting = s.accepting
  symbols_eq : row.cells.map (·.1) = symbols
  mem_cell : ∀ symbol cell, (symbol, cell) ∈ row.cells →
    ∀ r, r ∈ cell ↔ ∃ t ∈ g.states, g.Leads s symbol t ∧ r = ⟨t.label, t.id⟩

/-- What the table of a graph shows, and how it tells a deterministic and a complete graph. -/
structure Tabulated (g : Graph) (table : Table) : Prop where
  symbols_eq : table.symbols = g.alphabet.toList
  symbols_increasing : table.symbols.Pairwise (· < ·)
  mem_symbols : ∀ symbol, symbol ∈ table.symbols ↔
    (∃ t ∈ g.transitions, t.symbol = symbol) ∧
      symbol ≠ "" ∧ symbol ≠ "ε" ∧ symbol ≠ "epsilon"
  rows_ordered : (table.rows.map (·.state)).Pairwise StateRef.Above
  rows_show : ∃ listed, listed.Perm g.states ∧
    List.Forall₂ (g.Shows table.symbols) listed table.rows
  destinations?_eq_some_iff : ∀ id symbol cell, table.destinations? id symbol = some cell ↔
    ∃ row ∈ table.rows, row.state.id = id ∧ (symbol, cell) ∈ row.cells
  of_isDeterministic : g.isDeterministic →
    ∀ row ∈ table.rows, ∀ c ∈ row.cells, c.2.size ≤ 1
  isComplete_iff : g.isComplete ↔
    g.isDeterministic ∧ table.symbols ≠ [] ∧
      ∀ row ∈ table.rows, ∀ c ∈ row.cells, c.2.size = 1

/-! ### Cells -/

theorem WellFormed.mem_destinations_iff (hwf : WellFormed supply g) {s : State} {symbol : String}
    {r : StateRef} :
    r ∈ g.destinations s.id symbol ↔
      ∃ t ∈ g.states, g.Leads s symbol t ∧ r = ⟨t.label, t.id⟩ := by
  rw [mem_destinations]
  constructor
  · rintro ⟨u, hout, hsymbol, t, hfound, rfl⟩
    obtain ⟨hu, hsource⟩ := mem_outgoing.mp hout
    obtain ⟨ht, hid⟩ := hwf.state?_eq_some_iff.mp hfound
    exact ⟨t, ht, ⟨u, hu, hsource, hsymbol, hid.symm⟩, rfl⟩
  · rintro ⟨t, ht, ⟨u, hu, hsource, hsymbol, htarget⟩, rfl⟩
    have hfound : g.state? u.target = some t := hwf.state?_eq_some_iff.mpr ⟨ht, htarget.symm⟩
    exact ⟨u, mem_outgoing.mpr ⟨hu, hsource⟩, hsymbol, t, hfound, rfl⟩

/-- A cell has a member where there is a move, because the move ends in a state of the graph. -/
theorem WellFormed.exists_mem_destinations_iff (hwf : WellFormed supply g) {s : State}
    {symbol : String} :
    (∃ r, r ∈ g.destinations s.id symbol) ↔
      ∃ u ∈ g.transitions, u.source = s.id ∧ u.symbol = symbol := by
  constructor
  · rintro ⟨r, hr⟩
    obtain ⟨t, -, ⟨u, hu, hsource, hsymbol, -⟩, -⟩ := hwf.mem_destinations_iff.mp hr
    exact ⟨u, hu, hsource, hsymbol⟩
  · rintro ⟨u, hu, hsource, hsymbol⟩
    obtain ⟨t, ht, htarget⟩ := hasState_iff.mp (hwf.target_present u hu)
    exact ⟨⟨t.label, t.id⟩,
      hwf.mem_destinations_iff.mpr ⟨t, ht, ⟨u, hu, hsource, hsymbol, htarget.symm⟩, rfl⟩⟩

/-- Where a transition is known by its source and its symbol, a cell has one member at most. -/
theorem WellFormed.size_destinations_le (hwf : WellFormed supply g) (hdecided : g.Decided)
    (s : State) (symbol : String) : (g.destinations s.id symbol).size ≤ 1 := by
  refine OrderedSet.size_le_one_iff.mpr fun r hr r' hr' => ?_
  obtain ⟨t, ht, ⟨u, hu, hsource, hsymbol, htarget⟩, rfl⟩ := hwf.mem_destinations_iff.mp hr
  obtain ⟨t', ht', ⟨u', hu', hsource', hsymbol', htarget'⟩, rfl⟩ :=
    hwf.mem_destinations_iff.mp hr'
  obtain rfl : u = u' :=
    hdecided u hu u' hu' (hsource.trans hsource'.symm) (hsymbol.trans hsymbol'.symm)
  rw [hwf.state_eq ht ht' (htarget.symm.trans htarget')]

/-! ### Rows -/

theorem forall_cells_iff {p : OrderedSet StateRef → Prop} :
    (∀ row ∈ g.table.rows, ∀ c ∈ row.cells, p c.2) ↔
      ∀ s ∈ g.states, ∀ symbol, symbol ∈ g.alphabet → p (g.destinations s.id symbol) := by
  simp only [table, row, List.forall_mem_map, mem_listedStates]
  exact Iff.rfl

theorem WellFormed.shows_row (hwf : WellFormed supply g) (s : State) :
    g.Shows g.table.symbols s (g.row s) where
  state_eq := rfl
  initial_eq := rfl
  accepting_eq := rfl
  symbols_eq := by
    rw [row, List.map_map]
    exact List.map_id _
  mem_cell symbol cell hcell r := by
    obtain ⟨symbol', -, heq⟩ := List.mem_map.mp hcell
    cases heq
    exact hwf.mem_destinations_iff

theorem WellFormed.rows_ordered (hwf : WellFormed supply g) :
    (g.table.rows.map (·.state)).Pairwise StateRef.Above := by
  have hrows : g.table.rows.map (·.state) = g.listedStates.map .ofState := by
    rw [table, List.map_map]
    rfl
  rw [hrows, List.pairwise_map]
  exact hwf.listedStates_increasing

/-- Looking a cell up finds it, because no two rows show one state and no two columns one symbol. -/
theorem WellFormed.destinations?_eq_some_iff (hwf : WellFormed supply g) (id : StateId)
    (symbol : String) (cell : OrderedSet StateRef) :
    g.table.destinations? id symbol = some cell ↔
      ∃ row ∈ g.table.rows, row.state.id = id ∧ (symbol, cell) ∈ row.cells := by
  have hids : (g.table.rows.map (·.state.id)).Nodup := by
    rw [table, List.map_map]
    exact hwf.consistent.state_ids_nodup
  have hcell {row : Table.Row} (hrow : row ∈ g.table.rows) :
      row.cells.lookup symbol = some cell ↔ (symbol, cell) ∈ row.cells := by
    obtain ⟨s, -, rfl⟩ := List.mem_map.mp hrow
    refine lookup_eq_some_iff_mem ?_ symbol cell
    rw [(hwf.shows_row s).symbols_eq]
    exact g.alphabet.nodup
  rw [Table.destinations?, Option.bind_eq_some_iff]
  constructor
  · rintro ⟨row, hfound, hlookup⟩
    obtain ⟨hrow, hid⟩ := (find?_key_eq_some_iff hids id row).mp hfound
    exact ⟨row, hrow, hid, (hcell hrow).mp hlookup⟩
  · rintro ⟨row, hrow, hid, hmem⟩
    exact ⟨row, (find?_key_eq_some_iff hids id row).mpr ⟨hrow, hid⟩, (hcell hrow).mpr hmem⟩

/-- In a deterministic graph a cell has one member exactly where there is a move. -/
theorem WellFormed.size_destinations_eq_one_iff (hwf : WellFormed supply g)
    (hdecided : g.Decided) {s : State} {symbol : String} :
    (g.destinations s.id symbol).size = 1 ↔
      ∃ u ∈ g.transitions, u.source = s.id ∧ u.symbol = symbol := by
  have hle := hwf.size_destinations_le hdecided s symbol
  rw [← hwf.exists_mem_destinations_iff, ← OrderedSet.size_pos_iff]
  omega

/-- Completeness is determinism with one member in every cell of a table that has a column. -/
theorem WellFormed.isComplete_iff_cells (hwf : WellFormed supply g) :
    g.isComplete ↔
      g.isDeterministic ∧ g.table.symbols ≠ [] ∧
        ∀ row ∈ g.table.rows, ∀ c ∈ row.cells, c.2.size = 1 := by
  have hcolumn : g.table.symbols ≠ [] ↔ ∃ symbol, symbol ∈ g.alphabet :=
    ⟨List.exists_mem_of_ne_nil _, fun ⟨_, hsymbol⟩ => List.ne_nil_of_mem hsymbol⟩
  rw [isComplete_iff_moves, hcolumn, forall_cells_iff (p := (·.size = 1))]
  refine and_congr_right fun hdeterministic => and_congr_right fun _ => ?_
  obtain ⟨-, hdecided⟩ := hwf.decided hdeterministic
  refine forall₂_congr fun s _ => forall₂_congr fun symbol _ => ?_
  exact (hwf.size_destinations_eq_one_iff hdecided).symm

/-! ### Main statement -/

theorem tabulated (hmade : Made supply g) : g.Tabulated g.table := by
  have hwf := hmade.wellFormed
  constructor
  case symbols_eq => rfl
  case symbols_increasing =>
    exact g.alphabet.increasing.imp fun hlt => compareOfLessAndEq_eq_lt.mp hlt
  case mem_symbols =>
    exact hwf.mem_alphabet
  case rows_ordered => exact hwf.rows_ordered
  case rows_show =>
    refine ⟨g.listedStates, g.listedStates_perm, ?_⟩
    rw [table, List.forall₂_map_right_iff, List.forall₂_same]
    exact fun s _ => hwf.shows_row s
  case destinations?_eq_some_iff => exact hwf.destinations?_eq_some_iff
  case of_isDeterministic =>
    intro hdeterministic
    rw [forall_cells_iff (p := (·.size ≤ 1))]
    exact fun s _ symbol _ => hwf.size_destinations_le (hwf.decided hdeterministic).2 s symbol
  case isComplete_iff => exact hwf.isComplete_iff_cells

/-- Two states with one label that the same symbol leads to, one of them twice, and a move that
reads nothing. -/
def crossing : Supply × Graph :=
  editAll .initial .unnamed
    [.addState ⟨0, 0⟩, .addLabeledState "p" ⟨1, 0⟩, .addLabeledState "p" ⟨2, 0⟩,
      .addTransition ⟨0⟩ ⟨2⟩ "a", .addTransition ⟨0⟩ ⟨1⟩ "a", .addTransition ⟨0⟩ ⟨2⟩ "a",
      .addTransition ⟨1⟩ ⟨0⟩ "b", .addTransition ⟨0⟩ ⟨1⟩ "epsilon"]

theorem tabulated_crossing :
    Made crossing.1 crossing.2 ∧ crossing.2.table.symbols = ["a", "b"] ∧
      (crossing.2.destinations ⟨0⟩ "a").toList = [⟨"p", ⟨1⟩⟩, ⟨"p", ⟨2⟩⟩] ∧
      crossing.2.Tabulated crossing.2.table := by
  have hmade : Made crossing.1 crossing.2 := (Made.named .initial "Automate").editedAll _
  exact ⟨hmade, by decide +kernel, by decide +kernel, tabulated hmade⟩

end Graph
end FiniteAutomata
