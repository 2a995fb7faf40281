import FiniteAutomata.Analysis.Written
import FiniteAutomata.Proofs.Language.Determinism
import FiniteAutomata.Proofs.Text.Joining
import FiniteAutomata.Proofs.Text.Span
import Mathlib.Order.Bounds.Basic

/-!
How the text of a table is laid out. Every line has a cell for every column, because a row of a
graph's table has one for each symbol of the alphabet (`regular_table`). A column is as wide as its
longest cell, so a cell is never cut but filled up with blanks, and it begins where the widths of
the columns before it say, in all lines alike (`table_aligned`).
-/
namespace FiniteAutomata

/-- What is left when the white space at the end is cut, and what is cut. -/
theorem Text.trimEnd_spec (s : String) :
    ∃ blanks, s = Text.trimEnd s ++ blanks ∧ (∀ c ∈ blanks.toList, Text.isBlank c) ∧
      ∀ c ∈ (Text.trimEnd s).toList.getLast?, Text.isBlank c = false := by
  have hspan := Span.ofText isBlank s.toList.reverse
  refine ⟨String.ofList (s.toList.reverse.takeWhile isBlank).reverse, ?_, ?_, ?_⟩
  · rw [trimEnd, ← String.ofList_append, ← List.reverse_append, List.takeWhile_append_dropWhile,
      List.reverse_reverse, String.ofList_toList]
  · intro c hc
    rw [String.toList_ofList, List.mem_reverse] at hc
    exact hspan.all c hc
  · intro c hc
    rw [trimEnd, String.toList_ofList, List.getLast?_reverse] at hc
    exact hspan.stop c hc

namespace Table

/-- A table whose rows have a cell for each symbol, in the order of the symbols. -/
def Regular (t : Table) : Prop := ∀ row ∈ t.rows, row.cells.map (·.1) = t.symbols

/-- The widths of the columns. -/
def columnWidths (t : Table) : List Nat := widths t.header.length t.lines

/-- How long the lines are, and the rule between them: a separator stands between any two
columns. -/
def lineLength (widths : List Nat) : Nat := widths.sum + 3 * (widths.length - 1)

/-- Where a column begins. -/
def columnStart (widths : List Nat) (k : Nat) : Nat := (widths.take k).sum + 3 * k

/-- A table that is laid out in columns of the given widths. -/
structure Aligned (t : Table) (widths : List Nat) : Prop where
  cells_complete : ∀ cells ∈ t.lines, cells.length = widths.length
  cell_under : ∀ row ∈ t.rows, ∀ (k : Nat) (symbol : String), t.symbols[k]? = some symbol →
    ∃ cell, row.cells.lookup symbol = some cell ∧ row.texts[k + 1]? = some (cellText cell)
  width_isGreatest : ∀ (k width : Nat), widths[k]? = some width →
    IsGreatest {n | ∃ cells ∈ t.lines, ∃ cell, cells[k]? = some cell ∧ cell.length = n} width
  length_line : ∀ cells ∈ t.lines, (lineText widths cells).length = lineLength widths
  cell_in_place : ∀ cells ∈ t.lines, ∀ (k : Nat) (cell : String), cells[k]? = some cell →
    ∃ before blanks after, lineText widths cells = before ++ (cell ++ blanks) ++ after ∧
      before.length = columnStart widths k ∧ (∀ c ∈ blanks.toList, c = ' ') ∧
      widths[k]? = some (cell ++ blanks).length
  written : ∃ line : List String → String,
    t.text = line t.header ++ "\n" ++
      String.ofList (List.replicate (lineLength widths) '-') ++ "\n" ++
      String.join (t.rows.map fun row => line row.texts ++ "\n") ∧
    ∀ cells, ∃ blanks, lineText widths cells = line cells ++ blanks ∧
      (∀ c ∈ blanks.toList, Text.isBlank c) ∧
      ∀ c ∈ (line cells).toList.getLast?, Text.isBlank c = false

/-! ### Lines and columns -/

theorem Regular.length_cells {t : Table} (ht : t.Regular) {cells : List String}
    (hcells : cells ∈ t.lines) : cells.length = t.header.length := by
  rcases List.mem_cons.mp hcells with rfl | hcells
  · rfl
  · obtain ⟨row, hrow, rfl⟩ := List.mem_map.mp hcells
    have hlength := congrArg List.length (ht row hrow)
    rw [List.length_map] at hlength
    rw [Row.texts, header, List.length_cons, List.length_cons, List.length_map, hlength]

theorem length_columnWidths (t : Table) : t.columnWidths.length = t.header.length := by
  simp [columnWidths, widths]

/-- A column is as wide as the longest of the texts that stand in it. -/
theorem max?_column {t : Table} {k width : Nat} (hwidth : t.columnWidths[k]? = some width) :
    (t.lines.map fun cells => (cells.getD k "").length).max? = some width := by
  have hk : k < t.header.length := by
    rw [← t.length_columnWidths]
    exact (List.getElem?_eq_some_iff.mp hwidth).1
  rw [columnWidths, widths, List.getElem?_map, List.getElem?_range hk, Option.map_some, lines,
    List.map_cons, List.foldl_cons, Nat.zero_max] at hwidth
  rw [lines, List.map_cons, List.max?_cons', hwidth]

/-- In a regular table the column holds a cell of every line, so it is as wide as the longest. -/
theorem Regular.width_isGreatest {t : Table} (ht : t.Regular) {k width : Nat}
    (hwidth : t.columnWidths[k]? = some width) :
    IsGreatest {n | ∃ cells ∈ t.lines, ∃ cell, cells[k]? = some cell ∧ cell.length = n} width := by
  have hk : k < t.columnWidths.length := (List.getElem?_eq_some_iff.mp hwidth).1
  have hcell {cells : List String} (hcells : cells ∈ t.lines) :
      cells[k]? = some (cells.getD k "") := by
    rw [t.length_columnWidths, ← ht.length_cells hcells] at hk
    rw [List.getD_eq_getElem?_getD, List.getElem?_eq_getElem hk, Option.getD_some]
  obtain ⟨hmem, hle⟩ := List.max?_eq_some_iff.mp (max?_column hwidth)
  constructor
  · obtain ⟨cells, hcells, hlength⟩ := List.mem_map.mp hmem
    exact ⟨cells, hcells, _, hcell hcells, hlength⟩
  · rintro n ⟨cells, hcells, cell, hfound, rfl⟩
    obtain rfl : cells.getD k "" = cell := Option.some.inj ((hcell hcells).symm.trans hfound)
    exact hle _ (List.mem_map_of_mem hcells)

/-- A cell is found under its symbol, because no symbol has two columns. -/
theorem Regular.cell_under {t : Table} (ht : t.Regular) (hsymbols : t.symbols.Nodup)
    {row : Table.Row} (hrow : row ∈ t.rows) {k : Nat} {symbol : String}
    (hsymbol : t.symbols[k]? = some symbol) :
    ∃ cell, row.cells.lookup symbol = some cell ∧ row.texts[k + 1]? = some (cellText cell) := by
  rw [← ht row hrow, List.getElem?_map, Option.map_eq_some_iff] at hsymbol
  obtain ⟨⟨symbol', cell⟩, hentry, rfl⟩ := hsymbol
  refine ⟨cell, ?_, ?_⟩
  · refine (Graph.lookup_eq_some_iff_mem ?_ _ _).mpr (List.mem_of_getElem? hentry)
    rwa [ht row hrow]
  · rw [Row.texts, List.getElem?_cons_succ, List.getElem?_map, hentry, Option.map_some]

/-! ### Filling up -/

theorem length_padRight {width : Nat} {s : String} (hs : s.length ≤ width) :
    (padRight width s).length = width := by
  rw [padRight, String.length_append, String.length_ofList, List.length_replicate]
  omega

/-- A cell that is filled up has the width of its column. -/
theorem Regular.length_padded {t : Table} (ht : t.Regular) {cells : List String}
    (hcells : cells ∈ t.lines) :
    (List.zipWith padRight t.columnWidths cells).map String.length = t.columnWidths := by
  have hlength := ht.length_cells hcells
  rw [← t.length_columnWidths] at hlength
  apply List.ext_getElem
  · simp [hlength]
  · intro k hk hk'
    have hwidth := List.getElem?_eq_getElem hk'
    have hle : cells[k].length ≤ t.columnWidths[k] := (ht.width_isGreatest hwidth).2
      ⟨cells, hcells, cells[k], List.getElem?_eq_getElem _, rfl⟩
    rw [List.getElem_map, List.getElem_zipWith, length_padRight hle]

theorem Regular.length_line {t : Table} (ht : t.Regular) {cells : List String}
    (hcells : cells ∈ t.lines) :
    (lineText t.columnWidths cells).length = lineLength t.columnWidths := by
  have hseparator : " | ".length = 3 := rfl
  have hpadded := ht.length_padded hcells
  have hcount := congrArg List.length hpadded
  rw [List.length_map] at hcount
  rw [lineText, Text.length_intercalate, hpadded, hcount, hseparator, lineLength]

theorem Regular.cell_in_place {t : Table} (ht : t.Regular) {cells : List String}
    (hcells : cells ∈ t.lines) {k : Nat} {cell : String} (hcell : cells[k]? = some cell) :
    ∃ before blanks after,
      lineText t.columnWidths cells = before ++ (cell ++ blanks) ++ after ∧
      before.length = columnStart t.columnWidths k ∧ (∀ c ∈ blanks.toList, c = ' ') ∧
      t.columnWidths[k]? = some (cell ++ blanks).length := by
  have hseparator : " | ".length = 3 := rfl
  have hpadded := ht.length_padded hcells
  have hk : k < t.columnWidths.length := by
    rw [t.length_columnWidths, ← ht.length_cells hcells]
    exact (List.getElem?_eq_some_iff.mp hcell).1
  have hwidth := List.getElem?_eq_getElem hk
  have hfilled : (List.zipWith padRight t.columnWidths cells)[k]? =
      some (padRight t.columnWidths[k] cell) := by
    rw [List.getElem?_zipWith, hwidth, hcell]
  obtain ⟨before, after, hsplit, hbefore⟩ := Text.exists_intercalate " | " hfilled
  rw [hpadded, hseparator] at hbefore
  refine ⟨before, String.ofList (List.replicate (t.columnWidths[k] - cell.length) ' '), after,
    hsplit, hbefore, ?_, ?_⟩
  · intro c hc
    rw [String.toList_ofList] at hc
    exact List.eq_of_mem_replicate hc
  · have hlength := congrArg (·[k]?) hpadded
    simp only [List.getElem?_map, hfilled, hwidth, Option.map_some] at hlength
    rw [hwidth]
    exact hlength.symm

theorem text_eq (t : Table) :
    t.text = Text.trimEnd (lineText t.columnWidths t.header) ++ "\n" ++
      String.ofList (List.replicate (lineLength t.columnWidths) '-') ++ "\n" ++
      String.join (t.rows.map fun row =>
        Text.trimEnd (lineText t.columnWidths row.texts) ++ "\n") := by
  have htotal : lineLength t.columnWidths =
      (widths t.header.length t.lines).foldl (· + ·) 0 +
        3 * ((widths t.header.length t.lines).length - 1) := by
    rw [lineLength, List.sum_eq_foldl]
    rfl
  rw [htotal]
  rfl

theorem Regular.aligned {t : Table} (ht : t.Regular) (hsymbols : t.symbols.Nodup) :
    t.Aligned t.columnWidths where
  cells_complete _ hcells := (ht.length_cells hcells).trans t.length_columnWidths.symm
  cell_under _ hrow _ _ hsymbol := ht.cell_under hsymbols hrow hsymbol
  width_isGreatest _ _ hwidth := ht.width_isGreatest hwidth
  length_line _ hcells := ht.length_line hcells
  cell_in_place _ hcells _ _ hcell := ht.cell_in_place hcells hcell
  written := ⟨fun cells => Text.trimEnd (lineText t.columnWidths cells), t.text_eq,
    fun _ => Text.trimEnd_spec _⟩

end Table

namespace Graph

theorem regular_table (g : Graph) : g.table.Regular := by
  intro row hrow
  obtain ⟨s, -, rfl⟩ := List.mem_map.mp hrow
  rw [Graph.row, List.map_map]
  exact List.map_id _

/-- The table of a graph is laid out in columns, each as wide as its longest cell. -/
theorem table_aligned (g : Graph) : g.table.Aligned g.table.columnWidths :=
  g.regular_table.aligned g.alphabet.nodup

end Graph

end FiniteAutomata
