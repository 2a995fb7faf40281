import FiniteAutomata.Analysis.Dot
import Mathlib.Logic.Function.Basic

/-!
What a DOT text says of a graph. A quoted text ends at its own closing quote, whatever it holds and
whatever follows (`unambiguous_quoted`), so each kind of line tells what was written in it
(`unambiguous_nodeLine`, `unambiguous_entryLines`, `unambiguous_arrowLine`). A row of lines ends
where the next section begins (`Unambiguous.rows`). A text can then be read in one way only
(`Drawing.text_injective`), and two graphs have the same text exactly if they agree on what it
shows (`Graph.dot_eq_iff`).
-/
namespace FiniteAutomata

theorem StateId.text_injective : Function.Injective StateId.text := by
  intro id id' heq
  have hdigits : Nat.toDigits 10 id.number = Nat.toDigits 10 id'.number :=
    String.ofList_injective ((String.append_right_inj "s").mp heq)
  have hnumber : id.number = id'.number := by
    rw [← Nat.ofDigitChars_ten_toDigits (n := id.number), hdigits, Nat.ofDigitChars_ten_toDigits]
  exact congrArg StateId.mk hnumber

namespace Dot

/-! ### Quoted texts -/

/-- Two written texts that begin one and the same text are the same text, written of the same
value. -/
def Unambiguous {α : Type} (write : α → String) : Prop :=
  ∀ ⦃a b : α⦄ ⦃rest rest' : String⦄, write a ++ rest = write b ++ rest' → a = b ∧ rest = rest'

/-- No escaped letter looks like the closing quote. -/
theorem quote_ne_escape_cons (c : Char) (cs rest rest' : List Char) :
    '"' :: rest ≠ escape (c :: cs) ++ rest' := by
  by_cases hc : c = '\\' ∨ c = '"'
  · simp [escape, hc]
  · have hquote : '"' ≠ c := fun h => hc (.inr h.symm)
    simp [escape, hc, hquote]

/-- An escaped text does not reach beyond the first quote that is not its own. -/
theorem eq_of_escape_append {cs ds rest rest' : List Char}
    (heq : escape cs ++ '"' :: rest = escape ds ++ '"' :: rest') : cs = ds ∧ rest = rest' := by
  induction cs generalizing ds with
  | nil =>
    cases ds with
    | nil => exact ⟨rfl, List.tail_eq_of_cons_eq heq⟩
    | cons d ds => exact absurd heq (quote_ne_escape_cons d ds _ _)
  | cons c cs ih =>
    cases ds with
    | nil => exact absurd heq.symm (quote_ne_escape_cons c cs _ _)
    | cons d ds =>
      have hboth : c = d ∧ escape cs ++ '"' :: rest = escape ds ++ '"' :: rest' := by
        -- a plain letter is not a backslash, so both letters are escaped or neither is
        by_cases hc : c = '\\' ∨ c = '"' <;> by_cases hd : d = '\\' ∨ d = '"' <;>
          simp only [escape, hc, hd, if_true, if_false, List.cons_append, List.cons.injEq,
            true_and] at heq
        · exact heq
        · exact absurd (.inl heq.1.symm) hd
        · exact absurd (.inl heq.1) hc
        · exact heq
      obtain ⟨rfl, htail⟩ := hboth
      obtain ⟨rfl, hrest⟩ := ih htail
      exact ⟨rfl, hrest⟩

theorem unambiguous_quoted : Unambiguous quoted := by
  intro s t rest rest' heq
  have hlists := congrArg String.toList heq
  simp only [quoted, String.toList_append, String.toList_ofList, List.append_assoc] at hlists
  obtain ⟨htexts, hrest⟩ := eq_of_escape_append (List.tail_eq_of_cons_eq hlists)
  exact ⟨String.toList_inj.mp htexts, String.toList_inj.mp hrest⟩

theorem unambiguous_quotedId : Unambiguous fun id : StateId => quoted id.text := by
  intro s t rest rest' heq
  obtain ⟨htext, hrest⟩ := unambiguous_quoted heq
  exact ⟨StateId.text_injective htext, hrest⟩

/-! ### Lines -/

def shape (accepting : Bool) : String := if accepting then "doublecircle" else "circle"

/-- The line of a state, given by its number, its label and whether it is accepting. -/
def nodeLine : StateId × String × Bool → String
  | (id, label, accepting) =>
    "  " ++ quoted id.text ++ " [label=" ++ quoted label ++ ", shape=" ++ shape accepting ++ "];\n"

/-- The point before an initial state and the arrow from it. -/
def entryLines (id : StateId) : String :=
  "  " ++ quoted ("start_" ++ id.text) ++ " [shape=point, style=invis];\n" ++
    "  " ++ quoted ("start_" ++ id.text) ++ " -> " ++ quoted id.text ++ ";\n"

/-- The line of a transition, given by its ends and its symbol as it is shown. -/
def arrowLine : StateId × StateId × String → String
  | (source, target, symbol) =>
    "  " ++ quoted source.text ++ " -> " ++ quoted target.text ++ " [label=" ++ quoted symbol ++
      "];\n"

theorem unambiguous_shape : Unambiguous shape := by
  intro a b rest rest' heq
  have hhead := congrArg (·.toList.head?) heq
  cases a <;> cases b
  · exact ⟨rfl, (String.append_right_inj _).mp heq⟩
  · simp [shape] at hhead
  · simp [shape] at hhead
  · exact ⟨rfl, (String.append_right_inj _).mp heq⟩

theorem unambiguous_nodeLine : Unambiguous nodeLine := by
  rintro ⟨id, label, accepting⟩ ⟨id', label', accepting'⟩ rest rest' heq
  simp only [nodeLine, String.append_assoc, String.append_right_inj] at heq
  obtain ⟨rfl, hlabel⟩ := unambiguous_quotedId heq
  obtain ⟨rfl, hshape⟩ := unambiguous_quoted ((String.append_right_inj _).mp hlabel)
  obtain ⟨rfl, hend⟩ := unambiguous_shape ((String.append_right_inj _).mp hshape)
  exact ⟨rfl, (String.append_right_inj _).mp hend⟩

theorem unambiguous_entryLines : Unambiguous entryLines := by
  intro id id' rest rest' heq
  simp only [entryLines, String.append_assoc, String.append_right_inj] at heq
  obtain ⟨hentry, hend⟩ := unambiguous_quoted heq
  obtain rfl : id = id' := StateId.text_injective ((String.append_right_inj _).mp hentry)
  simp only [String.append_right_inj] at hend
  exact ⟨rfl, hend⟩

theorem unambiguous_arrowLine : Unambiguous arrowLine := by
  rintro ⟨source, target, symbol⟩ ⟨source', target', symbol'⟩ rest rest' heq
  simp only [arrowLine, String.append_assoc, String.append_right_inj] at heq
  obtain ⟨rfl, htarget⟩ := unambiguous_quotedId heq
  obtain ⟨rfl, hsymbol⟩ := unambiguous_quotedId ((String.append_right_inj _).mp htarget)
  obtain ⟨rfl, hend⟩ := unambiguous_quoted ((String.append_right_inj _).mp hsymbol)
  exact ⟨rfl, (String.append_right_inj _).mp hend⟩

/-- The point before an initial state is not the name of any state. -/
theorem entry_ne_text (id id' : StateId) : "start_" ++ id.text ≠ id'.text := by
  intro heq
  have hdigits : "tart_".toList ++ id.text.toList = Nat.toDigits 10 id'.number := by
    have hlists := congrArg String.toList heq
    simp only [StateId.text, String.toList_append] at hlists
    simpa [StateId.text] using hlists
  have hdigit : Char.isDigit 't' := by
    refine Nat.isDigit_of_mem_toDigits (b := 10) (n := id'.number) (by decide) (by decide) ?_
    rw [← hdigits]
    exact List.mem_append_left _ (by decide)
  exact absurd hdigit (by decide)

/-! ### Rows of lines -/

/-- Lines begin with a blank, and what follows a row of them does not. -/
def Indented (s : String) : Prop := s.toList.head? = some ' '

theorem not_indented_break (s : String) : ¬Indented ("\n" ++ s) := by
  simp [Indented]

/-- Where no line begins, a row of lines has come to its end. -/
theorem Unambiguous.rows {α : Type} {write : α → String} (hwrite : Unambiguous write)
    (hline : ∀ a rest, Indented (write a ++ rest)) {as bs : List α} {rest rest' : String}
    (hrest : ¬Indented rest) (hrest' : ¬Indented rest')
    (heq : String.join (as.map write) ++ rest = String.join (bs.map write) ++ rest') :
    as = bs ∧ rest = rest' := by
  induction as generalizing bs with
  | nil =>
    cases bs with
    | nil => simpa using heq
    | cons b bs =>
      refine absurd ?_ hrest
      simp only [List.map_nil, String.join_nil, String.empty_append, List.map_cons,
        String.join_cons, String.append_assoc] at heq
      exact heq ▸ hline b _
  | cons a as ih =>
    cases bs with
    | nil =>
      refine absurd ?_ hrest'
      simp only [List.map_nil, String.join_nil, String.empty_append, List.map_cons,
        String.join_cons, String.append_assoc] at heq
      exact heq ▸ hline a _
    | cons b bs =>
      simp only [List.map_cons, String.join_cons, String.append_assoc] at heq
      obtain ⟨rfl, htail⟩ := hwrite heq
      obtain ⟨rfl, hrest⟩ := ih htail
      exact ⟨rfl, hrest⟩

/-! ### Whole texts -/

/-- What a DOT text shows: the name, the states as they are listed, the initial ones among them,
and the transitions. -/
@[ext]
structure Drawing where
  title : String
  nodes : List (StateId × String × Bool)
  entries : List StateId
  arrows : List (StateId × StateId × String)

namespace Drawing

/-- The arrows and the closing brace. -/
def closing (arrows : List (StateId × StateId × String)) : String :=
  String.join (arrows.map arrowLine) ++ "\x7d\n"

/-- The part that follows the states. It begins with an empty line, and another one stands behind
the initial states if there are any. -/
def ending : List StateId → List (StateId × StateId × String) → String
  | [], arrows => closing arrows
  | id :: ids, arrows =>
    entryLines id ++ String.join (ids.map entryLines) ++ "\n" ++ closing arrows

/-- What stands before the name. -/
def opening : String := "digraph Automaton \x7b\n  rankdir=LR;\n  label="

/-- What stands between the name and the first state. -/
def settings : String := ";\n  node [shape=circle];\n\n"

def text (d : Drawing) : String :=
  opening ++ quoted d.title ++ settings ++ String.join (d.nodes.map nodeLine) ++ "\n" ++
    ending d.entries d.arrows

theorem indented_nodeLine (node : StateId × String × Bool) (rest : String) :
    Indented (nodeLine node ++ rest) := by
  simp [Indented, nodeLine]

theorem indented_entryLines (id : StateId) (rest : String) : Indented (entryLines id ++ rest) := by
  simp [Indented, entryLines]

theorem indented_arrowLine (arrow : StateId × StateId × String) (rest : String) :
    Indented (arrowLine arrow ++ rest) := by
  simp [Indented, arrowLine]

theorem closing_injective : Function.Injective closing := by
  intro as bs heq
  have hend : ¬Indented "\x7d\n" := by simp [Indented]
  exact (unambiguous_arrowLine.rows indented_arrowLine hend hend heq).1

/-- The first line after the states is that of an initial state only if there is one. -/
theorem closing_ne_entryLines (arrows : List (StateId × StateId × String)) (id : StateId)
    (rest : String) : closing arrows ≠ entryLines id ++ rest := by
  intro heq
  cases arrows with
  | nil =>
    have hindented : Indented (closing []) := heq ▸ indented_entryLines id rest
    simp [Indented, closing] at hindented
  | cons arrow arrows =>
    obtain ⟨source, target, symbol⟩ := arrow
    simp only [closing, List.map_cons, String.join_cons, arrowLine, entryLines,
      String.append_assoc, String.append_right_inj] at heq
    exact entry_ne_text id source (unambiguous_quoted heq).1.symm

theorem ending_injective {entries entries' : List StateId}
    {arrows arrows' : List (StateId × StateId × String)}
    (heq : ending entries arrows = ending entries' arrows') :
    entries = entries' ∧ arrows = arrows' := by
  cases entries with
  | nil =>
    cases entries' with
    | nil => exact ⟨rfl, closing_injective heq⟩
    | cons id ids =>
      simp only [ending, String.append_assoc] at heq
      exact absurd heq (closing_ne_entryLines arrows id _)
  | cons id ids =>
    cases entries' with
    | nil =>
      simp only [ending, String.append_assoc] at heq
      exact absurd heq.symm (closing_ne_entryLines arrows' id _)
    | cons id' ids' =>
      simp only [ending, String.append_assoc] at heq
      obtain ⟨rfl, hids⟩ := unambiguous_entryLines heq
      obtain ⟨rfl, hrest⟩ := unambiguous_entryLines.rows indented_entryLines
        (not_indented_break _) (not_indented_break _) hids
      exact ⟨rfl, closing_injective ((String.append_right_inj _).mp hrest)⟩

theorem text_injective : Function.Injective text := by
  intro d e heq
  simp only [text, String.append_assoc] at heq
  obtain ⟨htitle, hnodes⟩ := unambiguous_quoted ((String.append_right_inj _).mp heq)
  obtain ⟨hnodes, hending⟩ := unambiguous_nodeLine.rows indented_nodeLine (not_indented_break _)
    (not_indented_break _) ((String.append_right_inj _).mp hnodes)
  obtain ⟨hentries, harrows⟩ := ending_injective ((String.append_right_inj _).mp hending)
  exact Drawing.ext htitle hnodes hentries harrows

end Drawing

end Dot

namespace Graph

/-- What the DOT text of a graph shows. -/
def drawing (g : Graph) : Dot.Drawing where
  title := g.name
  nodes := g.listedStates.map fun s => (s.id, s.label, s.accepting)
  entries := g.initialStates.map (·.id)
  arrows := g.transitions.map fun t => (t.source, t.target, t.shownSymbol)

theorem dot_eq_text (g : Graph) : g.dot = g.drawing.text := by
  have hnodes : String.join (g.listedStates.map Dot.stateLine) =
      String.join (g.drawing.nodes.map Dot.nodeLine) := by
    rw [drawing, List.map_map]
    rfl
  have hentries : g.initialStates.map Dot.initialLines = g.drawing.entries.map Dot.entryLines := by
    rw [drawing, List.map_map]
    rfl
  have harrows : String.join (g.transitions.map Dot.transitionLine) =
      String.join (g.drawing.arrows.map Dot.arrowLine) := by
    rw [drawing, List.map_map]
    rfl
  change Dot.Drawing.opening ++ Dot.quoted g.name ++ Dot.Drawing.settings ++ _ ++
    (if (g.initialStates.map Dot.initialLines).isEmpty then "" else "\n") ++
    String.join (g.initialStates.map Dot.initialLines) ++ "\n" ++ _ ++ _ = _
  rw [hnodes, hentries, harrows, Dot.Drawing.text]
  cases g.drawing.entries with
  | nil =>
    simp only [Dot.Drawing.ending, Dot.Drawing.closing, List.map_nil, List.isEmpty_nil, if_true,
      String.join_nil, String.empty_append, String.append_assoc]
    rfl
  | cons id ids =>
    simp only [Dot.Drawing.ending, Dot.Drawing.closing, List.map_cons, List.isEmpty_cons,
      Bool.false_eq_true, if_false, String.join_cons, String.append_assoc]
    rfl

/-- No name, label or symbol changes what is read around it: two graphs with the same DOT text
have the same name, list the same states under the same labels with the same ones accepting and
initial, and have the same transitions with the same symbols shown, in the same order. -/
theorem dot_eq_iff (g h : Graph) :
    g.dot = h.dot ↔
      g.name = h.name ∧
      g.listedStates.map (fun s => (s.id, s.label, s.accepting)) =
        h.listedStates.map (fun s => (s.id, s.label, s.accepting)) ∧
      g.initialStates.map (·.id) = h.initialStates.map (·.id) ∧
      g.transitions.map (fun t => (t.source, t.target, t.shownSymbol)) =
        h.transitions.map (fun t => (t.source, t.target, t.shownSymbol)) := by
  rw [dot_eq_text, dot_eq_text, Dot.Drawing.text_injective.eq_iff]
  exact Dot.Drawing.ext_iff

end Graph

end FiniteAutomata
