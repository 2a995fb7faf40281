import FiniteAutomata.Proofs.Language.Shape

/-!
What an expression is written from. Where a chain leads from the beginning, the symbols along it and
those of the loops at its end are written as they are (`expression_of_arrives`). Where none does,
the expression says what is lacking or describes the alphabet (`shape_of_not_arrives`). So only a
chain of empty symbols without loops at its end gives the empty text (`expression_eq_empty_iff`).
-/
namespace FiniteAutomata

theorem OrderedSet.isEmpty_ofList {α : Type} [Ord α] [Std.TransOrd α] [Std.LawfulEqOrd α]
    (as : List α) : (ofList as).isEmpty = as.isEmpty := by
  rw [Bool.eq_iff_iff, isEmpty, List.isEmpty_iff, List.isEmpty_iff, List.eq_nil_iff_forall_not_mem,
    List.eq_nil_iff_forall_not_mem]
  simp only [← mem_def, mem_ofList]

namespace Graph

variable {supply : Supply} {g : Graph}

/-- A chain leads from where reading begins to a state. -/
def Arrives (g : Graph) (ts : List Transition) (last : State) : Prop :=
  ∃ first, g.initialState? = some first ∧ g.Chain first ts last

def loops (g : Graph) (id : StateId) : List Transition := (g.outgoing id).filter (·.isLoop)

/-- The symbols along a chain and those of the loops behind it. -/
def written (ts loops : List Transition) : String :=
  spelling ts ++ if loops.isEmpty then "" else Shape.repeated (.ofList (loops.map (·.symbol)))

theorem Arrives.unique {ts us : List Transition} {last last' : State} (h : g.Arrives ts last)
    (h' : g.Arrives us last') : ts = us ∧ last = last' := by
  obtain ⟨first, hfirst, hchain⟩ := h
  obtain ⟨first', hfirst', hchain'⟩ := h'
  rw [hfirst] at hfirst'
  cases hfirst'
  exact hchain.unique hchain'

theorem loopSymbols_eq (g : Graph) (id : StateId) :
    g.loopSymbols id = .ofList ((g.loops id).map (·.symbol)) := rfl

/-- In a graph of one state every way on leads back, so a chain goes nowhere. -/
theorem chain_of_single (hcount : g.stateCount = 1) {first last : State} {ts : List Transition}
    (hfirst : first ∈ g.states) (hchain : g.Chain first ts last) : ts = [] ∧ last = first := by
  cases hchain with
  | stop => exact ⟨rfl, rfl⟩
  | @on _ next _ t _ hgoes hway hmoves hnext hrest =>
    obtain ⟨hmem, hid⟩ := mem_of_state?_eq_some hnext
    obtain ⟨u, hu⟩ := List.length_eq_one_iff.mp hcount
    rw [hu, List.mem_singleton] at hmem hfirst
    have hout : t ∈ g.outgoing first.id := hway ▸ List.mem_singleton_self t
    have hback : t.source = t.target := by
      rw [(mem_outgoing.mp hout).2, ← hid, hmem, hfirst]
    exact absurd (decide_eq_true hback) hmoves

theorem shape_of_single (hcount : g.stateCount = 1) {s : State} (hs : g.initialState? = some s)
    (haccepting : s.accepting) :
    g.shape =
      if (g.loopSymbols s.id).isEmpty then .emptyWord else .star (g.loopSymbols s.id) := by
  rw [shape, emptyShape?, lack?_of_chain hs (.stop haccepting), singleShape?, hs]
  simp only [hcount, haccepting, and_self, if_true]
  rfl

/-- The expression of a graph in which a chain leads from the beginning. The empty word is written
only where there is no other state. -/
theorem expression_of_arrives (hwf : WellFormed supply g) {ts : List Transition} {last : State}
    (h : g.Arrives ts last) :
    g.expression =
      if g.stateCount = 1 ∧ g.loops last.id = [] then "ε" else written ts (g.loops last.id) := by
  obtain ⟨first, hfirst, hchain⟩ := h
  by_cases hcount : g.stateCount = 1
  · obtain ⟨rfl, rfl⟩ := chain_of_single hcount (initialState?_spec hfirst).1 hchain
    rw [expression, shape_of_single hcount hfirst hchain.last_accepting, loopSymbols_eq,
      OrderedSet.isEmpty_ofList, written, spelling_nil, String.empty_append]
    cases g.loops last.id with
    | nil => simp [hcount, Shape.text]
    | cons t ts => simp [Shape.text]
  · rw [expression, shape_eq_path hwf hcount hfirst hchain, loopSymbols_eq, Shape.text,
      OrderedSet.isEmpty_ofList, written]
    cases g.loops last.id with
    | nil => simp [hcount]
    | cons t ts => simp

theorem shape_of_not_arrives (h : ∀ ts last, ¬g.Arrives ts last) :
    g.shape = g.emptyShape?.getD g.describedShape := by
  have hsingle : g.singleShape? = none := by
    unfold singleShape?
    split
    · rfl
    · rename_i s hs
      split
      · rename_i hs'
        exact absurd ⟨s, hs, .stop hs'.2⟩ (h [] s)
      · rfl
  have hpath : g.pathShape? = none := by
    rw [pathShape?_eq, Option.map_eq_none_iff, Option.eq_none_iff_forall_ne_some]
    rintro ⟨stem, last⟩ hwalk
    obtain ⟨first, ts, hfirst, hchain, -⟩ := chain_of_walk? hwalk
    exact h ts last ⟨first, hfirst, hchain⟩
  rw [shape, hsingle, hpath, Option.or_none, Option.or_none]

/-! ### Empty texts -/

theorem repeated_ne_empty (symbols : OrderedSet String) : Shape.repeated symbols ≠ "" := by
  rw [Shape.repeated, ne_eq, String.append_eq_empty_iff]
  exact fun h => absurd h.2 (by decide)

theorem spelling_eq_empty_iff {ts : List Transition} :
    spelling ts = "" ↔ ∀ t ∈ ts, t.symbol = "" := by
  induction ts with
  | nil => simp
  | cons t ts ih => rw [spelling_cons, String.append_eq_empty_iff, ih, List.forall_mem_cons]

theorem written_eq_empty_iff {ts loops : List Transition} :
    written ts loops = "" ↔ (∀ t ∈ ts, t.symbol = "") ∧ loops = [] := by
  rw [written, String.append_eq_empty_iff, spelling_eq_empty_iff]
  cases loops with
  | nil => simp
  | cons t ts => simp [repeated_ne_empty]

/-- What is lacking, and the alphabet, is never told with an empty text. -/
theorem text_ne_empty_of_not_arrives (h : ∀ ts last, ¬g.Arrives ts last) : g.expression ≠ "" := by
  have hlack (lack : Shape.Lack) : lack.text ≠ "" := by cases lack <;> decide
  rw [expression, shape_of_not_arrives h, emptyShape?]
  cases g.lack? with
  | some lack => exact hlack lack
  | none =>
    have halphabet : Shape.overAlphabet g.alphabet ≠ "" := by
      unfold Shape.overAlphabet
      split
      · decide
      all_goals simp [String.append_eq_empty_iff]
    intro hempty
    exact halphabet (String.append_eq_empty_iff.mp hempty).1

theorem expression_eq_empty_iff (hwf : WellFormed supply g) :
    g.expression = "" ↔ g.stateCount ≠ 1 ∧
      ∃ ts last, g.Arrives ts last ∧ (∀ t ∈ ts, t.symbol = "") ∧ g.loops last.id = [] := by
  constructor
  · intro hempty
    by_cases harrives : ∃ ts last, g.Arrives ts last
    · obtain ⟨ts, last, harrives⟩ := harrives
      rw [expression_of_arrives hwf harrives] at hempty
      split at hempty
      · exact absurd hempty (by decide)
      · rename_i hother
        obtain ⟨hsymbols, hloops⟩ := written_eq_empty_iff.mp hempty
        exact ⟨fun hcount => hother ⟨hcount, hloops⟩, ts, last, harrives, hsymbols, hloops⟩
    · exact absurd hempty (text_ne_empty_of_not_arrives fun ts last h => harrives ⟨ts, last, h⟩)
  · rintro ⟨hcount, ts, last, harrives, hsymbols, hloops⟩
    rw [expression_of_arrives hwf harrives, if_neg fun h => hcount h.1]
    exact written_eq_empty_iff.mpr ⟨hsymbols, hloops⟩

end Graph

end FiniteAutomata
