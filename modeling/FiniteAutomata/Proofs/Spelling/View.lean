import FiniteAutomata.Analysis.Report
import FiniteAutomata.Analysis.Table
import FiniteAutomata.Proofs.Graph.Drawing
import FiniteAutomata.Proofs.Spelling.Edit

/-!
Views and the marks for the empty word. The kind of a graph, its table, its language in words, its
DOT text and the number of states to be cleaned away are the same under all marks, and no change
that is made to two graphs alike brings out a difference between their marks (`marks_unseen`).
-/
namespace FiniteAutomata.Graph

/-- What is seen of two graphs is the same, but for the marks of transitions that read nothing. -/
structure SameButMarks (g h : Graph) : Prop where
  respelled : Respelled g h
  alphabet_eq : h.alphabet = g.alphabet
  deterministic_eq : h.isDeterministic = g.isDeterministic
  complete_eq : h.isComplete = g.isComplete
  table_eq : h.table = g.table
  language_eq : h.languageSummary = g.languageSummary
  cleaned_eq : h.clean.1 = g.clean.1
  dot_eq : h.dot = g.dot

variable {mark : String} {supply later : Supply} {g h : Graph}

/-- What is in the alphabet is read. -/
theorem WellFormed.isEpsilon_eq_false (hwf : WellFormed supply g) {symbol : String}
    (hsymbol : symbol ∈ g.alphabet) : isEpsilon symbol = false := by
  rw [hwf.alphabet_eq, mem_symbolsOf] at hsymbol
  obtain ⟨t, -, hread, rfl⟩ := hsymbol
  exact hread

theorem spelled_of_not_isSilent (hread : ∀ t ∈ g.transitions, t.isSilent = false) :
    g.spelled mark = g := by
  rw [spelled, map_spelled_of_not_isSilent hread]

/-! ### Each view -/

section

variable (hmark : isEpsilon mark)
include hmark

/-- The transitions on a symbol that is read. -/
theorem filter_outgoing_spelled (g : Graph) (id : StateId) {symbol : String}
    (hread : isEpsilon symbol = false) :
    ((g.spelled mark).outgoing id).filter (·.symbol = symbol) =
      (g.outgoing id).filter (·.symbol = symbol) := by
  rw [outgoing, outgoing, List.filter_filter, List.filter_filter, spelled, filter_map_spelled]
  · intro t
    have hsymbol : (t.spelled mark).symbol = symbol ↔ t.symbol = symbol :=
      respell_eq_iff hmark hread
    simp only [hsymbol]
    rfl
  · intro t ht
    rw [Bool.and_eq_true, decide_eq_true_eq] at ht
    rw [Transition.isSilent, ht.1, hread]

/-- Where a transition reads nothing the graph has to have no states to be deterministic, and where
none does there are no marks. -/
theorem isDeterministic_spelled (g : Graph) :
    (g.spelled mark).isDeterministic = g.isDeterministic := by
  by_cases hread : ∀ t ∈ g.transitions, t.isSilent = false
  · rw [spelled_of_not_isSilent hread]
  · have hsilent : g.transitions.any (·.isSilent) := by simpa using hread
    have hsilent' : (g.spelled mark).transitions.any (·.isSilent) := by
      simpa [spelled, Transition.isSilent_spelled hmark] using hread
    rw [isDeterministic, isDeterministic, hsilent, hsilent']
    simp only [Bool.not_true, Bool.and_false, Bool.false_and]
    rfl

theorem hasMove_spelled (g : Graph) (id : StateId) {symbol : String}
    (hread : isEpsilon symbol = false) :
    (g.spelled mark).hasMove id symbol = g.hasMove id symbol := by
  have hsome (k : Graph) : k.hasMove id symbol =
      !((k.outgoing id).filter (·.symbol = symbol)).isEmpty := by
    rw [hasMove, Bool.eq_iff_iff]
    simp [and_assoc]
  rw [hsome, hsome, filter_outgoing_spelled hmark g id hread]

theorem isComplete_spelled (hwf : WellFormed supply g) :
    (g.spelled mark).isComplete = g.isComplete := by
  have hmoves (s : State) : g.alphabet.toList.all ((g.spelled mark).hasMove s.id) =
      g.alphabet.toList.all (g.hasMove s.id) := by
    rw [Bool.eq_iff_iff, List.all_eq_true, List.all_eq_true]
    refine forall₂_congr fun symbol hsymbol => ?_
    rw [hasMove_spelled hmark g s.id (hwf.isEpsilon_eq_false hsymbol)]
  have halphabet : (g.spelled mark).alphabet = g.alphabet := rfl
  have hstates : (g.spelled mark).states = g.states := rfl
  rw [isComplete, isComplete, isDeterministic_spelled hmark, halphabet, hstates]
  simp only [hmoves]

theorem table_spelled (hwf : WellFormed supply g) : (g.spelled mark).table = g.table := by
  have hrow (s : State) : (g.spelled mark).row s = g.row s := by
    have hcells : g.alphabet.toList.map (fun symbol =>
        (symbol, (g.spelled mark).destinations s.id symbol)) =
          g.alphabet.toList.map fun symbol => (symbol, g.destinations s.id symbol) := by
      refine List.map_congr_left fun symbol hsymbol => ?_
      have hread := hwf.isEpsilon_eq_false hsymbol
      have hfound (id : StateId) : (g.spelled mark).state? id = g.state? id := rfl
      simp only [destinations, filter_outgoing_spelled hmark g s.id hread, hfound]
    exact congrArg (Table.Row.mk (.ofState s) s.initial s.accepting) hcells
  have halphabet : (g.spelled mark).alphabet = g.alphabet := rfl
  have hlisted : (g.spelled mark).listedStates = g.listedStates := rfl
  rw [table, table, halphabet, hlisted, List.map_congr_left fun s _ => hrow s]

theorem shownSymbol_spelled (t : Transition) : (t.spelled mark).shownSymbol = t.shownSymbol := by
  rw [Transition.shownSymbol, Transition.shownSymbol, t.isSilent_spelled hmark]
  cases ht : t.isSilent with
  | true => rfl
  | false => rw [Transition.spelled_of_not_isSilent ht]

theorem drawing_spelled (g : Graph) : (g.spelled mark).drawing = g.drawing := by
  have harrows : (g.spelled mark).transitions.map (fun t => (t.source, t.target, t.shownSymbol)) =
      g.transitions.map fun t => (t.source, t.target, t.shownSymbol) := by
    rw [spelled, List.map_map]
    refine List.map_congr_left fun t _ => ?_
    rw [Function.comp_apply, shownSymbol_spelled hmark]
    rfl
  exact congrArg (Dot.Drawing.mk g.name _ _) harrows

end

/-! ### Main statement -/

/-- Graphs that are the same when written with one mark differ in nothing that is seen. -/
theorem sameButMarks (hmark : isEpsilon mark) (hg : WellFormed supply g) (hh : WellFormed later h)
    (heq : h.spelled mark = g.spelled mark) : SameButMarks g h where
  respelled := (respelled_iff hmark hg hh).mpr heq
  alphabet_eq := show (h.spelled mark).alphabet = (g.spelled mark).alphabet by rw [heq]
  deterministic_eq := by
    rw [← isDeterministic_spelled hmark h, heq, isDeterministic_spelled hmark]
  complete_eq := by rw [← isComplete_spelled hmark hh, heq, isComplete_spelled hmark hg]
  table_eq := by rw [← table_spelled hmark hh, heq, table_spelled hmark hg]
  language_eq :=
    show (h.spelled mark).languageSummary = (g.spelled mark).languageSummary by rw [heq]
  cleaned_eq := by
    have hcount (k : Graph) : (k.spelled mark).clean.1 = k.clean.1 := by rw [clean_spelled hmark]
    rw [← hcount h, heq, hcount g]
  dot_eq := by
    rw [dot_eq_text, dot_eq_text, ← drawing_spelled hmark h, heq, drawing_spelled hmark]

/-- The three marks for the empty word can be put one for another. Two graphs that differ in their
marks alone show the same, and go on to show the same whatever is then done to both of them. -/
theorem marks_unseen (hg : Made supply g) (hh : Made later h) (hsame : Respelled g h) :
    SameButMarks g h ∧
      ∀ next, supply ≤ next → later ≤ next → ∀ ts,
        (course next h ts).1 = (course next g ts).1 ∧
          SameButMarks (course next g ts).2 (course next h ts).2 := by
  have hmark : isEpsilon epsilon := rfl
  have heq := (respelled_iff hmark hg.wellFormed hh.wellFormed).mp hsame
  refine ⟨sameButMarks hmark hg.wellFormed hh.wellFormed heq, fun next hle hle' ts => ?_⟩
  obtain ⟨hsupply, hend⟩ := course_respelled hmark heq next ts
  have hg' := ((hg.kept hle).course ts).wellFormed
  have hh' := ((hh.kept hle').course ts).wellFormed
  exact ⟨hsupply, sameButMarks hmark hg' hh' hend⟩

/-- A saved graph with two transitions that read nothing, one of them a loop. -/
def ferry (mark loop : String) : Snapshot :=
  let state (number : Nat) (label : String) (initial accepting : Bool) : State :=
    ⟨⟨number⟩, label, ⟨0, 0⟩, initial, accepting⟩
  { name := "ferry"
    states := [state 0 "here" true false, state 1 "there" false true, state 2 "nowhere" false false]
    transitions := [⟨⟨0⟩, ⟨0⟩, ⟨1⟩, mark⟩, ⟨⟨1⟩, ⟨0⟩, ⟨1⟩, "a"⟩, ⟨⟨2⟩, ⟨1⟩, ⟨1⟩, loop⟩]
    alphabet := [] }

def ferried (mark loop : String) : Graph :=
  ((ferry mark loop).toGraph .initial).outcome.toOption.getD .unnamed

/-- One more transition that reads nothing comes, one goes, and so does what is not joined. -/
def crossings : List Turn :=
  [.change (.addTransition ⟨1⟩ ⟨0⟩ "epsilon"), .elsewhere 1 0, .change (.removeTransition ⟨0⟩),
    .change (.addTransition ⟨2⟩ ⟨7⟩ ""), .change .clean]

theorem made_ferried (mark loop : String) : Made ⟨3, 3⟩ (ferried mark loop) := by
  have hok : ((ferry mark loop).toGraph .initial).outcome = .ok (ferried mark loop) := rfl
  have hmade := Made.loaded (ferry mark loop) hok
  exact hmade

theorem marks_unseen_ferry :
    Made ⟨3, 3⟩ (ferried "" "ε") ∧ Made ⟨3, 3⟩ (ferried "epsilon" "") ∧
      Respelled (ferried "" "ε") (ferried "epsilon" "") ∧
      (ferried "epsilon" "").dot = (ferried "" "ε").dot ∧
      (course ⟨3, 3⟩ (ferried "epsilon" "") crossings).2.table =
        (course ⟨3, 3⟩ (ferried "" "ε") crossings).2.table := by
  have hsame : Respelled (ferried "" "ε") (ferried "epsilon" "") :=
    ⟨rfl, rfl, .cons ⟨rfl, rfl, rfl, .inr ⟨rfl, rfl⟩⟩ <| .cons ⟨rfl, rfl, rfl, .inl rfl⟩ <|
      .cons ⟨rfl, rfl, rfl, .inr ⟨rfl, rfl⟩⟩ .nil⟩
  obtain ⟨hnow, hlater⟩ := marks_unseen (made_ferried _ _) (made_ferried _ _) hsame
  exact ⟨made_ferried _ _, made_ferried _ _, hsame, hnow.dot_eq,
    (hlater ⟨3, 3⟩ le_rfl le_rfl crossings).2.table_eq⟩

end FiniteAutomata.Graph
