import FiniteAutomata.Proofs.Graph.Course
import Mathlib.Data.List.Forall2

/-!
Changes and the marks for the empty word. Three symbols mark a transition that reads nothing. A
graph can be written with one mark for all three (`spelled`), and what a change does to a graph it
does to the graph so written, if the symbol that the change brings is written so too
(`edit_spelled`). Two graphs that differ in nothing but the marks that they use are one graph when
they are written with one (`respelled_iff`).
-/
namespace FiniteAutomata

/-- The symbol, with the mark in place of a symbol that stands for the empty word. -/
def respell (mark symbol : String) : String := if isEpsilon symbol then mark else symbol

theorem respell_of_isEpsilon {mark symbol : String} (h : isEpsilon symbol) :
    respell mark symbol = mark :=
  if_pos h

theorem respell_of_not_isEpsilon {mark symbol : String} (h : isEpsilon symbol = false) :
    respell mark symbol = symbol :=
  if_neg (Bool.eq_false_iff.mp h)

theorem isEpsilon_respell {mark : String} (hmark : isEpsilon mark) (symbol : String) :
    isEpsilon (respell mark symbol) = isEpsilon symbol := by
  cases h : isEpsilon symbol with
  | true => rw [respell_of_isEpsilon h, hmark]
  | false => rw [respell_of_not_isEpsilon h, h]

theorem respell_eq_mark_iff {mark : String} (hmark : isEpsilon mark) {symbol : String} :
    respell mark symbol = mark ↔ isEpsilon symbol := by
  constructor
  · intro h
    rw [← isEpsilon_respell hmark, h, hmark]
  · exact respell_of_isEpsilon

/-- A symbol that is read is written as it is, and no other is written so. -/
theorem respell_eq_iff {mark : String} (hmark : isEpsilon mark) {symbol read : String}
    (hread : isEpsilon read = false) : respell mark symbol = read ↔ symbol = read := by
  constructor
  · intro h
    have hsymbol : isEpsilon symbol = false := by rw [← isEpsilon_respell hmark, h, hread]
    rwa [respell_of_not_isEpsilon hsymbol] at h
  · rintro rfl
    exact respell_of_not_isEpsilon hread

/-- Two symbols that are the same when written with one mark are equal, or both stand for the empty
word. -/
theorem respell_eq_respell_iff {mark : String} (hmark : isEpsilon mark) {a b : String} :
    respell mark b = respell mark a ↔ b = a ∨ isEpsilon a ∧ isEpsilon b := by
  cases ha : isEpsilon a with
  | true =>
    rw [respell_of_isEpsilon ha, respell_eq_mark_iff hmark]
    constructor
    · exact fun hb => .inr ⟨rfl, hb⟩
    · rintro (rfl | ⟨-, hb⟩)
      · exact ha
      · exact hb
  | false =>
    rw [respell_of_not_isEpsilon ha, respell_eq_iff hmark ha]
    simp

namespace Transition

/-- The transition with the mark for its symbol if it reads nothing. -/
def spelled (mark : String) (t : Transition) : Transition :=
  { t with symbol := respell mark t.symbol }

/-- Two transitions are the same, but for the marks of those that read nothing. -/
structure Respelled (t u : Transition) : Prop where
  id_eq : u.id = t.id
  source_eq : u.source = t.source
  target_eq : u.target = t.target
  symbol_eq : u.symbol = t.symbol ∨ t.isSilent ∧ u.isSilent

theorem isSilent_spelled {mark : String} (hmark : isEpsilon mark) (t : Transition) :
    (t.spelled mark).isSilent = t.isSilent :=
  isEpsilon_respell hmark t.symbol

theorem spelled_of_not_isSilent {t : Transition} (h : t.isSilent = false) (mark : String) :
    t.spelled mark = t := by
  rw [spelled, respell_of_not_isEpsilon h]

theorem respelled_spelled {mark : String} (hmark : isEpsilon mark) (t : Transition) :
    Respelled t (t.spelled mark) where
  id_eq := rfl
  source_eq := rfl
  target_eq := rfl
  symbol_eq := by
    cases h : t.isSilent with
    | true => exact .inr ⟨rfl, (t.isSilent_spelled hmark).trans h⟩
    | false => exact .inl (respell_of_not_isEpsilon h)

theorem respelled_iff {mark : String} (hmark : isEpsilon mark) {t u : Transition} :
    Respelled t u ↔ u.spelled mark = t.spelled mark := by
  rw [spelled, spelled, mk.injEq, respell_eq_respell_iff hmark]
  exact ⟨fun h => ⟨h.id_eq, h.source_eq, h.target_eq, h.symbol_eq⟩,
    fun ⟨hid, hsource, htarget, hsymbol⟩ => ⟨hid, hsource, htarget, hsymbol⟩⟩

end Transition

namespace Graph

/-- The graph with one mark for all transitions that read nothing. -/
def spelled (mark : String) (g : Graph) : Graph :=
  { g with transitions := g.transitions.map (·.spelled mark) }

/-- The change with the mark for the symbol that it brings, if that stands for the empty word. -/
def Edit.spelled (mark : String) : Edit → Edit
  | .addTransition source target symbol => .addTransition source target (respell mark symbol)
  | e => e

def Effect.spelled (mark : String) : Effect → Effect
  | .transition t => .transition (t.spelled mark)
  | .removedTransition t => .removedTransition (t.map (·.spelled mark))
  | e => e

def Turn.spelled (mark : String) : Turn → Turn
  | .change e => .change (e.spelled mark)
  | .elsewhere states transitions => .elsewhere states transitions

/-- Two graphs are the same, but for the marks of the transitions that read nothing. Nothing is
asked of their alphabets. -/
structure Respelled (g h : Graph) : Prop where
  name_eq : h.name = g.name
  states_eq : h.states = g.states
  transitions : List.Forall₂ Transition.Respelled g.transitions h.transitions

variable {mark : String}

/-! ### Looking up -/

theorem transition?_spelled (g : Graph) (id : TransitionId) :
    (g.spelled mark).transition? id = (g.transition? id).map (·.spelled mark) := by
  simp only [transition?, spelled, List.find?_map]
  rfl

theorem map_spelled_of_not_isSilent {ts : List Transition} (h : ∀ t ∈ ts, t.isSilent = false) :
    ts.map (·.spelled mark) = ts := by
  rw [List.map_congr_left (g := id), List.map_id]
  exact fun t ht => Transition.spelled_of_not_isSilent (h t ht) mark

/-- No other mark changes what only transitions that read something are chosen for. -/
theorem filter_map_spelled {p : Transition → Bool} (hp : ∀ t, p (t.spelled mark) = p t)
    (hread : ∀ t, p t → t.isSilent = false) (ts : List Transition) :
    (ts.map (·.spelled mark)).filter p = ts.filter p := by
  have hkept : p ∘ (·.spelled mark) = p := funext hp
  rw [List.filter_map, hkept]
  exact map_spelled_of_not_isSilent fun t ht => hread t (List.mem_filter.mp ht).2

theorem symbolsOf_spelled (hmark : isEpsilon mark) (ts : List Transition) :
    symbolsOf (ts.map (·.spelled mark)) = symbolsOf ts := by
  rw [symbolsOf, symbolsOf, filter_map_spelled]
  · exact fun t => congrArg not (t.isSilent_spelled hmark)
  · exact fun t ht => by simpa using ht

theorem strayStates_spelled (g : Graph) : (g.spelled mark).strayStates = g.strayStates := by
  have hisolated (s : State) : (g.spelled mark).isIsolated s = g.isIsolated s := by
    simp only [isIsolated, spelled, List.any_map]
    rfl
  simp only [strayStates, hisolated]
  rfl

/-! ### Changing -/

section

variable (hmark : isEpsilon mark) (g : Graph)
include hmark

theorem insertTransition_spelled (t : Transition) :
    (g.spelled mark).insertTransition (t.spelled mark) = (g.insertTransition t).spelled mark := by
  have halphabet : (if (t.spelled mark).isSilent then g.alphabet
      else g.alphabet.insert (t.spelled mark).symbol) =
        if t.isSilent then g.alphabet else g.alphabet.insert t.symbol := by
    rw [t.isSilent_spelled hmark]
    cases ht : t.isSilent with
    | true => rfl
    | false => rw [Transition.spelled_of_not_isSilent ht]
  simp only [insertTransition, spelled, List.map_append, halphabet]
  rfl

theorem withoutState_spelled (id : StateId) :
    (g.spelled mark).withoutState id = (g.withoutState id).spelled mark := by
  simp only [withoutState, spelled, List.filter_map, symbolsOf_spelled hmark]
  rfl

theorem withoutTransition_spelled (id : TransitionId) :
    (g.spelled mark).withoutTransition id = (g.withoutTransition id).spelled mark := by
  simp only [withoutTransition, spelled, List.filter_map, symbolsOf_spelled hmark]
  rfl

theorem removeState_spelled (id : StateId) :
    (g.spelled mark).removeState id =
      ((g.removeState id).1, (g.removeState id).2.spelled mark) := by
  have hfound : (g.spelled mark).state? id = g.state? id := rfl
  rw [removeState, removeState, hfound]
  cases g.state? id with
  | none => rfl
  | some s => rw [withoutState_spelled hmark]

theorem removeTransition_spelled (id : TransitionId) :
    (g.spelled mark).removeTransition id =
      ((g.removeTransition id).1.map (·.spelled mark), (g.removeTransition id).2.spelled mark) := by
  rw [removeTransition, removeTransition, transition?_spelled]
  cases g.transition? id with
  | none => rfl
  | some t => rw [Option.map_some, withoutTransition_spelled hmark]

omit hmark in
theorem refuses_spelled {e : Edit} {fault : Fault} (hrefuses : g.Refuses e fault) :
    (g.spelled mark).Refuses (e.spelled mark) fault := by
  cases hrefuses with
  | update hid => exact .update hid
  | source hsource => exact .source hsource
  | target hsource htarget => exact .target hsource htarget

theorem clean_spelled : (g.spelled mark).clean = (g.clean.1, g.clean.2.spelled mark) := by
  have hrow (ss : List State) (h : Graph) :
      ss.foldl (fun h s => h.withoutState s.id) (h.spelled mark) =
        (ss.foldl (fun h s => h.withoutState s.id) h).spelled mark := by
    induction ss generalizing h with
    | nil => rfl
    | cons s ss ih => rw [List.foldl_cons, List.foldl_cons, withoutState_spelled hmark, ih]
  rw [clean, clean, strayStates_spelled, hrow]

/-- A change written with one mark does to a graph so written what the change does. -/
theorem edit_spelled (supply : Supply) (e : Edit) :
    (g.spelled mark).edit supply (e.spelled mark) =
      ⟨(g.edit supply e).answer.map (·.spelled mark), (g.edit supply e).supply,
        (g.edit supply e).graph.spelled mark⟩ := by
  cases e with
  | addState position => rfl
  | addLabeledState label position => rfl
  | removeState id =>
    simp only [edit, Edit.spelled, removeState_spelled hmark]
    rfl
  | updateState id position initial accepting =>
    rcases g.refuses_or_found id position initial accepting with hrefuses | ⟨s, hs⟩
    · rw [edit_of_refuses hrefuses, edit_of_refuses (g.refuses_spelled hrefuses)]
      rfl
    · have hs' : (g.spelled mark).state? id = some s := hs
      simp only [Edit.spelled, edit_updateState_of_found hs, edit_updateState_of_found hs']
      rfl
  | addTransition source target symbol =>
    rcases g.refuses_or_known source target symbol with ⟨fault, hrefuses⟩ | ⟨hsource, htarget⟩
    · rw [edit_of_refuses hrefuses, edit_of_refuses (g.refuses_spelled hrefuses)]
      rfl
    · have hinserted := g.insertTransition_spelled hmark
        ⟨supply.nextTransition, source, target, symbol⟩
      have hsource' : (g.spelled mark).hasState source := hsource
      have htarget' : (g.spelled mark).hasState target := htarget
      rw [Edit.spelled, edit_addTransition_of_known hsource htarget,
        edit_addTransition_of_known hsource' htarget', ← hinserted]
      rfl
  | removeTransition id =>
    simp only [edit, Edit.spelled, removeTransition_spelled hmark]
    rfl
  | clean =>
    simp only [edit, Edit.spelled, clean_spelled hmark]
    rfl
  | rename name => rfl

theorem course_spelled (supply : Supply) (ts : List Turn) :
    course supply (g.spelled mark) (ts.map (·.spelled mark)) =
      ((course supply g ts).1, (course supply g ts).2.spelled mark) := by
  induction ts generalizing supply g with
  | nil => rfl
  | cons t ts ih =>
    cases t with
    | change e =>
      simp only [List.map_cons, Turn.spelled, course, turn, edit_spelled hmark]
      exact ih _ _
    | elsewhere states transitions => exact ih _ _

end

/-! ### Graphs that differ in their marks -/

variable {supply later : Supply} {g h : Graph}

theorem respelled_spelled (hmark : isEpsilon mark) (g : Graph) : Respelled g (g.spelled mark) where
  name_eq := rfl
  states_eq := rfl
  transitions := by
    rw [spelled, List.forall₂_map_right_iff, List.forall₂_same]
    exact fun t _ => t.respelled_spelled hmark

theorem respelled_iff (hmark : isEpsilon mark) (hg : WellFormed supply g)
    (hh : WellFormed later h) : Respelled g h ↔ h.spelled mark = g.spelled mark := by
  have hrows : List.Forall₂ Transition.Respelled g.transitions h.transitions ↔
      h.transitions.map (·.spelled mark) = g.transitions.map (·.spelled mark) := by
    have hrelated : Transition.Respelled = fun t u => t.spelled mark = u.spelled mark := by
      funext t u
      exact propext ((Transition.respelled_iff hmark).trans eq_comm)
    rw [hrelated, eq_comm, ← List.forall₂_eq_eq_eq, List.forall₂_map_left_iff,
      List.forall₂_map_right_iff]
  constructor
  · intro hsame
    have hmap := hrows.mp hsame.transitions
    have halphabet : h.alphabet = g.alphabet := by
      rw [hh.alphabet_eq, ← symbolsOf_spelled hmark, hmap, symbolsOf_spelled hmark, hg.alphabet_eq]
    exact Graph.ext hsame.name_eq hsame.states_eq hmap halphabet
  · intro heq
    have hname : (h.spelled mark).name = (g.spelled mark).name := by rw [heq]
    have hstates : (h.spelled mark).states = (g.spelled mark).states := by rw [heq]
    exact ⟨hname, hstates, hrows.mpr (congrArg Graph.transitions heq)⟩

/-- The same turns lead graphs that differ in their marks to graphs that differ in their marks. -/
theorem course_respelled (hmark : isEpsilon mark) (heq : h.spelled mark = g.spelled mark)
    (supply : Supply) (ts : List Turn) :
    (course supply h ts).1 = (course supply g ts).1 ∧
      (course supply h ts).2.spelled mark = (course supply g ts).2.spelled mark := by
  have hrun := course_spelled hmark h supply ts
  rw [heq, course_spelled hmark] at hrun
  exact Prod.mk.inj hrun.symm

end Graph

end FiniteAutomata
