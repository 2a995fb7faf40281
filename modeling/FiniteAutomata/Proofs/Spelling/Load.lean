import FiniteAutomata.Proofs.Spelling.Edit

/-!
Loads and the marks for the empty word. A document or a snapshot in which one mark is written for
all three makes the graph in which that mark is written, and goes wrong where it went wrong before
(`Document.toGraph_spelled`, `Snapshot.toGraph_spelled`). So every graph that can be made can be
made with any of the marks (`Made.spelled`).
-/
namespace FiniteAutomata

/-- An attempt whose success gives what is made of the success of another. -/
def Attempt.map {ε α β : Type} (f : α → β) (a : Attempt ε α) : Attempt ε β :=
  ⟨a.outcome.map f, a.supply⟩

theorem Attempt.eq_of_map_eq {ε α : Type} {f : α → α} {a : Attempt ε α} (h : a.map f = a) {r : α}
    (hok : a.outcome = .ok r) : f r = r := by
  have houtcome := congrArg Attempt.outcome h
  rw [Attempt.map, hok] at houtcome
  exact Except.ok.inj houtcome

open FiniteAutomata.Graph

variable {mark : String} {supply : Supply}

/-! ### Documents -/

namespace Document

def TransitionDecl.spelled (mark : String) (d : TransitionDecl) : TransitionDecl :=
  { d with symbols := d.symbols.map (respell mark) }

/-- The document with one mark for all symbols that stand for the empty word. -/
def spelled (mark : String) (d : Document) : Document :=
  { d with transitions := d.transitions.map (·.spelled mark) }

theorem addStates_spelled (ds : List StateDecl) (supply : Supply) (index : Nat) (names : Names)
    (g : Graph) :
    addStates supply index names (g.spelled mark) ds =
      (addStates supply index names g ds).map fun r => (r.1, r.2.spelled mark) := by
  induction ds generalizing supply index names g with
  | nil => rfl
  | cons d ds ih =>
    rw [addStates, addStates]
    cases names.lookup d.id with
    | some id => rfl
    | none =>
      exact ih supply.afterState (index + 1) ((d.id, supply.nextState) :: names)
        (g.insertState (d.toState supply.nextState index))

theorem addSymbols_spelled (hmark : isEpsilon mark) (symbols : List String) (supply : Supply)
    (g : Graph) (source target : StateId) :
    addSymbols supply (g.spelled mark) source target (symbols.map (respell mark)) =
      ((addSymbols supply g source target symbols).1.spelled mark,
        (addSymbols supply g source target symbols).2) := by
  induction symbols generalizing supply g with
  | nil => rfl
  | cons symbol rest ih =>
    rw [List.map_cons, addSymbols, addSymbols, ← ih, ← insertTransition_spelled hmark]
    rfl

theorem addTransitions_spelled (hmark : isEpsilon mark) (ds : List TransitionDecl)
    (supply : Supply) (names : Names) (g : Graph) :
    addTransitions supply names (g.spelled mark) (ds.map (·.spelled mark)) =
      (addTransitions supply names g ds).map (·.spelled mark) := by
  induction ds generalizing supply g with
  | nil => rfl
  | cons d ds ih =>
    simp only [List.map_cons, addTransitions, TransitionDecl.spelled, addSymbols_spelled hmark]
    cases names.lookup d.source with
    | none => rfl
    | some source =>
      cases names.lookup d.target with
      | none => rfl
      | some target => exact ih ..

theorem toGraph_spelled (hmark : isEpsilon mark) (d : Document) (supply : Supply) :
    (d.spelled mark).toGraph supply = (d.toGraph supply).map (·.spelled mark) := by
  have hplaced : (addStates supply 0 [] (.named d.name) d.states).map
      (fun r => (r.1, r.2.spelled mark)) = addStates supply 0 [] (.named d.name) d.states :=
    (addStates_spelled d.states supply 0 [] (.named d.name)).symm
  simp only [toGraph, spelled]
  cases hok : (addStates supply 0 [] (.named d.name) d.states).outcome with
  | error e => rfl
  | ok placed =>
    -- states alone have no marks
    have hsame : placed.2.spelled mark = placed.2 :=
      congrArg Prod.snd (Attempt.eq_of_map_eq hplaced hok)
    have hjoined := addTransitions_spelled hmark d.transitions
      (addStates supply 0 [] (.named d.name) d.states).supply placed.1 placed.2
    rw [hsame] at hjoined
    exact hjoined

end Document

/-! ### Snapshots -/

namespace Snapshot

/-- The snapshot with one mark for all symbols that stand for the empty word. -/
def spelled (mark : String) (s : Snapshot) : Snapshot :=
  { s with transitions := s.transitions.map (·.spelled mark) }

theorem addStates_spelled (ss : List State) (supply : Supply) (ids : Renumbering) (g : Graph) :
    addStates supply ids (g.spelled mark) ss =
      (addStates supply ids g ss).map fun r => (r.1, r.2.spelled mark) := by
  induction ss generalizing supply ids g with
  | nil => rfl
  | cons s ss ih =>
    rw [addStates, addStates]
    cases ids.lookup s.id with
    | some id => rfl
    | none =>
      exact ih supply.afterState ((s.id, supply.nextState) :: ids)
        (g.insertState { s with id := supply.nextState })

theorem addTransitions_spelled (hmark : isEpsilon mark) (ts : List Transition) (supply : Supply)
    (ids : Renumbering) (g : Graph) :
    addTransitions supply ids (g.spelled mark) (ts.map (·.spelled mark)) =
      (addTransitions supply ids g ts).map (·.spelled mark) := by
  induction ts generalizing supply g with
  | nil => rfl
  | cons t ts ih =>
    rw [List.map_cons, addTransitions, addTransitions, Transition.spelled]
    cases ids.lookup t.source with
    | none => rfl
    | some source =>
      cases ids.lookup t.target with
      | none => rfl
      | some target =>
        have hjoined := g.insertTransition_spelled hmark
          ⟨supply.nextTransition, source, target, t.symbol⟩
        rw [Transition.spelled] at hjoined
        simp only [hjoined]
        exact ih ..

theorem toGraph_spelled (hmark : isEpsilon mark) (s : Snapshot) (supply : Supply) :
    (s.spelled mark).toGraph supply = (s.toGraph supply).map (·.spelled mark) := by
  have hplaced : (addStates supply [] (.named s.name) s.states).map
      (fun r => (r.1, r.2.spelled mark)) = addStates supply [] (.named s.name) s.states :=
    (addStates_spelled s.states supply [] (.named s.name)).symm
  simp only [toGraph, spelled]
  cases hok : (addStates supply [] (.named s.name) s.states).outcome with
  | error e => rfl
  | ok placed =>
    have hsame : placed.2.spelled mark = placed.2 :=
      congrArg Prod.snd (Attempt.eq_of_map_eq hplaced hok)
    have hjoined := addTransitions_spelled hmark s.transitions
      (addStates supply [] (.named s.name) s.states).supply placed.1 placed.2
    rw [hsame] at hjoined
    exact hjoined

end Snapshot

/-! ### All graphs -/

namespace Graph

/-- A graph that can be made can be made with any of the marks. -/
theorem Made.spelled (hmark : isEpsilon mark) {g : Graph} (hmade : Made supply g) :
    Made supply (g.spelled mark) := by
  induction hmade with
  | named supply name => exact .named supply name
  | @described supply g d hok =>
    have hmade : Made ((d.spelled mark).toGraph supply).supply (g.spelled mark) := by
      refine .described (d.spelled mark) ?_
      rw [d.toGraph_spelled hmark, Attempt.map, hok]
      rfl
    rwa [d.toGraph_spelled hmark] at hmade
  | @loaded supply g s hok =>
    have hmade : Made ((s.spelled mark).toGraph supply).supply (g.spelled mark) := by
      refine .loaded (s.spelled mark) ?_
      rw [s.toGraph_spelled hmark, Attempt.map, hok]
      rfl
    rwa [s.toGraph_spelled hmark] at hmade
  | @edited supply g _ e ih =>
    have hmade := ih.edited (e.spelled mark)
    rwa [edit_spelled hmark] at hmade
  | kept _ hle ih => exact ih.kept hle

end Graph

end FiniteAutomata
