import FiniteAutomata.Proofs.Placement.View
import FiniteAutomata.Proofs.Session.Run

/-!
Runs and places. Two runs that put and move the same states to different places go the same way:
each step answers the same and fails alike, and between the steps the graphs differ in nothing but
the places of their states (`places_unseen`). The one command left out is that which writes a
graph out and reads it again, for what is read depends on what was written.
-/
namespace FiniteAutomata

namespace Graph

/-- What a row of changes answers, one after the other. -/
def answers (supply : Supply) (g : Graph) : List Edit → List (Except Fault Effect)
  | [] => []
  | e :: es =>
    let done := g.edit supply e
    done.answer :: answers done.supply done.graph es

theorem editAll_unplaced (supply : Supply) (g : Graph) (es : List Edit) :
    editAll supply g.unplaced (es.map (·.unplaced)) =
      ((editAll supply g es).1, (editAll supply g es).2.unplaced) := by
  induction es generalizing supply g with
  | nil => rfl
  | cons e es ih =>
    rw [List.map_cons, editAll, editAll, edit_unplaced]
    exact ih _ _

theorem answers_unplaced (supply : Supply) (g : Graph) (es : List Edit) :
    answers supply g.unplaced (es.map (·.unplaced)) =
      (answers supply g es).map (·.map (·.unplaced)) := by
  induction es generalizing supply g with
  | nil => rfl
  | cons e es ih =>
    rw [List.map_cons, answers, answers, edit_unplaced, List.map_cons]
    exact congrArg _ (ih _ _)

/-- Changes that are the same without places lead to graphs that are the same without places. -/
theorem editAll_alike {es es' : List Edit} (hes : es'.map (·.unplaced) = es.map (·.unplaced))
    (supply : Supply) (g : Graph) :
    (editAll supply g es').1 = (editAll supply g es).1 ∧
      (editAll supply g es').2.unplaced = (editAll supply g es).2.unplaced := by
  have hrun := editAll_unplaced supply g es'
  rw [hes, editAll_unplaced] at hrun
  exact Prod.mk.inj hrun.symm

end Graph

namespace Session

def Command.unplaced : Command → Command
  | .edit target change => .edit target change.unplaced
  | c => c

/-- Whether a command writes a graph out and reads it again, places and all. -/
def Command.rereads : Command → Bool
  | .reload _ => true
  | _ => false

def Answer.unplaced : Answer → Answer
  | .graph g => .graph g.unplaced
  | .effect e => .effect e.unplaced
  | a => a

theorem Command.rereads_unplaced (c : Command) : c.unplaced.rereads = c.rereads := by
  cases c <;> rfl

namespace Store

/-- The store with its graphs without places. -/
def unplaced (s : Store) : Store := { s with graphs := s.graphs.map (·.unplaced) }

variable (s : Store)

@[simp]
theorem unplaced_unplaced : s.unplaced.unplaced = s.unplaced := by
  simp [unplaced, Function.comp_def]

theorem graph?_unplaced (h : Handle) : s.unplaced.graph? h = (s.graph? h).map (·.unplaced) :=
  List.getElem?_map

theorem unplaced_replace (t : Token) (g : Graph) :
    (s.replace t g).unplaced = s.unplaced.replace t g.unplaced := by
  simp [unplaced, replace]

theorem unplaced_put (h : Handle) (g : Graph) :
    (s.put h g).unplaced = s.unplaced.put h g.unplaced := by
  simp [unplaced, put, List.map_set]

theorem find_unplaced (target : Target) :
    s.unplaced.find target = (s.find target).map fun found => (found.1, found.2.unplaced) := by
  have hgraph (h : Handle) :
      (s.unplaced.graph? h).getD .unnamed = ((s.graph? h).getD .unnamed).unplaced := by
    rw [graph?_unplaced]
    cases s.graph? h with
    | none => rfl
    | some g => rfl
  cases target with
  | session t =>
    have hget : s.unplaced.get? t = s.get? t := rfl
    rw [find, find, hget]
    cases s.get? t with
    | none => rfl
    | some h => simp only [hgraph, Except.map]
  | held h => simp only [find, hgraph, Except.map]

end Store

/-- An outcome without places. -/
def forgotten (outcome : Except Error Answer × Store) : Except Error Answer × Store :=
  (outcome.1.map (·.unplaced), outcome.2.unplaced)

namespace Store

/-- A command does without places what it does, but for places. -/
theorem perform_unplaced (s : Store) {c : Command} (hc : c.rereads = false) :
    forgotten (s.unplaced.perform c.unplaced) = forgotten (s.perform c) := by
  have hreplace (s : Store) (t : Token) (g g' : Graph) (hg : g'.unplaced = g.unplaced) :
      (s.unplaced.replace t g').unplaced = (s.replace t g).unplaced := by
    rw [unplaced_replace, unplaced_replace, unplaced_unplaced, hg]
  cases c with
  | create name =>
    have hcreated := hreplace s (s.generator.draw s.nextDraw) (.named (name.getD s.defaultName)) _
      rfl
    exact congrArg (fun k : Store => (Except.ok (Answer.token (s.generator.draw s.nextDraw)),
      { k with drawn := s.nextDraw + 1 })) hcreated
  | size | get | contains => exact congrArg (Prod.mk _) s.unplaced_unplaced
  | delete t =>
    exact congrArg (fun k : Store => (Except.ok (Answer.flag (s.contains t)),
      { k with sessions := s.sessions.filter (·.1 ≠ t) })) s.unplaced_unplaced
  | replace t source =>
    have hsupply : s.unplaced.supply = s.supply := rfl
    simp only [Command.unplaced, perform, hsupply]
    let drawn : Store := { s with supply := (source.load s.supply).supply }
    cases (source.load s.supply).outcome with
    | error e => exact congrArg (Prod.mk _) drawn.unplaced_unplaced
    | ok g => exact congrArg (Prod.mk _) (hreplace drawn t g g rfl)
  | copy t origin =>
    simp only [Command.unplaced, perform, find_unplaced]
    cases s.find (.session origin) with
    | error e => simp [Except.map, forgotten]
    | ok found => simp [Except.map, forgotten, hreplace s t found.2 found.2.unplaced]
  | inspect target =>
    simp only [Command.unplaced, perform, find_unplaced]
    cases s.find target with
    | error e => simp [Except.map, forgotten]
    | ok found => simp [Except.map, forgotten, Answer.unplaced]
  | edit target change =>
    simp only [Command.unplaced, perform, find_unplaced]
    cases s.find target with
    | error e => simp [Except.map, forgotten]
    | ok found =>
      have hsupply : s.unplaced.supply = s.supply := rfl
      simp only [Except.map, hsupply, Graph.edit_unplaced]
      generalize found.2.edit s.supply change = edited
      let drawn : Store := { s with supply := edited.supply }
      have hput : (drawn.unplaced.put found.1 edited.graph.unplaced).unplaced =
          (drawn.put found.1 edited.graph).unplaced := by
        rw [unplaced_put, unplaced_put, unplaced_unplaced, Graph.unplaced_unplaced]
      refine Prod.ext ?_ hput
      cases edited.answer with
      | error fault => rfl
      | ok effect => simp [forgotten, Except.map, Except.mapError, Answer.unplaced]
  | reload target => cases hc

/-- Commands that are the same without places, on stores that are the same without places. -/
theorem perform_alike {s s' : Store} {c c' : Command} (hs : s'.unplaced = s.unplaced)
    (hc : c'.unplaced = c.unplaced) (hrereads : c.rereads = false) :
    forgotten (s'.perform c') = forgotten (s.perform c) := by
  have hrereads' : c'.rereads = false := by
    rw [← c'.rereads_unplaced, hc, c.rereads_unplaced, hrereads]
  rw [← perform_unplaced s' hrereads', hs, hc, perform_unplaced s hrereads]

theorem performAll_alike {s s' : Store} {cs cs' : List Command} (hs : s'.unplaced = s.unplaced)
    (hcs : cs'.map (·.unplaced) = cs.map (·.unplaced)) (hrereads : ∀ c ∈ cs, c.rereads = false) :
    (s'.performAll cs').1.map (·.map (·.unplaced)) = (s.performAll cs).1.map (·.map (·.unplaced)) ∧
      (s'.after cs').unplaced = (s.after cs).unplaced := by
  induction cs generalizing s s' cs' with
  | nil =>
    rw [List.map_nil, List.map_eq_nil_iff] at hcs
    subst hcs
    exact ⟨rfl, hs⟩
  | cons c cs ih =>
    cases cs' with
    | nil => cases hcs
    | cons c' cs' =>
      obtain ⟨hhead, htail⟩ := List.cons.inj hcs
      obtain ⟨hfirst, hrest⟩ := List.forall_mem_cons.mp hrereads
      obtain ⟨hanswer, hnext⟩ := Prod.mk.inj (perform_alike hs hhead hfirst)
      obtain ⟨hanswers, hend⟩ := ih hnext htail hrest
      exact ⟨congrArg₂ List.cons hanswer hanswers, hend⟩

/-- What is known of two stores is the same, but for the places of states in their graphs. -/
structure SameButPlaces (s s' : Store) : Prop where
  sessions_eq : s'.sessions = s.sessions
  supply_eq : s'.supply = s.supply
  graphs : ∀ h, Option.Rel Graph.SameButPlaces (s.graph? h) (s'.graph? h)

theorem sameButPlaces {s s' : Store} (hmade : s.AllMade) (hmade' : s'.AllMade)
    (hs : s'.unplaced = s.unplaced) : SameButPlaces s s' where
  sessions_eq := show s'.unplaced.sessions = s.unplaced.sessions by rw [hs]
  supply_eq := show s'.unplaced.supply = s.unplaced.supply by rw [hs]
  graphs h := by
    have hgraphs : (s'.graph? h).map (·.unplaced) = (s.graph? h).map (·.unplaced) := by
      rw [← graph?_unplaced, hs, graph?_unplaced]
    cases hg : s.graph? h with
    | none =>
      rw [hg, Option.map_none, Option.map_eq_none_iff] at hgraphs
      rw [hgraphs]
      exact .none
    | some g =>
      rw [hg, Option.map_some, Option.map_eq_some_iff] at hgraphs
      obtain ⟨g', hg', heq⟩ := hgraphs
      rw [hg']
      have hwf := (hmade g (List.mem_of_getElem? hg)).wellFormed
      have hwf' := (hmade' g' (List.mem_of_getElem? hg')).wellFormed
      exact .some (Graph.sameButPlaces hwf hwf' heq)

end Store

end Session

/-! ### Main statement -/

section

open Session

/-- Places have no effect on anything else. Two rows of changes to a graph, or of commands on a
store, that are the same without places are answered alike, with the same errors, and after each
step leave graphs that differ in nothing but the places of their states. -/
theorem places_unseen :
    (∀ (supply : Supply) (g : Graph) (es es' : List Graph.Edit), Graph.Made supply g →
      es'.map (·.unplaced) = es.map (·.unplaced) →
        (Graph.answers supply g es').map (·.map (·.unplaced)) =
            (Graph.answers supply g es).map (·.map (·.unplaced)) ∧
          ∀ n, (Graph.editAll supply g (es'.take n)).1 = (Graph.editAll supply g (es.take n)).1 ∧
            Graph.SameButPlaces (Graph.editAll supply g (es.take n)).2
              (Graph.editAll supply g (es'.take n)).2) ∧
    ∀ (s : Store) (cs cs' : List Command), s.AllMade → (∀ c ∈ cs, c.rereads = false) →
      cs'.map (·.unplaced) = cs.map (·.unplaced) →
        (s.performAll cs').1.map (·.map (·.unplaced)) =
            (s.performAll cs).1.map (·.map (·.unplaced)) ∧
          ∀ n, Store.SameButPlaces (s.after (cs.take n)) (s.after (cs'.take n)) := by
  refine ⟨fun supply g es es' hmade hes => ⟨?_, fun n => ?_⟩,
    fun s cs cs' hmade hrereads hcs => ⟨?_, fun n => ?_⟩⟩
  · rw [← Graph.answers_unplaced, hes, Graph.answers_unplaced]
  · have hfirst : (es'.take n).map (·.unplaced) = (es.take n).map (·.unplaced) := by
      rw [List.map_take, hes, List.map_take]
    obtain ⟨hsupply, hgraphs⟩ := Graph.editAll_alike hfirst supply g
    exact ⟨hsupply, Graph.sameButPlaces (hmade.editedAll _).wellFormed
      (hmade.editedAll _).wellFormed hgraphs⟩
  · exact (Store.performAll_alike rfl hcs hrereads).1
  · have hfirst : (cs'.take n).map (·.unplaced) = (cs.take n).map (·.unplaced) := by
      rw [List.map_take, hcs, List.map_take]
    have hplain : ∀ c ∈ cs.take n, c.rereads = false :=
      fun c hc => hrereads c (List.mem_of_mem_take hc)
    exact Store.sameButPlaces (hmade.after _) (hmade.after _)
      (Store.performAll_alike rfl hfirst hplain).2

/-- Three states in a row, a flag and a transition, and two changes that are refused. -/
def sketch (p q : Point) : List Graph.Edit :=
  [.addState p, .addLabeledState "b" q, .addState q, .updateState ⟨1⟩ p (some true) none,
    .addTransition ⟨0⟩ ⟨1⟩ "x", .updateState ⟨7⟩ q none none, .addTransition ⟨0⟩ ⟨7⟩ "x", .clean]

/-- The point that no number gives. -/
def Point.nowhere : Point := ⟨0.0 / 0.0, 1.0 / 0.0⟩

def sketched (p q : Point) : List Command :=
  .create (some "a") :: (sketch p q).map (.edit (.session (.drawn 0)))

theorem places_unseen_sketch :
    (Graph.Made .initial .unnamed ∧ (sketch .nowhere .origin).map (·.unplaced) =
        (sketch .origin .nowhere).map (·.unplaced)) ∧
      ((Store.empty "a" .initial).AllMade ∧
        (∀ c ∈ sketched .origin .nowhere, c.rereads = false) ∧
        (sketched .nowhere .origin).map (·.unplaced) =
          (sketched .origin .nowhere).map (·.unplaced)) ∧
      (Graph.editAll .initial .unnamed (sketch .nowhere .origin)).2.dot =
        (Graph.editAll .initial .unnamed (sketch .origin .nowhere)).2.dot ∧
      ((Store.empty "a" .initial).after (sketched .nowhere .origin)).sessions =
        ((Store.empty "a" .initial).after (sketched .origin .nowhere)).sessions := by
  have hmade : Graph.Made .initial .unnamed := .named ..
  have hstore := Store.allMade_empty "a" .initial .numbered
  have hrereads : ∀ c ∈ sketched .origin .nowhere, c.rereads = false := by decide
  obtain ⟨hedits, hcommands⟩ := places_unseen
  obtain ⟨-, hgraphs⟩ := hedits .initial .unnamed (sketch .origin .nowhere)
    (sketch .nowhere .origin) hmade rfl
  obtain ⟨-, hstores⟩ := hcommands (.empty "a" .initial) (sketched .origin .nowhere)
    (sketched .nowhere .origin) hstore hrereads rfl
  exact ⟨⟨hmade, rfl⟩, ⟨hstore, hrereads, rfl⟩, (hgraphs 8).2.dot_eq, (hstores 9).sessions_eq⟩

end

end FiniteAutomata
