import FiniteAutomata.Session.Store
import FiniteAutomata.Source

/-!
What clients can ask of a store, and what they are answered. `Store.perform` carries out one
command; a command that fails leaves all sessions and graphs as they were.
-/
namespace FiniteAutomata.Session

/-- The graph that a command is about, by its session or by a handle held for it. -/
inductive Target
  | session (token : Token)
  | held (handle : Handle)
deriving DecidableEq, Repr

inductive Command
  | create (name : Option String)
  | size
  | get (token : Token)
  | contains (token : Token)
  | delete (token : Token)
  | replace (token : Token) (source : Source)
  | copy (token origin : Token)
  | inspect (target : Target)
  | edit (target : Target) (change : Graph.Edit)
  | reload (target : Target)

inductive Answer
  | token (token : Token)
  | size (count : Nat)
  | handle (handle : Option Handle)
  | flag (value : Bool)
  | done
  | graph (g : Graph)
  | effect (effect : Graph.Effect)

namespace Store

/-- The handle and the graph that a target leads to. -/
def find (s : Store) : Target → Except Error (Handle × Graph)
  | .session t =>
    match s.get? t with
    | none => .error (.unknownSession t)
    | some h => .ok (h, (s.graph? h).getD .unnamed)
  | .held h => .ok (h, (s.graph? h).getD .unnamed)

def perform (s : Store) : Command → Except Error Answer × Store
  | .create name =>
    let (token, s) := s.create name
    (.ok (.token token), s)
  | .size => (.ok (.size s.size), s)
  | .get t => (.ok (.handle (s.get? t)), s)
  | .contains t => (.ok (.flag (s.contains t)), s)
  | .delete t =>
    let (was, s) := s.delete t
    (.ok (.flag was), s)
  | .replace t source =>
    let made := source.load s.supply
    let s := { s with supply := made.supply }
    match made.outcome with
    | .error e => (.error e, s)
    | .ok g => (.ok .done, s.replace t g)
  | .copy t origin =>
    match s.find (.session origin) with
    | .error e => (.error e, s)
    | .ok (_, g) => (.ok .done, s.replace t g)
  | .inspect target =>
    match s.find target with
    | .error e => (.error e, s)
    | .ok (_, g) => (.ok (.graph g), s)
  | .edit target change =>
    match s.find target with
    | .error e => (.error e, s)
    | .ok (h, g) =>
      let edited := g.edit s.supply change
      (edited.answer.map .effect |>.mapError .ofGraph,
        { s with supply := edited.supply }.put h edited.graph)
  | .reload target =>
    match s.find target with
    | .error e => (.error e, s)
    | .ok (h, g) =>
      let made := g.snapshotText |> (Graph.ofSnapshotText · s.supply)
      let s := { s with supply := made.supply }
      match made.outcome with
      | .error fault => (.error (.snapshotText fault), s)
      | .ok g => (.ok .done, s.put h g)

/-- Carries out commands in order. -/
def performAll (s : Store) : List Command → List (Except Error Answer) × Store
  | [] => ([], s)
  | c :: cs =>
    let (answer, s) := s.perform c
    let (answers, s) := performAll s cs
    (answer :: answers, s)

end Store

end FiniteAutomata.Session
