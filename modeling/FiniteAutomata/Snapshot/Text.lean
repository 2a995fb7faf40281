import FiniteAutomata.Json.Basic
import FiniteAutomata.Json.Decoder
import FiniteAutomata.Snapshot.Basic

/-!
Snapshots as JSON texts, and graphs saved and loaded as such texts.
-/
namespace FiniteAutomata

namespace Snapshot

open Json.Decoder

def stateJson (s : State) : Json :=
  .object [("id", .natural s.id.number), ("label", .string s.label), ("x", .number s.position.x),
    ("y", .number s.position.y), ("initial", .bool s.initial), ("accepting", .bool s.accepting)]

def transitionJson (t : Transition) : Json :=
  .object [("id", .natural t.id.number), ("from", .natural t.source.number),
    ("to", .natural t.target.number), ("symbol", .string t.symbol)]

def toJson (s : Snapshot) : Json :=
  .object [("name", .string s.name), ("states", .list (s.states.map stateJson)),
    ("transitions", .list (s.transitions.map transitionJson)),
    ("alphabet", .list (s.alphabet.map .string))]

structure StateDraft where
  id : Option Nat
  label : Option String
  x : Option Float
  y : Option Float
  initial : Option Bool
  accepting : Option Bool

def StateDraft.complete? (d : StateDraft) : Option State := do
  let id ← d.id
  let label ← d.label
  let x ← d.x
  let y ← d.y
  let initial ← d.initial
  let accepting ← d.accepting
  return ⟨⟨id⟩, label, ⟨x, y⟩, initial, accepting⟩

def state : Json.Decoder State :=
  record
    [member "id" natural fun v d => { d with id := some v },
     member "label" text fun v d => { d with label := some v },
     member "x" double fun v d => { d with x := some v },
     member "y" double fun v d => { d with y := some v },
     member "initial" boolean fun v d => { d with initial := some v },
     member "accepting" boolean fun v d => { d with accepting := some v }]
    ⟨none, none, none, none, none, none⟩ StateDraft.complete?

structure TransitionDraft where
  id : Option Nat
  source : Option Nat
  target : Option Nat
  symbol : Option String

/-- A transition without a symbol reads nothing. -/
def TransitionDraft.complete? (d : TransitionDraft) : Option Transition := do
  let id ← d.id
  let source ← d.source
  let target ← d.target
  return ⟨⟨id⟩, ⟨source⟩, ⟨target⟩, d.symbol.getD ""⟩

def transition : Json.Decoder Transition :=
  record
    [member "id" natural fun v d => { d with id := some v },
     member "from" natural fun v d => { d with source := some v },
     member "to" natural fun v d => { d with target := some v },
     member "symbol" text fun v d => { d with symbol := some v }]
    ⟨none, none, none, none⟩ TransitionDraft.complete?

structure Draft where
  name : Option String
  states : Option (List State)
  transitions : Option (List Transition)
  alphabet : Option (List String)

/-- Only the name of a snapshot has to be there. -/
def Draft.complete? (d : Draft) : Option Snapshot := do
  let name ← d.name
  return ⟨name, d.states.getD [], d.transitions.getD [], d.alphabet.getD []⟩

def decode : Json.Decoder Snapshot :=
  record
    [member "name" text fun v d => { d with name := some v },
     member "states" (list state) fun v d => { d with states := some v },
     member "transitions" (list transition) fun v d => { d with transitions := some v },
     member "alphabet" (list text) fun v d => { d with alphabet := some v }]
    ⟨none, none, none, none⟩ Draft.complete?

/-- Why a text makes no graph: it is no snapshot, or the snapshot describes none. -/
inductive TextFault
  | unreadable (fault : Json.Fault)
  | rejected (fault : Fault)
deriving DecidableEq, Repr

/-- The snapshot that a whole text writes. -/
def ofText (source : String) : Except Json.Fault Snapshot :=
  let (reading, rest) := Json.Reading.ofChars source.toList
  match decode reading with
  | .error fault => .error fault
  | .ok s => if Json.isFinished rest then .ok s else .error .malformed

end Snapshot

namespace Graph

/-- The text that a graph is saved as. -/
def snapshotText (g : Graph) : String := (Snapshot.ofGraph g).toJson.compactText

/-- Loads a graph from a text. The graph is made as soon as the snapshot is read; only then is the
text looked at for more than a snapshot. -/
def ofSnapshotText (source : String) (supply : Supply) : Attempt Snapshot.TextFault Graph :=
  let (reading, rest) := Json.Reading.ofChars source.toList
  match Snapshot.decode reading with
  | .error fault => ⟨.error (.unreadable fault), supply⟩
  | .ok s =>
    let made := s.toGraph supply
    match made.outcome with
    | .error fault => ⟨.error (.rejected fault), made.supply⟩
    | .ok g =>
      if Json.isFinished rest then ⟨.ok g, made.supply⟩
      else ⟨.error (.unreadable .malformed), made.supply⟩

end Graph

end FiniteAutomata
