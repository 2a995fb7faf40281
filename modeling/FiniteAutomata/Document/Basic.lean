import FiniteAutomata.State
import FiniteAutomata.Document.Location

/-!
What a document says: a name, remarks, a declared alphabet, states and transitions, each in the
order of the text.
-/
namespace FiniteAutomata

namespace Document

/-- A declared state, placed at the word that begins the declaration. -/
structure StateDecl where
  id : String
  initial : Bool
  accepting : Bool
  position : Option Point
  label : Option String
  location : Location

/-- A declared transition with all its symbols, placed at the state it leaves. -/
structure TransitionDecl where
  source : String
  target : String
  symbols : List String
  location : Location
deriving DecidableEq

/-- What can be said of a state. -/
inductive Property
  | initial (value : Bool)
  | accepting (value : Bool)
  | position (value : Point)
  | label (value : String)

/-- What stands between the braces of a document. -/
inductive Item
  | metadata (key value : String)
  | alphabet (symbols : List String)
  | state (decl : StateDecl)
  | transition (decl : TransitionDecl)

end Document

structure Document where
  name : String
  metadata : List (String × String)
  alphabet : List String
  states : List Document.StateDecl
  transitions : List Document.TransitionDecl

namespace Document

/-- A state of which nothing is said. -/
def StateDecl.bare (id : String) (location : Location) : StateDecl :=
  ⟨id, false, false, none, none, location⟩

/-- A later word on the same property replaces an earlier one. -/
def StateDecl.set (s : StateDecl) : Property → StateDecl
  | .initial value => { s with initial := value }
  | .accepting value => { s with accepting := value }
  | .position value => { s with position := some value }
  | .label value => { s with label := some value }

def ofItems (name : String) : List Item → Document
  | [] => ⟨name, [], [], [], []⟩
  | item :: items =>
    let rest := ofItems name items
    match item with
    | .metadata key value => { rest with metadata := (key, value) :: rest.metadata }
    | .alphabet symbols => { rest with alphabet := symbols ++ rest.alphabet }
    | .state decl => { rest with states := decl :: rest.states }
    | .transition decl => { rest with transitions := decl :: rest.transitions }

end Document

end FiniteAutomata
