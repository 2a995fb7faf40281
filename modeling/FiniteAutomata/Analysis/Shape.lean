import FiniteAutomata.Graph.Basic

/-!
A regular expression for graphs of a few simple shapes. Three shapes are tried in turn: no words
at all, a single state with loops, and a chain that ends in an accepting state with loops. What
fits none is described by its alphabet. `Graph.shape` finds the shape and `Shape.text` writes it.
-/
namespace FiniteAutomata

/-- Why a graph has no words. -/
inductive Shape.Lack
  | states
  | initialState
  | acceptingState
deriving DecidableEq, Repr

inductive Shape
  | empty (lack : Shape.Lack)
  | emptyWord
  | star (symbols : OrderedSet String)
  | path (stem : String) (loops : OrderedSet String)
  | description (alphabet : OrderedSet String) (starred : Bool)
deriving DecidableEq

namespace Shape

def Lack.text : Lack → String
  | .states => "∅"
  | .initialState => "∅ (pas d'état initial)"
  | .acceptingState => "∅ (aucun état acceptant)"

/-- A choice between symbols. A single symbol stands alone. -/
def union (symbols : OrderedSet String) : String :=
  match symbols.toList with
  | [symbol] => symbol
  | symbols => "(" ++ "+".intercalate symbols ++ ")"

def repeated (symbols : OrderedSet String) : String := union symbols ++ "*"

/-- Words over an alphabet, said in words. -/
def overAlphabet (alphabet : OrderedSet String) : String :=
  match alphabet.toList with
  | [] => "ε"
  | [symbol] => "(langage sur '" ++ symbol ++ "')"
  | symbols => "(langage sur \x7b" ++ ", ".intercalate symbols ++ "\x7d)"

def text : Shape → String
  | .empty lack => lack.text
  | .emptyWord => "ε"
  | .star symbols => repeated symbols
  | .path stem loops => if loops.isEmpty then stem else stem ++ repeated loops
  | .description alphabet starred => overAlphabet alphabet ++ if starred then "*" else ""

end Shape

namespace Graph

/-- The symbols of the loops at a state. -/
def loopSymbols (g : Graph) (id : StateId) : OrderedSet String :=
  .ofList (((g.outgoing id).filter (·.isLoop)).map (·.symbol))

def lack? (g : Graph) : Option Shape.Lack :=
  if g.isEmpty then some .states
  else if g.initialState?.isNone then some .initialState
  else if g.acceptingStates.isEmpty then some .acceptingState
  else none

def emptyShape? (g : Graph) : Option Shape := g.lack?.map .empty

def singleShape? (g : Graph) : Option Shape :=
  match g.initialState? with
  | none => none
  | some s =>
    if g.stateCount = 1 ∧ s.accepting then
      let loops := g.loopSymbols s.id
      some (if loops.isEmpty then .emptyWord else .star loops)
    else none

/-- Follows the only way on from state to state until one accepts, and gives the symbols on the way
and the accepting state. `fresh` are the states not yet passed; to meet one that is not among them
means to go in a circle. -/
def walk (g : Graph) (fresh : List StateId) (s : State) (stem : String) :
    Option (String × State) :=
  if s.accepting then some (stem, s)
  else if _h : s.id ∈ fresh then
    match g.outgoing s.id with
    | [t] =>
      if t.isLoop then none
      else
        match g.state? t.target with
        | some next => walk g (fresh.erase s.id) next (stem ++ t.symbol)
        | none => none
    | _ => none
  else none
termination_by fresh.length
decreasing_by
  have := List.length_pos_of_mem _h
  rw [List.length_erase_of_mem _h]
  omega

def pathShape? (g : Graph) : Option Shape :=
  match g.initialState? with
  | none => none
  | some s =>
    (g.walk (g.states.map (·.id)) s "").map fun (stem, last) => .path stem (g.loopSymbols last.id)

def describedShape (g : Graph) : Shape := .description g.alphabet (g.transitions.any (·.isLoop))

def shape (g : Graph) : Shape :=
  ((g.emptyShape?.or g.singleShape?).or g.pathShape?).getD g.describedShape

/-- A regular expression for the graph, or a description where none was found. -/
def expression (g : Graph) : String := g.shape.text

end Graph

end FiniteAutomata
