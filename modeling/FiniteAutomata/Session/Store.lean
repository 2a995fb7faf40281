import FiniteAutomata.Graph.Edit
import FiniteAutomata.Session.Token

/-!
The store of sessions. A token is registered for a handle, and a handle leads to a graph. Every
registration makes a handle of its own, so two tokens never share a graph, and whoever holds a
handle keeps its graph when the token is registered anew or deleted.
-/
namespace FiniteAutomata.Session

/-- The place of a graph among all that were ever registered. -/
structure Handle where
  index : Nat
deriving DecidableEq, Repr

structure Store where
  defaultName : String
  generator : Generator
  sessions : List (Token × Handle)
  graphs : List Graph
  drawn : Nat
  supply : Supply

namespace Store

/-- A store without sessions. -/
def emptyWith (generator : Generator) (defaultName : String) (supply : Supply) : Store :=
  ⟨defaultName, generator, [], [], 0, supply⟩

def empty (defaultName : String) (supply : Supply) : Store :=
  emptyWith .numbered defaultName supply

/-- The name of sessions that are created without one. -/
def usualName : String := "Mon Automate"

def get? (s : Store) (t : Token) : Option Handle := s.sessions.lookup t

def contains (s : Store) (t : Token) : Bool := (s.get? t).isSome

def size (s : Store) : Nat := s.sessions.length

def isEmpty (s : Store) : Bool := s.size = 0

def graph? (s : Store) (h : Handle) : Option Graph := s.graphs[h.index]?

/-- Registers a graph for a token under a new handle. -/
def replace (s : Store) (t : Token) (g : Graph) : Store :=
  { s with
    sessions := (t, ⟨s.graphs.length⟩) :: s.sessions.filter (·.1 ≠ t)
    graphs := s.graphs ++ [g] }

/-- The number of the next token, which is the first from `drawn` on that is not registered. -/
def nextDraw (s : Store) : Nat := s.generator.next (s.sessions.map (·.1)) s.drawn

/-- Registers a graph without states for a new token. -/
def create (s : Store) (name : Option String) : Token × Store :=
  let number := s.nextDraw
  let token := s.generator.draw number
  (token, { s.replace token (.named (name.getD s.defaultName)) with drawn := number + 1 })

/-- Whether the token was registered, and the store without it. -/
def delete (s : Store) (t : Token) : Bool × Store :=
  (s.contains t, { s with sessions := s.sessions.filter (·.1 ≠ t) })

/-- Puts a graph where a handle leads. -/
def put (s : Store) (h : Handle) (g : Graph) : Store := { s with graphs := s.graphs.set h.index g }

end Store

end FiniteAutomata.Session
