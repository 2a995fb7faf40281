import Mathlib.Logic.Function.Basic

/-!
Arenas: stores of nodes and edges that give each a slot of its own. What is removed leaves the slots
of all others alone, and its own slot may be given out again. Which slot is given out next, and in
which order nodes and edges are gone through, is left to the arena; `Arena.Lawful` is what can be
relied on.
-/
namespace FiniteAutomata

/-- The two ways to look at an edge from a node. -/
inductive Direction
  | outgoing
  | incoming

/-- An edge with the slots of its ends. -/
structure Edge (ε : Type) where
  source : Nat
  target : Nat
  weight : ε

/-- The slot of the node from which an edge is seen in a direction. -/
def Edge.seenFrom {ε : Type} (e : Edge ε) : Direction → Nat
  | .outgoing => e.source
  | .incoming => e.target

structure Arena (ν ε : Type) where
  Contents : Type
  empty : Contents
  node? : Contents → Nat → Option ν
  edge? : Contents → Nat → Option (Edge ε)
  /-- The slots of all nodes. -/
  nodes : Contents → List Nat
  /-- The slots of all edges. -/
  edges : Contents → List Nat
  /-- The slots of the edges that a node sees in a direction. -/
  edgesAt : Contents → Nat → Direction → List Nat
  /-- The slots of the nodes at the other ends of a node's edges. -/
  neighbors : Contents → Nat → List Nat
  addNode : Contents → ν → Nat × Contents
  addEdge : Contents → Nat → Nat → ε → Nat × Contents
  removeNode : Contents → Nat → Option ν × Contents
  removeEdge : Contents → Nat → Option ε × Contents
  changeNode : Contents → Nat → (ν → ν) → Contents
  changeNodes : Contents → (ν → ν) → Contents

open Function (update)

/-- What an arena does, said by what is in its slots afterwards. -/
structure Arena.Lawful {ν ε : Type} (A : Arena ν ε) : Prop where
  node?_empty : ∀ i, A.node? A.empty i = none
  edge?_empty : ∀ k, A.edge? A.empty k = none
  nodes_nodup : ∀ c, (A.nodes c).Nodup
  mem_nodes : ∀ c i, i ∈ A.nodes c ↔ (A.node? c i).isSome
  edges_nodup : ∀ c, (A.edges c).Nodup
  mem_edges : ∀ c k, k ∈ A.edges c ↔ (A.edge? c k).isSome
  edgesAt_nodup : ∀ c i d, (A.edgesAt c i d).Nodup
  mem_edgesAt : ∀ c i d k, k ∈ A.edgesAt c i d ↔ ∃ e, A.edge? c k = some e ∧ e.seenFrom d = i
  mem_neighbors : ∀ c i j, j ∈ A.neighbors c i ↔
    ∃ k e, A.edge? c k = some e ∧ (e.source = i ∧ e.target = j ∨ e.target = i ∧ e.source = j)
  addNode_free : ∀ c v, A.node? c (A.addNode c v).1 = none
  node?_addNode : ∀ c v,
    A.node? (A.addNode c v).2 = update (A.node? c) (A.addNode c v).1 (some v)
  edge?_addNode : ∀ c v, A.edge? (A.addNode c v).2 = A.edge? c
  addEdge_free : ∀ c i j v, (A.node? c i).isSome → (A.node? c j).isSome →
    A.edge? c (A.addEdge c i j v).1 = none
  edge?_addEdge : ∀ c i j v, (A.node? c i).isSome → (A.node? c j).isSome →
    A.edge? (A.addEdge c i j v).2 = update (A.edge? c) (A.addEdge c i j v).1 (some ⟨i, j, v⟩)
  node?_addEdge : ∀ c i j v, (A.node? c i).isSome → (A.node? c j).isSome →
    A.node? (A.addEdge c i j v).2 = A.node? c
  fst_removeNode : ∀ c i, (A.removeNode c i).1 = A.node? c i
  node?_removeNode : ∀ c i, A.node? (A.removeNode c i).2 = update (A.node? c) i none
  edge?_removeNode : ∀ c i k, A.edge? (A.removeNode c i).2 k =
    (A.edge? c k).filter fun e => e.source ≠ i && e.target ≠ i
  fst_removeEdge : ∀ c k, (A.removeEdge c k).1 = (A.edge? c k).map (·.weight)
  edge?_removeEdge : ∀ c k, A.edge? (A.removeEdge c k).2 = update (A.edge? c) k none
  node?_removeEdge : ∀ c k, A.node? (A.removeEdge c k).2 = A.node? c
  node?_changeNode : ∀ c i f, (A.node? c i).isSome →
    A.node? (A.changeNode c i f) = update (A.node? c) i ((A.node? c i).map f)
  edge?_changeNode : ∀ c i f, (A.node? c i).isSome →
    A.edge? (A.changeNode c i f) = A.edge? c
  node?_changeNodes : ∀ c f i, A.node? (A.changeNodes c f) i = (A.node? c i).map f
  edge?_changeNodes : ∀ c f, A.edge? (A.changeNodes c f) = A.edge? c

end FiniteAutomata
