import FiniteAutomata.Graph.Arena
import Mathlib.Data.List.Nodup

/-!
An arena of two shelves. Each shelf is a row of slots, some of them empty, and what is new goes into
the first empty slot. This arena does what arenas must do (`lawful_shelves`).
-/
namespace FiniteAutomata

open Function (update)

namespace Slots

variable {α : Type} {slots : List (Option α)} {i j : Nat}

def content (slots : List (Option α)) (i : Nat) : Option α := slots[i]?.join

def occupied (slots : List (Option α)) : List Nat :=
  (List.range slots.length).filter fun i => (content slots i).isSome

/-- The first empty slot, or the one behind the last. -/
def free (slots : List (Option α)) : Nat := (slots ++ [none]).findIdx Option.isNone

def fill (slots : List (Option α)) (a : α) : List (Option α) :=
  (slots ++ [none]).set (free slots) (some a)

theorem occupied_nodup (slots : List (Option α)) : (occupied slots).Nodup :=
  List.nodup_range.filter _

theorem mem_occupied (slots : List (Option α)) (i : Nat) :
    i ∈ occupied slots ↔ (content slots i).isSome := by
  rw [occupied, List.mem_filter, List.mem_range, and_iff_right_iff_imp]
  intro hsome
  by_contra hle
  rw [content, List.getElem?_eq_none (Nat.le_of_not_lt hle)] at hsome
  cases hsome

theorem content_append_none (slots : List (Option α)) (i : Nat) :
    content (slots ++ [none]) i = content slots i := by
  rw [content, content, List.getElem?_append]
  split
  · rfl
  · rename_i hle
    rw [List.getElem?_eq_none (Nat.le_of_not_lt hle)]
    cases i - slots.length <;> rfl

theorem free_lt (slots : List (Option α)) : free slots < (slots ++ [none]).length :=
  List.findIdx_lt_length_of_exists ⟨none, by simp, rfl⟩

theorem content_free (slots : List (Option α)) : content slots (free slots) = none := by
  have hlt := free_lt slots
  have hnone : (slots ++ [none])[free slots].isNone := List.findIdx_getElem
  rw [← content_append_none, content, List.getElem?_eq_getElem hlt,
    Option.isNone_iff_eq_none.mp hnone]
  rfl

theorem content_set {a : Option α} (h : a = none ∨ i < slots.length) :
    content (slots.set i a) = update (content slots) i a := by
  funext j
  rw [content, List.getElem?_set, Function.update_apply]
  by_cases hj : i = j
  · subst hj
    rw [if_pos rfl, if_pos rfl]
    by_cases hi : i < slots.length
    · rw [if_pos hi]
      rfl
    · rw [if_neg hi, h.resolve_right hi]
      rfl
  · rw [if_neg hj, if_neg (Ne.symm hj)]
    rfl

theorem content_fill (slots : List (Option α)) (a : α) :
    content (fill slots a) = update (content slots) (free slots) (some a) := by
  rw [fill, content_set (Or.inr (free_lt slots)), funext (content_append_none slots)]

theorem content_map (f : Option α → Option α) (hf : f none = none) (i : Nat) :
    content (slots.map f) i = f (content slots i) := by
  rw [content, content, List.getElem?_map]
  cases slots[i]? with
  | none => exact hf.symm
  | some a => rfl

theorem content_modify (f : α → α) (i : Nat) :
    content (slots.modify i (Option.map f)) =
      update (content slots) i ((content slots i).map f) := by
  funext j
  rw [content, List.getElem?_modify, Function.update_apply]
  by_cases hj : i = j
  · subst hj
    rw [if_pos rfl, content]
    cases slots[i]? with
    | none => rfl
    | some a => simp
  · rw [if_neg (Ne.symm hj), content]
    simp [hj]

end Slots

/-- A shelf of nodes and a shelf of edges. -/
structure Shelves (ν ε : Type) where
  nodes : List (Option ν)
  edges : List (Option (Edge ε))

open Slots in
/-- Of the edges at a node, those in the last slots come first. -/
def shelves (ν ε : Type) : Arena ν ε where
  Contents := Shelves ν ε
  empty := ⟨[], []⟩
  node? c := content c.nodes
  edge? c := content c.edges
  nodes c := occupied c.nodes
  edges c := occupied c.edges
  edgesAt c i d :=
    (occupied c.edges).reverse.filter fun k => (content c.edges k).any (·.seenFrom d = i)
  neighbors c i :=
    (occupied c.edges).reverse.filterMap fun k => (content c.edges k).bind fun e =>
      if e.source = i then some e.target else if e.target = i then some e.source else none
  addNode c v := (free c.nodes, { c with nodes := fill c.nodes v })
  addEdge c i j v := (free c.edges, { c with edges := fill c.edges ⟨i, j, v⟩ })
  removeNode c i :=
    (content c.nodes i,
      ⟨c.nodes.set i none, c.edges.map (Option.filter fun e => e.source ≠ i && e.target ≠ i)⟩)
  removeEdge c k := ((content c.edges k).map (·.weight), { c with edges := c.edges.set k none })
  changeNode c i f := { c with nodes := c.nodes.modify i (Option.map f) }
  changeNodes c f := { c with nodes := c.nodes.map (Option.map f) }

open Slots in
theorem lawful_shelves (ν ε : Type) : (shelves ν ε).Lawful where
  node?_empty _ := rfl
  edge?_empty _ := rfl
  nodes_nodup c := occupied_nodup c.nodes
  mem_nodes c i := mem_occupied c.nodes i
  edges_nodup c := occupied_nodup c.edges
  mem_edges c k := mem_occupied c.edges k
  edgesAt_nodup c i d := (List.nodup_reverse.mpr (occupied_nodup c.edges)).filter _
  mem_edgesAt c i d k := by
    simp only [shelves, List.mem_filter, List.mem_reverse, mem_occupied]
    cases content c.edges k <;> simp
  mem_neighbors c i j := by
    simp only [shelves, List.mem_filterMap, List.mem_reverse, mem_occupied, Option.bind_eq_some_iff]
    constructor
    · rintro ⟨k, -, e, he, hj⟩
      refine ⟨k, e, he, ?_⟩
      split at hj
      · exact Or.inl ⟨‹_›, Option.some.inj hj⟩
      · split at hj
        · exact Or.inr ⟨‹_›, Option.some.inj hj⟩
        · cases hj
    · rintro ⟨k, e, he, hends⟩
      refine ⟨k, Option.isSome_of_eq_some he, e, he, ?_⟩
      rcases hends with ⟨hsource, rfl⟩ | ⟨htarget, rfl⟩
      · exact if_pos hsource
      · by_cases hsource : e.source = i
        · rw [if_pos hsource, hsource, htarget]
        · rw [if_neg hsource, if_pos htarget]
  addNode_free c v := content_free c.nodes
  node?_addNode c v := content_fill c.nodes v
  edge?_addNode _ _ := rfl
  addEdge_free c _ _ _ _ _ := content_free c.edges
  edge?_addEdge c i j v _ _ := content_fill c.edges ⟨i, j, v⟩
  node?_addEdge _ _ _ _ _ _ := rfl
  fst_removeNode _ _ := rfl
  node?_removeNode c i := content_set (Or.inl rfl)
  edge?_removeNode c i k := content_map _ rfl k
  fst_removeEdge _ _ := rfl
  edge?_removeEdge c k := content_set (Or.inl rfl)
  node?_removeEdge _ _ := rfl
  node?_changeNode c i f _ := content_modify f i
  edge?_changeNode _ _ _ _ := rfl
  node?_changeNodes c f i := content_map _ rfl i
  edge?_changeNodes _ _ := rfl

end FiniteAutomata
