import FiniteAutomata.Proofs.Graph.Growth
import FiniteAutomata.Proofs.Graph.Numbers
import FiniteAutomata.Session.Command

/-!
The graphs that sessions hold. Nothing gives numbers back to the supply, not even a load that fails,
so a graph that can be made can still be made after whatever else is asked of the store. Hence every
graph of every store that commands lead to can be made (`AllMade.perform`).
-/
namespace FiniteAutomata

open FiniteAutomata.Graph

/-! ### What a load gives -/

/-- An attempt at a graph leaves the supply as it was or behind, and what it gives can be made. -/
def Attempt.Makes {ε : Type} (a : Attempt ε Graph) (supply : Supply) : Prop :=
  supply ≤ a.supply ∧ ∀ g, a.outcome = .ok g → Made a.supply g

theorem Attempt.makes_error {ε : Type} {supply later : Supply} (e : ε) (hle : supply ≤ later) :
    (⟨.error e, later⟩ : Attempt ε Graph).Makes supply :=
  ⟨hle, fun _ h => nomatch h⟩

/-- Rewording what went wrong changes neither the graph nor the supply. -/
theorem Attempt.Makes.mapError {ε ε' : Type} {a : Attempt ε Graph} {supply : Supply}
    (h : a.Makes supply) (f : ε → ε') :
    (⟨a.outcome.mapError f, a.supply⟩ : Attempt ε' Graph).Makes supply := by
  refine ⟨h.1, ?_⟩
  intro g hok
  cases houtcome : a.outcome with
  | error e =>
    rw [houtcome] at hok
    cases hok
  | ok made =>
    rw [houtcome] at hok
    cases hok
    exact h.2 g houtcome

theorem Document.makes_toGraph (d : Document) (supply : Supply) :
    (d.toGraph supply).Makes supply :=
  ⟨(draws_document d supply).supply_le, fun _ hok => .described d hok⟩

theorem Snapshot.makes_toGraph (s : Snapshot) (supply : Supply) :
    (s.toGraph supply).Makes supply :=
  ⟨(draws_snapshot s supply).supply_le, fun _ hok => .loaded s hok⟩

theorem Graph.makes_ofDocumentText (text : String) (supply : Supply) :
    (Graph.ofDocumentText text supply).Makes supply := by
  unfold Graph.ofDocumentText
  split
  · exact Document.makes_toGraph ..
  · exact Attempt.makes_error _ (le_refl supply)

theorem Graph.makes_ofSnapshotText (text : String) (supply : Supply) :
    (Graph.ofSnapshotText text supply).Makes supply := by
  simp only [Graph.ofSnapshotText]
  split
  · exact Attempt.makes_error _ (le_refl supply)
  · rename_i s _
    obtain ⟨hle, hmade⟩ := s.makes_toGraph supply
    split
    · exact Attempt.makes_error _ hle
    · rename_i g hok
      split
      · exact ⟨hle, fun h heq => by cases heq; exact hmade g hok⟩
      · exact Attempt.makes_error _ hle

theorem Source.makes_load (source : Source) (supply : Supply) :
    (source.load supply).Makes supply := by
  cases source with
  | document text => exact (Graph.makes_ofDocumentText text supply).mapError _
  | saved text => exact (Graph.makes_ofSnapshotText text supply).mapError _
  | snapshot text =>
    simp only [Source.load]
    split
    · exact Attempt.makes_error _ (le_refl supply)
    · exact (Snapshot.makes_toGraph _ supply).mapError _
  | named name => exact ⟨le_refl supply, fun _ hok => by cases hok; exact .named supply name⟩
  | unnamed => exact ⟨le_refl supply, fun _ hok => by cases hok; exact .named supply _⟩

/-- The numbers in what is loaded were given out by the load. -/
theorem Source.given_out_of_load {source : Source} {supply later : Supply} {g : Graph}
    (hload : source.load supply = ⟨.ok g, later⟩) :
    (∀ id ∈ g.stateIds, id ∈ supply.statesUntil later) ∧
      ∀ id ∈ g.transitionIds, id ∈ supply.transitionsUntil later := by
  have hok : (source.load supply).outcome = .ok g := congrArg Attempt.outcome hload
  have hmade := ((source.makes_load supply).2 g hok).wellFormed
  rw [hload] at hmade
  have hgrows := source.grows_load hok .unnamed
  refine ⟨fun id hid => ?_, fun id hid => ?_⟩
  · obtain ⟨s, hs, rfl⟩ := List.mem_map.mp hid
    rcases hgrows.states s.id hid with hnone | hnew
    · exact absurd hnone List.not_mem_nil
    · exact Supply.mem_statesUntil.mpr ⟨hnew, hmade.state_given_out s hs⟩
  · obtain ⟨t, ht, rfl⟩ := List.mem_map.mp hid
    rcases hgrows.transitions t.id hid with hnone | hnew
    · exact absurd hnone List.not_mem_nil
    · exact Supply.mem_transitionsUntil.mpr ⟨hnew, hmade.transition_given_out t ht⟩

/-! ### Stores -/

namespace Session.Store

/-- Every graph that a store holds can be made. -/
def AllMade (s : Store) : Prop := ∀ g ∈ s.graphs, Made s.supply g

theorem AllMade.wait {s : Store} (h : s.AllMade) {later : Supply} (hle : s.supply ≤ later) :
    ({ s with supply := later } : Store).AllMade :=
  fun g hg => (h g hg).kept hle

theorem AllMade.replace {s : Store} (h : s.AllMade) (t : Token) {g : Graph}
    (hg : Made s.supply g) : (s.replace t g).AllMade := by
  intro k hk
  rcases List.mem_append.mp hk with hk | hk
  · exact h k hk
  · rw [List.mem_singleton.mp hk]
    exact hg

theorem AllMade.put {s : Store} (h : s.AllMade) (handle : Handle) {g : Graph}
    (hg : Made s.supply g) : (s.put handle g).AllMade := by
  intro k hk
  rcases List.mem_or_eq_of_mem_set hk with hk | rfl
  · exact h k hk
  · exact hg

/-- Where a target leads there is a graph that can be made. -/
theorem AllMade.find {s : Store} (h : s.AllMade) {target : Target} {handle : Handle} {g : Graph}
    (hfind : s.find target = .ok (handle, g)) : Made s.supply g := by
  have hled : ∀ k : Handle, Made s.supply ((s.graph? k).getD .unnamed) := by
    intro k
    cases hgraph : s.graph? k with
    | none => exact .named s.supply _
    | some held => exact h held (List.mem_of_getElem? hgraph)
  cases target with
  | session t =>
    cases hget : s.get? t with
    | none =>
      simp only [Store.find, hget] at hfind
      cases hfind
    | some k =>
      simp only [Store.find, hget] at hfind
      cases hfind
      exact hled handle
  | held k =>
    cases hfind
    exact hled handle

theorem AllMade.perform {s : Store} (h : s.AllMade) (c : Command) : (s.perform c).2.AllMade := by
  cases c with
  | create name => exact h.replace (s.generator.draw s.nextDraw) (.named s.supply _)
  | size => exact h
  | get t => exact h
  | contains t => exact h
  | delete t => exact h
  | replace t source =>
    obtain ⟨hle, hmade⟩ := source.makes_load s.supply
    simp only [Store.perform]
    split
    · exact h.wait hle
    · rename_i g hok
      exact (h.wait hle).replace t (hmade g hok)
  | copy t origin =>
    simp only [Store.perform]
    split
    · exact h
    · rename_i handle g hfind
      exact h.replace t (h.find hfind)
  | inspect target =>
    simp only [Store.perform]
    split
    · exact h
    · exact h
  | edit target change =>
    simp only [Store.perform]
    split
    · exact h
    · rename_i handle g hfind
      exact (h.wait (strokes_edit g s.supply change).supply_le).put handle
        ((h.find hfind).edited change)
  | reload target =>
    simp only [Store.perform]
    split
    · exact h
    · rename_i handle g hfind
      obtain ⟨hle, hmade⟩ := Graph.makes_ofSnapshotText g.snapshotText s.supply
      generalize Graph.ofSnapshotText g.snapshotText s.supply = attempt at hle hmade ⊢
      split
      · exact h.wait hle
      · rename_i loaded hok
        exact (h.wait hle).put handle (hmade loaded hok)

end Session.Store

end FiniteAutomata
