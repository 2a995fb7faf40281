import FiniteAutomata.Proofs.Graph.Made
import FiniteAutomata.Source

/-!
Which numbers a graph may carry. Strokes bring no number into a graph but those that the supply
gives out meanwhile (`Strokes.grows`), so what is loaded carries new numbers only (`grows_load`).
What a text is loaded as is settled before any number is given out (`exists_content`), and only the
making of the graph depends on the supply.
-/
namespace FiniteAutomata

namespace Graph

def stateIds (g : Graph) : List StateId := g.states.map (·.id)

def transitionIds (g : Graph) : List TransitionId := g.transitions.map (·.id)

theorem mem_stateIds_iff {g : Graph} {id : StateId} : id ∈ g.stateIds ↔ g.hasState id := by
  rw [stateIds, List.mem_map, hasState_iff]

theorem state?_isSome_iff {g : Graph} {id : StateId} : (g.state? id).isSome ↔ id ∈ g.stateIds := by
  simp only [state?, List.find?_isSome, decide_eq_true_eq, stateIds, List.mem_map]

theorem transition?_isSome_iff {g : Graph} {id : TransitionId} :
    (g.transition? id).isSome ↔ id ∈ g.transitionIds := by
  simp only [transition?, List.find?_isSome, decide_eq_true_eq, transitionIds, List.mem_map]

/-- The numbers in `h` were in `g` or had still to be given out. -/
structure Grows (supply : Supply) (g h : Graph) : Prop where
  states : ∀ id ∈ h.stateIds, id ∈ g.stateIds ∨ supply.states ≤ id.number
  transitions : ∀ id ∈ h.transitionIds, id ∈ g.transitionIds ∨ supply.transitions ≤ id.number

namespace Grows

variable {supply later : Supply} {g h k : Graph}

theorem refl (supply : Supply) (g : Graph) : Grows supply g g :=
  ⟨fun _ hid => Or.inl hid, fun _ hid => Or.inl hid⟩

theorem trans (hgh : Grows supply g h) (hhk : Grows later h k) (hle : supply ≤ later) :
    Grows supply g k where
  states id hid := by
    rcases hhk.states id hid with hid | hnew
    · exact hgh.states id hid
    · exact Or.inr (Nat.le_trans hle.1 hnew)
  transitions id hid := by
    rcases hhk.transitions id hid with hid | hnew
    · exact hgh.transitions id hid
    · exact Or.inr (Nat.le_trans hle.2 hnew)

/-- What grew out of nothing carries new numbers only. -/
theorem of_named {name : String} (hgrows : Grows supply (named name) h) (g : Graph) :
    Grows supply g h where
  states id hid := (hgrows.states id hid).imp_left fun hnone => absurd hnone List.not_mem_nil
  transitions id hid :=
    (hgrows.transitions id hid).imp_left fun hnone => absurd hnone List.not_mem_nil

end Grows

/-- A number in a graph that is looked for, and taken to be empty if there is none, shows that the
graph was found. -/
theorem exists_of_mem_stateIds_getD {found : Option Graph} {id : StateId}
    (hid : id ∈ (found.getD .unnamed).stateIds) : ∃ g, found = some g ∧ id ∈ g.stateIds := by
  cases found with
  | none => exact absurd hid List.not_mem_nil
  | some g => exact ⟨g, rfl, hid⟩

theorem exists_of_mem_transitionIds_getD {found : Option Graph} {id : TransitionId}
    (hid : id ∈ (found.getD .unnamed).transitionIds) :
    ∃ g, found = some g ∧ id ∈ g.transitionIds := by
  cases found with
  | none => exact absurd hid List.not_mem_nil
  | some g => exact ⟨g, rfl, hid⟩

theorem Stroke.grows {a b : Supply × Graph} (hstroke : Stroke a b) : Grows a.1 a.2 b.2 := by
  cases hstroke with
  | @wait supply later g => exact .refl supply g
  | @rename supply g name => exact ⟨fun id hmem => Or.inl hmem, fun id hmem => Or.inl hmem⟩
  | @place supply g s hid =>
    refine ⟨fun id hmem => ?_, fun id hmem => Or.inl hmem⟩
    have hmem : id ∈ g.stateIds ++ [s.id] := by simpa [stateIds, insertState] using hmem
    rcases List.mem_append.mp hmem with hold | hnew
    · exact Or.inl hold
    · rw [List.mem_singleton.mp hnew, hid]
      exact Or.inr (Nat.le_refl _)
  | @join supply g source target symbol =>
    refine ⟨fun id hmem => Or.inl hmem, fun id hmem => ?_⟩
    have hmem : id ∈ g.transitionIds ++ [supply.nextTransition] := by
      simpa [transitionIds, insertTransition] using hmem
    rcases List.mem_append.mp hmem with hold | hnew
    · exact Or.inl hold
    · rw [List.mem_singleton.mp hnew]
      exact Or.inr (Nat.le_refl _)
  | @redraw supply g f hf =>
    refine ⟨fun id hmem => Or.inl ?_, fun id hmem => Or.inl hmem⟩
    simpa [stateIds, Function.comp_def, hf] using hmem
  | @dropState supply g id =>
    have hstates : ∀ id' ∈ (g.withoutState id).stateIds, id' ∈ g.stateIds :=
      (List.filter_sublist.map _).subset
    have htransitions : ∀ id' ∈ (g.withoutState id).transitionIds, id' ∈ g.transitionIds :=
      (List.filter_sublist.map _).subset
    exact ⟨fun id' hmem => Or.inl (hstates id' hmem),
      fun id' hmem => Or.inl (htransitions id' hmem)⟩
  | @dropTransition supply g id =>
    have htransitions : ∀ id' ∈ (g.withoutTransition id).transitionIds, id' ∈ g.transitionIds :=
      (List.filter_sublist.map _).subset
    exact ⟨fun id' hmem => Or.inl hmem, fun id' hmem => Or.inl (htransitions id' hmem)⟩

theorem Strokes.grows {a b : Supply × Graph} (hrow : Strokes a b) : Grows a.1 a.2 b.2 := by
  induction hrow with
  | refl => exact .refl _ _
  | tail hrow hstroke ih => exact ih.trans hstroke.grows (Strokes.supply_le hrow)

end Graph

/-! ### Loads -/

/-- What a source turns out to hold. A snapshot with more text behind it is made all the same, and
refused when it is done. -/
inductive Source.Content
  | unreadable (error : Error)
  | bare (name : String)
  | document (d : Document)
  | snapshot (s : Snapshot) (report : Snapshot.Fault → Error)
  | overlong (s : Snapshot) (report : Snapshot.Fault → Error) (error : Error)

namespace Source

/-- Makes the graph. -/
def Content.make (c : Content) (supply : Supply) : Attempt Error Graph :=
  match c with
  | .unreadable error => ⟨.error error, supply⟩
  | .bare name => ⟨.ok (.named name), supply⟩
  | .document d => ⟨(d.toGraph supply).outcome.mapError .document, (d.toGraph supply).supply⟩
  | .snapshot s report => ⟨(s.toGraph supply).outcome.mapError report, (s.toGraph supply).supply⟩
  | .overlong s report error =>
    ⟨((s.toGraph supply).outcome.mapError report).bind fun _ => .error error,
      (s.toGraph supply).supply⟩

/-- A source is read in the same way whatever numbers come next. -/
theorem exists_content (source : Source) :
    ∃ c : Content, ∀ supply, source.load supply = c.make supply := by
  cases source with
  | document text =>
    cases hparse : Document.parse text with
    | error e =>
      refine ⟨.unreadable (.document e), fun supply => ?_⟩
      simp [load, Graph.ofDocumentText, hparse, Content.make, Except.mapError]
    | ok d =>
      refine ⟨.document d, fun supply => ?_⟩
      simp [load, Graph.ofDocumentText, hparse, Content.make]
  | saved text =>
    cases hreading : Json.Reading.ofChars text.toList with
    | mk reading rest =>
      cases hdecode : Snapshot.decode reading with
      | error fault =>
        refine ⟨.unreadable (.snapshotText (.unreadable fault)), fun supply => ?_⟩
        simp [load, Graph.ofSnapshotText, hreading, hdecode, Content.make, Except.mapError]
      | ok s =>
        let report (fault : Snapshot.Fault) : Error := .snapshotText (.rejected fault)
        cases hfinished : Json.isFinished rest with
        | true =>
          refine ⟨.snapshot s report, fun supply => ?_⟩
          simp only [load, Graph.ofSnapshotText, hreading, hdecode, hfinished, Content.make]
          cases (s.toGraph supply).outcome <;> rfl
        | false =>
          let error : Error := .snapshotText (.unreadable .malformed)
          refine ⟨.overlong s report error, fun supply => ?_⟩
          simp only [load, Graph.ofSnapshotText, hreading, hdecode, hfinished, Content.make]
          cases (s.toGraph supply).outcome <;> rfl
  | snapshot text =>
    cases hread : Snapshot.ofText text with
    | error fault =>
      refine ⟨.unreadable (.snapshotText (.unreadable fault)), fun supply => ?_⟩
      simp [load, hread, Content.make]
    | ok s =>
      refine ⟨.snapshot s .ofSnapshot, fun supply => ?_⟩
      simp [load, hread, Content.make]
  | named name => exact ⟨.bare name, fun _ => rfl⟩
  | unnamed => exact ⟨.bare "Automate", fun _ => rfl⟩

theorem eq_ok_of_mapError {ε ε' α : Type} {f : ε → ε'} {r : Except ε α} {a : α}
    (hok : r.mapError f = .ok a) : r = .ok a := by
  cases r with
  | error e => cases hok
  | ok b =>
    cases hok
    rfl

theorem Content.grows_make (c : Content) {supply : Supply} {g : Graph}
    (hok : (c.make supply).outcome = .ok g) (h : Graph) : Graph.Grows supply h g := by
  cases c with
  | unreadable error => cases hok
  | bare name =>
    cases hok
    exact (Graph.Grows.refl supply (.named name)).of_named h
  | document d =>
    obtain ⟨k, hrow, hdrawn⟩ := Graph.draws_document d supply
    rw [hdrawn g (eq_ok_of_mapError hok)]
    exact hrow.grows.of_named h
  | snapshot s report =>
    obtain ⟨k, hrow, hdrawn⟩ := Graph.draws_snapshot s supply
    rw [hdrawn g (eq_ok_of_mapError hok)]
    exact hrow.grows.of_named h
  | overlong s report error =>
    simp only [make] at hok
    cases houtcome : (s.toGraph supply).outcome with
    | error e =>
      rw [houtcome] at hok
      cases hok
    | ok made =>
      rw [houtcome] at hok
      cases hok

/-- A graph that was loaded carries new numbers only, whatever graph it takes the place of. -/
theorem grows_load (source : Source) {supply : Supply} {g : Graph}
    (hok : (source.load supply).outcome = .ok g) (h : Graph) : Graph.Grows supply h g := by
  obtain ⟨c, hc⟩ := source.exists_content
  rw [hc] at hok
  exact c.grows_make hok h

end Source

end FiniteAutomata
