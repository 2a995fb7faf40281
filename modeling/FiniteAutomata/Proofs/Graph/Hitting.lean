import FiniteAutomata.Proofs.Graph.Course
import FiniteAutomata.Proofs.Housing.Shadow
import FiniteAutomata.Proofs.Housing.Shelf
import Mathlib.Data.List.Sort

/-!
Which state is at a point. Of the states whose circles hold the point it is the one that was made
first, and neither the slots of an arena nor removals, by which slots become free again, have a part
in that (`hits_oldest`). So what is at a point stays there until it is removed or something is
moved.
-/
namespace FiniteAutomata

theorem State.contains_of_position_eq {s t : State} (h : s.position = t.position) (p : Point) :
    s.contains p = t.contains p := by
  rw [contains, contains, h]

namespace Graph

/-- A graph with the numbers of all states that were ever made in it, in the order in which they
were made. -/
inductive Chronicle : Supply → Graph → List StateId → Prop
  | named (supply : Supply) (name : String) : Chronicle supply (named name) []
  | placed {supply : Supply} {g : Graph} {made : List StateId} (h : Chronicle supply g made)
      (s : State) (hid : s.id = supply.nextState) :
      Chronicle supply.afterState (g.insertState s) (made ++ [s.id])
  | changed {supply later : Supply} {g k : Graph} {made : List StateId}
      (h : Chronicle supply g made) (hstroke : Stroke (supply, g) (later, k))
      (hold : ∀ s ∈ k.states, g.hasState s.id) : Chronicle later k made

/-- A course on which a state stays in the graph and none is moved. -/
def Undisturbed (id : StateId) (supply : Supply) (g : Graph) : List Turn → Prop
  | [] => True
  | .change e :: ts =>
    ¬g.Drops e id ∧ e.KeepsPlaces g ∧
      Undisturbed id (g.edit supply e).supply (g.edit supply e).graph ts
  | .elsewhere states transitions :: ts => Undisturbed id (supply.taken states transitions) g ts

/-- What is at a point of a graph whose states were made in the given order. -/
structure HitsOldest (supply : Supply) (g : Graph) (made : List StateId) : Prop where
  made_increasing : made.Pairwise fun i j => i.number < j.number
  isSome_iff : ∀ p, (g.stateAt? p).isSome ↔ ∃ s ∈ g.states, s.contains p
  first_made : ∀ p, g.stateAt? p = made.findSome? fun id => (g.state? id).filter (·.contains p)
  eq_some_iff : ∀ p s, g.stateAt? p = some s ↔ s ∈ g.states ∧ s.contains p ∧
    ∀ t ∈ g.states, t.contains p → s.id.number ≤ t.id.number
  steady : ∀ p s, g.stateAt? p = some s → ∀ ts, Undisturbed s.id supply g ts →
    ∃ t, (course supply g ts).2.stateAt? p = some t ∧ t.id = s.id

variable {supply : Supply} {g : Graph} {made : List StateId} {p : Point} {s : State}

/-! ### The order of making -/

namespace Chronicle

theorem wellFormed (h : Chronicle supply g made) : WellFormed supply g := by
  induction h with
  | named supply name => exact wellFormed_named supply name
  | placed _ s hid ih => exact ih.insertState s hid
  | changed _ hstroke _ ih => exact hstroke.wellFormed ih

/-- Numbers are given out in order, and a state that is still there was once made. -/
theorem spec (h : Chronicle supply g made) :
    (made.Pairwise fun i j => i.number < j.number) ∧ (∀ id ∈ made, id.number < supply.states) ∧
      ∀ s ∈ g.states, s.id ∈ made := by
  induction h with
  | named supply name => exact ⟨.nil, nofun, nofun⟩
  | @placed supply g made _ s hid ih =>
    obtain ⟨hincreasing, hgiven, hmem⟩ := ih
    refine ⟨List.pairwise_append.mpr ⟨hincreasing, List.pairwise_singleton .., ?_⟩, ?_, ?_⟩
    · intro i hi j hj
      rw [List.mem_singleton.mp hj, hid]
      exact hgiven i hi
    · intro i hi
      rcases List.mem_append.mp hi with hi | hi
      · exact Nat.lt_succ_of_lt (hgiven i hi)
      · rw [List.mem_singleton.mp hi, hid]
        exact Nat.lt_succ_self _
    · intro t ht
      rcases List.mem_append.mp ht with ht | ht
      · exact List.mem_append_left _ (hmem t ht)
      · rw [List.mem_singleton.mp ht]
        exact List.mem_append_right _ (List.mem_singleton_self _)
  | changed _ hstroke hold ih =>
    obtain ⟨hincreasing, hgiven, hmem⟩ := ih
    refine ⟨hincreasing, fun i hi => Nat.lt_of_lt_of_le (hgiven i hi) hstroke.supply_le.1, ?_⟩
    intro s hs
    obtain ⟨t, ht, hid⟩ := hasState_iff.mp (hold s hs)
    exact hid ▸ hmem t ht

/-- The states of a graph are those on record that are still there. -/
theorem states_eq (h : Chronicle supply g made) : g.states = made.filterMap g.state? := by
  obtain ⟨hincreasing, -, hmem⟩ := h.spec
  have hwf := h.wellFormed
  have hid {id : StateId} {s : State} (hs : g.state? id = some s) : s.id = id :=
    (hwf.state?_eq_some_iff.mp hs).2
  have hfound : (made.filterMap g.state?).Pairwise fun s t => s.id.number < t.id.number := by
    rw [List.pairwise_filterMap]
    refine hincreasing.imp fun {i j} hlt s hs t ht => ?_
    rwa [hid hs, hid ht]
  have hirrefl : Std.Irrefl fun s t : State => s.id.number < t.id.number :=
    ⟨fun _ => Nat.lt_irrefl _⟩
  have hantisymm : Std.Antisymm fun s t : State => s.id.number < t.id.number :=
    ⟨fun _ _ hlt hgt => absurd hgt (Nat.lt_asymm hlt)⟩
  refine hwf.states_increasing.eq_of_mem_iff hfound fun s => ?_
  rw [List.mem_filterMap]
  constructor
  · exact fun hs => ⟨s.id, hmem s hs, hwf.state?_eq_some_iff.mpr ⟨hs, rfl⟩⟩
  · rintro ⟨id, -, hs⟩
    exact (hwf.state?_eq_some_iff.mp hs).1

end Chronicle

/-- Every graph that is made has a record of its states. -/
theorem Strokes.exists_chronicle {start : Supply} {name : String}
    (h : Strokes (start, named name) (supply, g)) : ∃ made, Chronicle supply g made := by
  generalize hlast : (supply, g) = last at h
  induction h generalizing supply g with
  | refl =>
    cases hlast
    exact ⟨[], .named ..⟩
  | @tail middle last _ hstroke ih =>
    obtain ⟨before, k⟩ := middle
    obtain ⟨made, hmade⟩ := ih rfl
    subst hlast
    cases hstroke with
    | place s hid => exact ⟨made ++ [s.id], hmade.placed s hid⟩
    | wait hle => exact ⟨made, hmade.changed (.wait hle) fun _ => hasState_of_mem⟩
    | rename name => exact ⟨made, hmade.changed (.rename name) fun _ => hasState_of_mem⟩
    | join source target symbol hsource htarget =>
      exact ⟨made, hmade.changed (.join source target symbol hsource htarget)
        fun _ => hasState_of_mem⟩
    | redraw f hf =>
      refine ⟨made, hmade.changed (.redraw f hf) fun s hs => ?_⟩
      obtain ⟨t, ht, rfl⟩ := List.mem_map.mp hs
      exact hf t ▸ hasState_of_mem ht
    | dropState id =>
      exact ⟨made, hmade.changed (.dropState id) fun _ hs =>
        hasState_of_mem (List.mem_filter.mp hs).1⟩
    | dropTransition id =>
      exact ⟨made, hmade.changed (.dropTransition id) fun _ => hasState_of_mem⟩

/-! ### The state at a point -/

theorem WellFormed.stateAt?_eq_some_iff (hwf : WellFormed supply g) :
    g.stateAt? p = some s ↔ s ∈ g.states ∧ s.contains p ∧
      ∀ t ∈ g.states, t.contains p → s.id.number ≤ t.id.number := by
  rw [stateAt?, List.find?_eq_some_iff_append]
  constructor
  · rintro ⟨hs, before, after, hstates, hbefore⟩
    have hincreasing := hwf.states_increasing
    rw [hstates] at hincreasing ⊢
    refine ⟨List.mem_append_right _ (List.mem_cons_self ..), hs, fun t ht hcontains => ?_⟩
    rcases List.mem_append.mp ht with ht | ht
    · have hnot := hbefore t ht
      rw [hcontains] at hnot
      cases hnot
    · rcases List.mem_cons.mp ht with rfl | ht
      · exact Nat.le_refl _
      · exact Nat.le_of_lt ((List.pairwise_cons.mp
          (List.pairwise_append.mp hincreasing).2.1).1 t ht)
  · rintro ⟨hmem, hs, hleast⟩
    obtain ⟨before, after, hstates⟩ := List.append_of_mem hmem
    refine ⟨hs, before, after, hstates, fun t ht => ?_⟩
    have hincreasing := hwf.states_increasing
    rw [hstates] at hincreasing hleast
    have hlt := (List.pairwise_append.mp hincreasing).2.2 t ht s (List.mem_cons_self ..)
    rw [Bool.not_eq_true', Bool.eq_false_iff]
    exact fun hcontains => Nat.not_le.mpr hlt (hleast t (List.mem_append_left _ ht) hcontains)

/-- A change that moves no state and does not take away the one at a point leaves it there. -/
theorem WellFormed.stateAt?_edit (hwf : WellFormed supply g) (hat : g.stateAt? p = some s)
    {e : Edit} (hstays : ¬g.Drops e s.id) (hplaces : e.KeepsPlaces g) :
    ∃ t, (g.edit supply e).graph.stateAt? p = some t ∧ t.id = s.id := by
  cases hnew : e.places with
  | true =>
    obtain ⟨q, -, hstates⟩ := states_edit_of_places hnew g supply
    refine ⟨s, ?_, rfl⟩
    rw [stateAt?, hstates, List.find?_append]
    exact congrArg (Option.or · _) hat
  | false =>
    obtain ⟨keep, f, hstates, hkept⟩ := states_edit_of_not_places (e := e) hwf hnew
    have hcontains (t : State) (ht : t ∈ g.states) : (f t).contains p = t.contains p :=
      State.contains_of_position_eq ((hkept t ht).2.2 hplaces) p
    obtain ⟨hs, before, after, hall, hbefore⟩ := List.find?_eq_some_iff_append.mp hat
    have hmem : s ∈ g.states := List.mem_of_find?_eq_some hat
    have hfound : (g.states.filter keep).find? ((·.contains p) ∘ f) = some s := by
      rw [List.find?_filter, List.find?_eq_some_iff_append]
      refine ⟨?_, before, after, hall, fun t ht => ?_⟩
      · rw [decide_eq_true_eq, Function.comp_apply, hcontains s hmem]
        exact ⟨(hkept s hmem).1.mpr hstays, hs⟩
      · have ht' : t ∈ g.states := hall ▸ List.mem_append_left _ ht
        have hnot := hbefore t ht
        rw [Bool.not_eq_true'] at hnot
        rw [Bool.not_eq_true', decide_eq_false_iff_not, Function.comp_apply, hcontains t ht', hnot]
        exact fun hboth => Bool.false_ne_true hboth.2
    refine ⟨f s, ?_, congrArg StateRef.id (hkept s hmem).2.1⟩
    rw [stateAt?, hstates, List.find?_map, hfound, Option.map_some]

/-- So do the changes of a course, one after the other. -/
theorem WellFormed.stateAt?_course (hwf : WellFormed supply g) (hat : g.stateAt? p = some s)
    {ts : List Turn} (hcourse : Undisturbed s.id supply g ts) :
    ∃ t, (course supply g ts).2.stateAt? p = some t ∧ t.id = s.id := by
  induction ts generalizing supply g s with
  | nil => exact ⟨s, hat, rfl⟩
  | cons turn ts ih =>
    cases turn with
    | change e =>
      obtain ⟨hstays, hplaces, hrest⟩ := hcourse
      obtain ⟨t, ht, hid⟩ := hwf.stateAt?_edit hat hstays hplaces
      rw [← hid] at hrest
      obtain ⟨u, hu, hid'⟩ := ih ((strokes_edit g supply e).wellFormed hwf) ht hrest
      exact ⟨u, hu, hid'.trans hid⟩
    | elsewhere states transitions =>
      exact ih (hwf.wait (supply.le_taken states transitions)) hat hcourse

/-! ### Main statement -/

theorem WellFormed.hitsOldest (hwf : WellFormed supply g) (h : Chronicle supply g made) :
    HitsOldest supply g made where
  made_increasing := h.spec.1
  isSome_iff p := by
    rw [stateAt?, List.find?_isSome]
  first_made p := by
    rw [stateAt?, ← List.head?_filter, h.states_eq, List.filter_filterMap, List.head?_filterMap]
  eq_some_iff p s := hwf.stateAt?_eq_some_iff
  steady p s hat ts hcourse := hwf.stateAt?_course hat hcourse

/-- In every graph that can be made, the state made first is hit, whatever arena the graph is in. -/
theorem hits_oldest (hmade : Made supply g) :
    (∃ made, Chronicle supply g made) ∧
      (∀ made, Chronicle supply g made → HitsOldest supply g made) ∧
      ∀ A : Arena State Transition, A.Lawful →
        (∃ a : Housed A, Housed.Shadows A supply g a) ∧
          ∀ a : Housed A, Housed.Shadows A supply g a → ∀ p, a.stateAt? p = g.stateAt? p := by
  have hwf := hmade.wellFormed
  obtain ⟨start, name, hrow⟩ := hmade.strokes
  refine ⟨hrow.exists_chronicle, fun made h => hwf.hitsOldest h, fun A hA => ⟨?_, ?_⟩⟩
  · exact Housed.exists_shadow hA hwf
  · exact fun a h p => (h.keeps hA).stateAt?_eq hA hwf p

/-- Edits by which a slot becomes free and is given to a younger state, which overlaps an older
one. -/
def overlap : List Edit :=
  [.addState ⟨0, 0⟩, .addState ⟨100, 100⟩, .addState ⟨300, 300⟩, .removeState ⟨0⟩,
    .addLabeledState "late" ⟨110, 100⟩]

def overlapped : Supply × Graph := editAll .initial .unnamed overlap

def overlappedHouse : Housed (shelves State Transition) :=
  (Housed.editAll .initial (.named "Automate") overlap).2

/-- Changes that leave the older state alone. -/
def bustle : List Turn :=
  [.change (.updateState ⟨3⟩ ⟨110, 100⟩ (some true) none), .elsewhere 2 1,
    .change (.addTransition ⟨1⟩ ⟨1⟩ "a"), .change (.addState ⟨104, 100⟩),
    .change (.removeState ⟨3⟩), .change .clean]

theorem made_overlapped : Made overlapped.1 overlapped.2 := (Made.named ..).editedAll overlap

theorem shadows_overlapped :
    Housed.Shadows (shelves State Transition) overlapped.1 overlapped.2 overlappedHouse :=
  (Housed.Shadows.named ..).editedAll (lawful_shelves ..) overlap

theorem undisturbed_bustle : Undisturbed ⟨1⟩ overlapped.1 overlapped.2 bustle := by
  refine ⟨nofun, ?_, nofun, trivial, nofun, trivial, nofun, trivial, ?_, trivial, trivial⟩
  · intro s hs hid
    have hplaces : overlapped.2.states.map (fun s => (s.id, s.position)) =
        [(⟨1⟩, ⟨100, 100⟩), (⟨2⟩, ⟨300, 300⟩), (⟨3⟩, ⟨110, 100⟩)] := rfl
    have hmem := List.mem_map_of_mem (f := fun s => (s.id, s.position)) hs
    rw [hplaces, hid] at hmem
    simpa [eq_comm] using hmem
  · exact not_drops_clean (t := ⟨⟨1⟩, ⟨1⟩, ⟨1⟩, "a"⟩) (by decide)

/-- The younger state is in the first slot, but the older one is hit, and stays so. -/
theorem hits_oldest_overlapped :
    Made overlapped.1 overlapped.2 ∧
      overlappedHouse.states.map (·.id) = [⟨3⟩, ⟨1⟩, ⟨2⟩] ∧
      (∃ s, overlappedHouse.stateAt? ⟨105, 100⟩ = some s ∧ s.id = ⟨1⟩) ∧
      ∃ s, (course overlapped.1 overlapped.2 bustle).2.stateAt? ⟨105, 100⟩ = some s ∧
        s.id = ⟨1⟩ := by
  obtain ⟨⟨made, hmade⟩, hhits, hhoused⟩ := hits_oldest made_overlapped
  obtain ⟨s, hs, hid⟩ : ∃ s, overlapped.2.stateAt? ⟨105, 100⟩ = some s ∧ s.id = ⟨1⟩ := by
    rw [← Option.map_eq_some_iff]
    decide +kernel
  have hsame := (hhoused _ (lawful_shelves ..)).2 _ shadows_overlapped ⟨105, 100⟩
  obtain ⟨t, ht, hid'⟩ := (hhits made hmade).steady _ s hs bustle (hid ▸ undisturbed_bustle)
  exact ⟨made_overlapped, by decide, ⟨s, hsame.trans hs, hid⟩, t, ht, hid'.trans hid⟩

end Graph
end FiniteAutomata
