import FiniteAutomata.Proofs.Renaming.Edit

/-!
What is seen of a graph under other numbers. Where states with equal labels are listed by their
numbers, order counts besides equality. If the numbers in the graph keep their order, then every
query answers as it did, with the numbers in question and answer changed alike (`seenAlike`).
-/
namespace FiniteAutomata

/-- Of the numbers in the list the greater goes to the greater. -/
def Rises (ρ : StateId → StateId) (ids : List StateId) : Prop :=
  ∀ i ∈ ids, ∀ j ∈ ids, i.number < j.number → (ρ i).number < (ρ j).number

variable {ρ : StateId → StateId} {τ : TransitionId → TransitionId}

theorem Rises.compare_eq {ids : List StateId} (hρ : Rises ρ ids) {i j : StateId} (hi : i ∈ ids)
    (hj : j ∈ ids) : compare (ρ i) (ρ j) = compare i j := by
  rcases Nat.lt_trichotomy i.number j.number with hlt | heq | hgt
  · have hij : compare i j = .lt := Nat.compare_eq_lt.mpr hlt
    rw [hij]
    exact Nat.compare_eq_lt.mpr (hρ i hi j hj hlt)
  · have hij : i = j := congrArg StateId.mk heq
    rw [hij, Std.ReflOrd.compare_self, Std.ReflOrd.compare_self]
  · have hij : compare i j = .gt := Nat.compare_eq_gt.mpr hgt
    rw [hij]
    exact Nat.compare_eq_gt.mpr (hρ j hj i hi hgt)

namespace Graph

variable {g : Graph}

/-- What any query finds in `h` is what it finds in `g`, with other numbers in question and
answer. -/
structure SeenAlike (ρ : StateId → StateId) (τ : TransitionId → TransitionId) (g h : Graph) : Prop
    extends Views ρ τ g h where
  transitions_eq : h.transitions = g.transitions.map (·.renumbered ρ τ)
  listed_eq : h.listedStates = g.listedStates.map (·.renumbered ρ)
  initial_eq : h.initialState? = g.initialState?.map (·.renumbered ρ)
  accepting_eq : h.acceptingStates = g.acceptingStates.map (·.renumbered ρ)
  hasState_eq : ∀ id, h.hasState (ρ id) = g.hasState id
  state?_eq : ∀ id, h.state? (ρ id) = (g.state? id).map (·.renumbered ρ)
  transition?_eq : ∀ id, h.transition? (τ id) = (g.transition? id).map (·.renumbered ρ τ)
  outgoing_eq : ∀ id, h.outgoing (ρ id) = (g.outgoing id).map (·.renumbered ρ τ)
  incoming_eq : ∀ id, h.incoming (ρ id) = (g.incoming id).map (·.renumbered ρ τ)
  stateAt?_eq : ∀ p, h.stateAt? p = (g.stateAt? p).map (·.renumbered ρ)
  destinations?_eq : ∀ id symbol, (h.table.destinations? (ρ id) symbol).map (·.toList) =
    (g.table.destinations? id symbol).map (·.toList.map (StateRef.moved ρ))

theorem listedStates_renumbered (hρ : Rises ρ g.stateIds) :
    (g.renumbered ρ τ).listedStates = g.listedStates.map (·.renumbered ρ) := by
  have hprecedes : ∀ s ∈ g.states, ∀ t ∈ g.states,
      s.precedes t = (s.renumbered ρ).precedes (t.renumbered ρ) := by
    intro s hs t ht
    have hids := hρ.compare_eq (List.mem_map_of_mem hs) (List.mem_map_of_mem ht)
    have horder : State.order (s.renumbered ρ) (t.renumbered ρ) =
        (compare s.label t.label).then (compare (ρ s.id) (ρ t.id)) := rfl
    rw [State.precedes, State.precedes, horder, hids]
    rfl
  exact (List.map_mergeSort hprecedes).symm

theorem renumbers_renumbered (hinj : Function.Injective ρ) (hinj' : Function.Injective τ)
    (hρ : Rises ρ g.stateIds) : Renumbers .initial ρ τ g (g.renumbered ρ τ) where
  name_eq := rfl
  listed_eq := listedStates_renumbered hρ
  transitions_eq := rfl
  alphabet_eq := rfl
  state_ids_bijOn := by
    have hkeys : (g.renumbered ρ τ).listedStates.map (·.id) =
        (g.listedStates.map (·.id)).map ρ := by
      rw [listedStates_renumbered hρ, List.map_map, List.map_map]
      rfl
    rw [hkeys]
    exact ⟨fun id hid => List.mem_map_of_mem hid, hinj.injOn, fun id hid => List.mem_map.mp hid⟩
  transition_ids_bijOn := by
    have hkeys : (g.renumbered ρ τ).transitions.map (·.id) = (g.transitions.map (·.id)).map τ := by
      rw [renumbered, List.map_map, List.map_map]
      rfl
    rw [hkeys]
    exact ⟨fun id hid => List.mem_map_of_mem hid, hinj'.injOn, fun id hid => List.mem_map.mp hid⟩
  state_ids_new _ _ := Nat.zero_le _
  transition_ids_new _ _ := Nat.zero_le _

/-- What is found in a list is found at the same place of a list that is related to it. -/
theorem rel_find? {α β : Type} {R : α → β → Prop} {as : List α} {bs : List β}
    (h : List.Forall₂ R as bs) {p : α → Bool} {q : β → Bool} (hpq : ∀ a b, R a b → q b = p a) :
    Option.Rel R (as.find? p) (bs.find? q) := by
  induction h with
  | nil => exact .none
  | @cons a b as bs hhead _ ih =>
    rw [List.find?_cons, List.find?_cons, hpq a b hhead]
    cases p a with
    | true => exact .some hhead
    | false => exact ih

theorem destinations?_of_mirrors {t t' : Table} (hinj : Function.Injective ρ)
    (hm : t.Mirrors ρ t') (id : StateId) (symbol : String) :
    (t'.destinations? (ρ id) symbol).map (·.toList) =
      (t.destinations? id symbol).map (·.toList.map (StateRef.moved ρ)) := by
  have hrow := rel_find? hm.rows (p := fun r => r.state.id = id) (q := fun r => r.state.id = ρ id)
    fun r r' hr => by simp [hr.state_eq, StateRef.moved, hinj.eq_iff]
  rw [Table.destinations?, Table.destinations?]
  generalize t.rows.find? (fun r => r.state.id = id) = found at hrow ⊢
  generalize t'.rows.find? (fun r => r.state.id = ρ id) = found' at hrow ⊢
  cases hrow with
  | none => rfl
  | @some r r' hr =>
    have hcells := congrArg (List.lookup symbol) hr.cells_eq
    have hleft := lookup_map_snd OrderedSet.toList r'.cells symbol
    have hright := lookup_map_snd (fun cell => cell.toList.map (StateRef.moved ρ)) r.cells symbol
    exact (hleft.symm.trans hcells).trans hright

/-- Numbers that rise on those of a graph change what is seen of it in nothing but themselves. -/
theorem seenAlike (hinj : Function.Injective ρ) (hinj' : Function.Injective τ)
    (hρ : Rises ρ g.stateIds) {supply later : Supply} (hg : WellFormed supply g)
    (hh : WellFormed later (g.renumbered ρ τ)) : SeenAlike ρ τ g (g.renumbered ρ τ) where
  toViews := (renumbers_renumbered hinj hinj' hρ).views hg hh
  transitions_eq := rfl
  listed_eq := listedStates_renumbered hρ
  initial_eq := by
    rw [initialState?, initialState?, initialStates, initialStates, listedStates_renumbered hρ,
      List.filter_map, List.head?_map]
    rfl
  accepting_eq := by
    rw [acceptingStates, acceptingStates, listedStates_renumbered hρ, List.filter_map]
    rfl
  hasState_eq := hasState_renumbered g hinj
  state?_eq := state?_renumbered g hinj
  transition?_eq := transition?_renumbered g hinj'
  outgoing_eq := outgoing_renumbered g hinj
  incoming_eq := incoming_renumbered g hinj
  stateAt?_eq := stateAt?_renumbered g
  destinations?_eq := by
    have hm := ((renumbers_renumbered hinj hinj' hρ).views hg hh).table_mirrors
    exact destinations?_of_mirrors hinj hm

end Graph

end FiniteAutomata
