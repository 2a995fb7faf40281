import FiniteAutomata.Graph.Basic

/-!
What the views of a graph show, said by membership. A state is listed exactly when it is in the
graph, a set of symbols holds what some transition reads, and where no number is carried twice a
look-up finds exactly what carries the number.
-/
namespace FiniteAutomata.Graph

attribute [ext] Graph

/-- Where no key occurs twice, the element found for a key is the only one that has it. -/
theorem find?_key_eq_some_iff {α κ : Type} [DecidableEq κ] {key : α → κ} {as : List α}
    (h : (as.map key).Nodup) (k : κ) (a : α) :
    as.find? (key · = k) = some a ↔ a ∈ as ∧ key a = k := by
  constructor
  · intro hfind
    exact ⟨List.mem_of_find?_eq_some hfind, by simpa using List.find?_some hfind⟩
  · rintro ⟨ha, rfl⟩
    induction as with
    | nil => exact absurd ha List.not_mem_nil
    | cons b bs ih =>
      rw [List.map_cons, List.nodup_cons] at h
      rcases List.mem_cons.mp ha with rfl | hbs
      · simp
      · have hne : key b ≠ key a := by
          intro heq
          exact h.1 (heq ▸ List.mem_map_of_mem hbs)
        rw [List.find?_cons_of_neg (by simpa using hne)]
        exact ih h.2 hbs

/-- A list without repetition is known to have one member by what is in it. -/
theorem eq_singleton_iff_of_nodup {α : Type} {as : List α} (h : as.Nodup) {a : α} :
    as = [a] ↔ ∀ b, b ∈ as ↔ b = a := by
  rw [← List.perm_singleton, List.perm_ext_iff_of_nodup h (List.pairwise_singleton ..)]
  simp only [List.mem_singleton]

/-- Where no key occurs twice, the value looked up for a key is the only one that it has. -/
theorem lookup_eq_some_iff_mem {κ α : Type} [BEq κ] [LawfulBEq κ] {entries : List (κ × α)}
    (h : (entries.map (·.1)).Nodup) (k : κ) (a : α) :
    entries.lookup k = some a ↔ (k, a) ∈ entries := by
  induction entries with
  | nil => exact ⟨nofun, nofun⟩
  | cons entry entries ih =>
    obtain ⟨k', a'⟩ := entry
    rw [List.map_cons, List.nodup_cons] at h
    rw [List.lookup_cons, List.mem_cons]
    by_cases hk : k = k'
    · subst hk
      have hrest : (k, a) ∉ entries := fun hmem => h.1 (List.mem_map.mpr ⟨(k, a), hmem, rfl⟩)
      simp [hrest, eq_comm]
    · simp [hk, beq_false_of_ne hk, ih h.2]

theorem lookup_map_snd {κ α β : Type} [BEq κ] (f : α → β) (entries : List (κ × α)) (k : κ) :
    (entries.map fun entry => (entry.1, f entry.2)).lookup k = (entries.lookup k).map f := by
  induction entries with
  | nil => rfl
  | cons entry entries ih =>
    rw [List.map_cons, List.lookup_cons, List.lookup_cons]
    cases k == entry.1 with
    | true => rfl
    | false => exact ih

theorem hasState_iff {g : Graph} {id : StateId} :
    g.hasState id ↔ ∃ s ∈ g.states, s.id = id := by
  simp only [hasState, List.any_eq_true, decide_eq_true_eq]

theorem hasState_of_mem {g : Graph} {s : State} (hs : s ∈ g.states) : g.hasState s.id :=
  hasState_iff.mpr ⟨s, hs, rfl⟩

theorem hasState_insertState {g : Graph} {id : StateId} (s : State) (h : g.hasState id) :
    (g.insertState s).hasState id := by
  obtain ⟨t, ht, hid⟩ := hasState_iff.mp h
  exact hasState_iff.mpr ⟨t, List.mem_append_left _ ht, hid⟩

/-- A state outlives the removal of another one. -/
theorem hasState_withoutState {g : Graph} {id removed : StateId} (h : g.hasState id)
    (hne : id ≠ removed) : (g.withoutState removed).hasState id := by
  obtain ⟨t, ht, rfl⟩ := hasState_iff.mp h
  exact hasState_iff.mpr ⟨t, List.mem_filter.mpr ⟨ht, by simpa using hne⟩, rfl⟩

theorem hasState_map_states {g : Graph} {id : StateId} {f : State → State}
    (hf : ∀ s, (f s).id = s.id) (h : g.hasState id) :
    ({ g with states := g.states.map f } : Graph).hasState id := by
  obtain ⟨t, ht, rfl⟩ := hasState_iff.mp h
  exact hasState_iff.mpr ⟨f t, List.mem_map_of_mem ht, hf t⟩

theorem listedStates_perm (g : Graph) : g.listedStates.Perm g.states := List.mergeSort_perm ..

theorem listedStates_pairwise (g : Graph) :
    g.listedStates.Pairwise fun s t => s.precedes t := by
  have htrans (s t u : State) : s.precedes t → t.precedes u → s.precedes u :=
    State.precedes_trans
  exact List.pairwise_mergeSort htrans State.precedes_total g.states

@[simp]
theorem mem_listedStates {g : Graph} {s : State} : s ∈ g.listedStates ↔ s ∈ g.states :=
  g.listedStates_perm.mem_iff

@[simp]
theorem mem_initialStates {g : Graph} {s : State} :
    s ∈ g.initialStates ↔ s ∈ g.states ∧ s.initial := by
  simp only [initialStates, List.mem_filter, mem_listedStates]

theorem length_filter_listedStates (g : Graph) (p : State → Bool) :
    (g.listedStates.filter p).length = g.states.countP p := by
  rw [← List.countP_eq_length_filter, g.listedStates_perm.countP_eq]

/-- The initial states are listed in another order than they were made in. -/
theorem initialStates_perm (g : Graph) : g.initialStates.Perm (g.states.filter (·.initial)) :=
  g.listedStates_perm.filter _

@[simp]
theorem mem_acceptingStates {g : Graph} {s : State} :
    s ∈ g.acceptingStates ↔ s ∈ g.states ∧ s.accepting := by
  simp only [acceptingStates, List.mem_filter, mem_listedStates]

@[simp]
theorem mem_outgoing {g : Graph} {t : Transition} {id : StateId} :
    t ∈ g.outgoing id ↔ t ∈ g.transitions ∧ t.source = id := by
  simp only [outgoing, List.mem_filter, decide_eq_true_eq]

/-- The state that a look-up gives is in the graph and carries the number looked up. -/
theorem mem_of_state?_eq_some {g : Graph} {id : StateId} {s : State}
    (h : g.state? id = some s) : s ∈ g.states ∧ s.id = id :=
  ⟨List.mem_of_find?_eq_some h, by simpa using List.find?_some h⟩

/-- Removing a state leaves the transitions that do not touch it. -/
theorem mem_transitions_withoutState {g : Graph} {id : StateId} {t : Transition} :
    t ∈ (g.withoutState id).transitions ↔
      t ∈ g.transitions ∧ t.source ≠ id ∧ t.target ≠ id := by
  simp [withoutState, Transition.touches]

theorem isEpsilon_iff {symbol : String} :
    isEpsilon symbol ↔ symbol = "" ∨ symbol = "ε" ∨ symbol = "epsilon" := by
  simp only [isEpsilon, Bool.or_eq_true, decide_eq_true_eq, or_assoc]
  exact Iff.rfl

theorem isSilent_eq_false_iff {t : Transition} :
    t.isSilent = false ↔ t.symbol ≠ "" ∧ t.symbol ≠ "ε" ∧ t.symbol ≠ "epsilon" := by
  rw [← Bool.not_eq_true, Transition.isSilent, isEpsilon_iff, not_or, not_or]

theorem mem_symbolsOf {symbol : String} {ts : List Transition} :
    symbol ∈ symbolsOf ts ↔ ∃ t ∈ ts, t.isSilent = false ∧ t.symbol = symbol := by
  simp only [symbolsOf, OrderedSet.mem_ofList, List.mem_map, List.mem_filter, Bool.not_eq_true',
    and_assoc]

/-- The order of transitions does not matter for their symbols. -/
theorem symbolsOf_eq_of_perm {ts us : List Transition} (h : ts.Perm us) :
    symbolsOf ts = symbolsOf us := by
  apply OrderedSet.ext
  intro symbol
  simp only [mem_symbolsOf, h.mem_iff]

/-- One more transition adds its symbol, unless it reads nothing. -/
theorem symbolsOf_concat (ts : List Transition) (t : Transition) :
    symbolsOf (ts ++ [t]) =
      if t.isSilent then symbolsOf ts else (symbolsOf ts).insert t.symbol := by
  apply OrderedSet.ext
  intro symbol
  have hsplit : symbol ∈ symbolsOf (ts ++ [t]) ↔
      symbol ∈ symbolsOf ts ∨ (t.isSilent = false ∧ t.symbol = symbol) := by
    simp only [mem_symbolsOf, List.mem_append, List.mem_singleton, or_and_right, exists_or,
      exists_eq_left]
  rw [hsplit]
  by_cases ht : t.isSilent
  · simp [ht]
  · rw [if_neg ht, OrderedSet.mem_insert]
    constructor
    · rintro (h | ⟨-, rfl⟩)
      · exact Or.inr h
      · exact Or.inl rfl
    · rintro (rfl | h)
      · exact Or.inr ⟨by simpa using ht, rfl⟩
      · exact Or.inl h

end FiniteAutomata.Graph
