import FiniteAutomata.Proofs.Document.Loading

/-!
What loading a snapshot comes to. A snapshot of which nothing is wrong (`Sound`) describes one graph
(`drawn`): its states and transitions get the next numbers in the order in which they are listed,
and everything else is as the snapshot has it. Anything else has a first flaw (`Flaw`), which is
told by a number of the snapshot's own. A loader that asks the graph for every change is never
refused one (`requestGraph_eq`), and a snapshot with other numbers in it loads as the same graph
(`Translates.toGraph_eq`).
-/
namespace FiniteAutomata

/-- An attempt that tells in another way what goes wrong. -/
def Attempt.mapError {ε ε' α : Type} (a : Attempt ε α) (f : ε → ε') : Attempt ε' α :=
  ⟨a.outcome.mapError f, a.supply⟩

namespace Snapshot

/-! ### The graph of a snapshot -/

/-- The numbers that a snapshot gives its states, in order. -/
def stateIds (s : Snapshot) : List StateId := s.states.map (·.id)

/-- The new number of a state: the states have the next numbers of the supply, in order. -/
def stateFor (s : Snapshot) (supply : Supply) (id : StateId) : StateId :=
  ⟨supply.states + s.stateIds.idxOf id⟩

/-- A number of a state, or of an end that should be one. -/
def Mentions (s : Snapshot) (id : StateId) : Prop :=
  id ∈ s.stateIds ∨ ∃ t ∈ s.transitions, t.source = id ∨ t.target = id

/-- The graph that a snapshot describes. -/
def drawn (s : Snapshot) (supply : Supply) : Graph :=
  let transitions := s.transitions.mapIdx fun k t =>
    ⟨⟨supply.transitions + k⟩, s.stateFor supply t.source, s.stateFor supply t.target, t.symbol⟩
  { name := s.name
    states := s.states.mapIdx fun k q => { q with id := ⟨supply.states + k⟩ }
    transitions
    alphabet := Graph.symbolsOf transitions }

/-- The supply behind a snapshot that has been drawn. -/
def spent (s : Snapshot) (supply : Supply) : Supply :=
  ⟨supply.states + s.states.length, supply.transitions + s.transitions.length⟩

/-- Both ends of a transition are among the states. -/
def Resolved (s : Snapshot) (t : Transition) : Prop := t.source ∈ s.stateIds ∧ t.target ∈ s.stateIds

instance (s : Snapshot) (t : Transition) : Decidable (s.Resolved t) :=
  inferInstanceAs (Decidable (_ ∧ _))

/-- Nothing is wrong with a snapshot: no two states have one number and every end is a state. -/
structure Sound (s : Snapshot) : Prop where
  distinct : s.stateIds.Nodup
  resolved : ∀ t ∈ s.transitions, s.Resolved t

/-- What is wrong with a snapshot: the first state with a number that was there before, or else the
first end of a transition that is no state, where the source comes before the target. -/
inductive Flaw (s : Snapshot) : Fault → Prop
  | duplicate {before after : List State} {q : State} (hstates : s.states = before ++ q :: after)
      (hbefore : (before.map (·.id)).Nodup) (hagain : q.id ∈ before.map (·.id)) :
      Flaw s (.duplicateState q.id)
  | source {before after : List Transition} {t : Transition} (hdistinct : s.stateIds.Nodup)
      (htransitions : s.transitions = before ++ t :: after) (hbefore : ∀ u ∈ before, s.Resolved u)
      (hsource : t.source ∉ s.stateIds) : Flaw s (.unknownEndpoint t.source)
  | target {before after : List Transition} {t : Transition} (hdistinct : s.stateIds.Nodup)
      (htransitions : s.transitions = before ++ t :: after) (hbefore : ∀ u ∈ before, s.Resolved u)
      (hsource : t.source ∈ s.stateIds) (htarget : t.target ∉ s.stateIds) :
      Flaw s (.unknownEndpoint t.target)

theorem sound_or_flaw (s : Snapshot) : s.Sound ∨ ∃ fault, s.Flaw fault := by
  rcases nodup_or_first (·.id) s.states with hdistinct | ⟨before, q, after, hstates, hbefore, hq⟩
  · rcases all_or_first s.Resolved s.transitions with hall | ⟨before, t, after, ht, hbefore, hnot⟩
    · exact .inl ⟨hdistinct, hall⟩
    · refine .inr ?_
      by_cases hsource : t.source ∈ s.stateIds
      · exact ⟨_, .target hdistinct ht hbefore hsource fun htarget => hnot ⟨hsource, htarget⟩⟩
      · exact ⟨_, .source hdistinct ht hbefore hsource⟩
  · exact .inr ⟨_, .duplicate hstates hbefore hq⟩

/-- A message that tells a number of the snapshot's own. -/
def Tells (s : Snapshot) (message : String) : Prop :=
  ∃ id, s.Mentions id ∧
    (message = "Snapshot error: duplicate state id " ++ id.text ∨
      message =
        "Invalid transition endpoint: state " ++ id.text ++ " is not part of this automaton")

theorem Flaw.tells {s : Snapshot} {fault : Fault} (h : s.Flaw fault) :
    s.Tells (Error.ofSnapshot fault).message := by
  cases h with
  | @duplicate before after q hstates _ _ =>
    have hmem : q ∈ s.states := by simp [hstates]
    exact ⟨q.id, .inl (List.mem_map_of_mem hmem), .inl rfl⟩
  | @source before after t _ htransitions _ _ =>
    have hmem : t ∈ s.transitions := by simp [htransitions]
    exact ⟨t.source, .inr ⟨t, hmem, .inl rfl⟩, .inr rfl⟩
  | @target before after t _ htransitions _ _ _ =>
    have hmem : t ∈ s.transitions := by simp [htransitions]
    exact ⟨t.target, .inr ⟨t, hmem, .inr rfl⟩, .inr rfl⟩

/-- States that are all numbered differently are numbered anew in their order. -/
theorem map_number {qs : List State} (hqs : (qs.map (·.id)).Nodup) (start : Nat) :
    qs.map (fun q => StateId.mk (start + (qs.map (·.id)).idxOf q.id)) =
      (List.range' start qs.length).map StateId.mk := by
  have hnumbers := map_idxOf hqs start StateId.mk
  rwa [List.map_map, List.length_map] at hnumbers

variable {s : Snapshot}

theorem map_stateFor (hdistinct : s.stateIds.Nodup) (supply : Supply) :
    s.states.map (s.stateFor supply ·.id) =
      (List.range' supply.states s.states.length).map StateId.mk :=
  map_number hdistinct supply.states

theorem map_renumbered_stateFor (hdistinct : s.stateIds.Nodup) (supply : Supply) :
    s.states.map (·.renumbered (s.stateFor supply)) = (s.drawn supply).states := by
  apply List.ext_getElem
  · simp [drawn]
  · intro k hk hk'
    have hlength : k < s.states.length := by simpa using hk
    have hnumber : s.stateFor supply s.states[k].id = ⟨supply.states + k⟩ := by
      simpa [hlength] using congrArg (·[k]?) (map_stateFor hdistinct supply)
    simp [drawn, State.renumbered, hnumber]

/-- Where no two states have one number, only a transition can be at fault, and those before it have
been made. -/
theorem toGraph_of_distinct (hdistinct : s.stateIds.Nodup) {before rest : List Transition}
    (htransitions : s.transitions = before ++ rest) (hbefore : ∀ t ∈ before, s.Resolved t)
    (supply : Supply) :
    ∃ (ids : Renumbering) (h : Graph),
      (∀ id, ids.lookup id = if id ∈ s.stateIds then some (s.stateFor supply id) else none) ∧
      h.name = s.name ∧ h.states = (s.drawn supply).states ∧
      (h.transitions = before.mapIdx fun k t => ⟨⟨supply.transitions + k⟩,
        s.stateFor supply t.source, s.stateFor supply t.target, t.symbol⟩) ∧
      s.toGraph supply =
        addTransitions ⟨supply.states + s.states.length, supply.transitions + before.length⟩ ids h
          rest := by
  rw [← map_renumbered_stateFor hdistinct]
  exact toGraph_append htransitions hdistinct (fun t ht => (hbefore t ht).1)
    (fun t ht => (hbefore t ht).2) (map_stateFor hdistinct supply)

/-- A snapshot of which nothing is wrong gives the graph that it describes. -/
theorem toGraph_of_sound (hs : s.Sound) (supply : Supply) :
    s.toGraph supply = ⟨.ok (s.drawn supply), s.spent supply⟩ := by
  obtain ⟨ids, h, -, hname, hstates, htransitions, hload⟩ :=
    toGraph_of_distinct hs.distinct (List.append_nil _).symm hs.resolved supply
  rw [addTransitions] at hload
  have hok : (s.toGraph supply).outcome = .ok h := by rw [hload]
  have halphabet := (Graph.Made.loaded s hok).wellFormed.alphabet_eq
  rw [htransitions] at halphabet
  rw [hload, Graph.ext hname hstates htransitions halphabet]
  rfl

/-- A snapshot gives the fault that it has. -/
theorem toGraph_of_flaw {fault : Fault} (h : s.Flaw fault) (supply : Supply) :
    (s.toGraph supply).outcome = .error fault := by
  cases h with
  | @duplicate before after q hstates hbefore hagain =>
    obtain ⟨ids, hlookup, hplaced⟩ :=
      addStates_distinct (fun id => ⟨supply.states + (before.map (·.id)).idxOf id⟩) supply hbefore
        (map_number hbefore supply.states) (q :: after) (.named s.name)
    rw [toGraph, hstates, hplaced, addStates, hlookup, if_pos hagain]
  | source hdistinct htransitions hbefore hsource =>
    obtain ⟨ids, h, hlookup, -, -, -, hload⟩ :=
      toGraph_of_distinct hdistinct htransitions hbefore supply
    rw [hload, addTransitions, hlookup, if_neg hsource]
  | target hdistinct htransitions hbefore hsource htarget =>
    obtain ⟨ids, h, hlookup, -, -, -, hload⟩ :=
      toGraph_of_distinct hdistinct htransitions hbefore supply
    rw [hload, addTransitions, hlookup, hlookup, if_pos hsource, if_neg htarget]

/-! ### Asking the graph -/

/-- Adds the states by changes that the graph may refuse. -/
def requestStates (supply : Supply) (ids : Renumbering) (g : Graph) :
    List State → Attempt Error (Renumbering × Graph)
  | [] => ⟨.ok (ids, g), supply⟩
  | q :: qs =>
    match ids.lookup q.id with
    | some _ => ⟨.error (.duplicateState q.id), supply⟩
    | none =>
      let added := g.addLabeledState supply q.label q.position
      match (Graph.setFlags supply.nextState q.initial q.accepting).run added.graph with
      | .error fault _ => ⟨.error (.ofGraph fault), added.supply⟩
      | .ok _ h => requestStates added.supply ((q.id, supply.nextState) :: ids) h qs

/-- Adds the transitions by changes that the graph may refuse. -/
def requestTransitions (supply : Supply) (ids : Renumbering) (g : Graph) :
    List Transition → Attempt Error Graph
  | [] => ⟨.ok g, supply⟩
  | t :: ts =>
    match ids.lookup t.source, ids.lookup t.target with
    | none, _ => ⟨.error (.unknownEndpoint t.source), supply⟩
    | some _, none => ⟨.error (.unknownEndpoint t.target), supply⟩
    | some source, some target =>
      match (Graph.addTransition source target t.symbol).run (supply, g) with
      | .error fault (later, _) => ⟨.error (.ofGraph fault), later⟩
      | .ok _ (later, h) => requestTransitions later ids h ts

/-- Builds the graph of a snapshot by changes that the graph may refuse. -/
def requestGraph (s : Snapshot) (supply : Supply) : Attempt Error Graph :=
  let added := requestStates supply [] (.named s.name) s.states
  match added.outcome with
  | .error e => ⟨.error e, added.supply⟩
  | .ok (ids, g) => requestTransitions added.supply ids g s.transitions

theorem requestStates_eq (qs : List State) {supply : Supply} (ids : Renumbering) {g : Graph}
    (hg : Graph.WellFormed supply g) :
    requestStates supply ids g qs = (addStates supply ids g qs).mapError .ofSnapshot := by
  induction qs generalizing supply g ids with
  | nil => rfl
  | cons q qs ih =>
    rw [requestStates, addStates]
    cases ids.lookup q.id with
    | some _ => rfl
    | none =>
      have hflags := hg.setFlags_insertState q.label q.position q.initial q.accepting
      simp only [Graph.addLabeledState, hflags]
      exact ih _ (hg.insertState { q with id := supply.nextState } rfl)

theorem requestTransitions_eq (ts : List Transition) (supply : Supply) {ids : Renumbering}
    {g : Graph} (hids : Graph.Known ids g) :
    requestTransitions supply ids g ts = (addTransitions supply ids g ts).mapError .ofSnapshot := by
  induction ts generalizing supply g with
  | nil => rfl
  | cons t ts ih =>
    rw [requestTransitions, addTransitions]
    cases hsource : ids.lookup t.source with
    | none => rfl
    | some source =>
      cases htarget : ids.lookup t.target with
      | none => rfl
      | some target =>
        have hends := And.intro (hids.hasState_of_lookup hsource) (hids.hasState_of_lookup htarget)
        simp only [Graph.run_addTransition hends.1 hends.2]
        exact ih _ hids

/-- No change that a snapshot asks for is refused. -/
theorem requestGraph_eq (s : Snapshot) (supply : Supply) :
    s.requestGraph supply = (s.toGraph supply).mapError .ofSnapshot := by
  have hstates := requestStates_eq s.states [] (Graph.wellFormed_named supply s.name)
  obtain ⟨h, -, hok⟩ :=
    Graph.draws_snapshotStates s.states supply (Graph.known_nil (.named s.name))
  simp only [requestGraph, toGraph, hstates, Attempt.mapError]
  cases hadded : (addStates supply [] (.named s.name) s.states).outcome with
  | error fault => rfl
  | ok added =>
    obtain ⟨ids, g⟩ := added
    obtain ⟨rfl, hknown⟩ := hok _ hadded
    exact requestTransitions_eq s.transitions _ hknown

/-! ### Other numbers -/

/-- The same fault of a snapshot with other numbers. -/
def Fault.translated (ρ : StateId → StateId) : Fault → Fault
  | .duplicateState id => .duplicateState (ρ id)
  | .unknownEndpoint id => .unknownEndpoint (ρ id)

/-- The same move with other numbers for its ends and any number for itself. -/
structure Carries (ρ : StateId → StateId) (t u : Transition) : Prop where
  source_eq : u.source = ρ t.source
  target_eq : u.target = ρ t.target
  symbol_eq : u.symbol = t.symbol

/-- `s'` says what `s` says with other numbers for the states. Its transitions may have any numbers,
and its alphabet may be any. -/
structure Translates (ρ : StateId → StateId) (s s' : Snapshot) : Prop where
  injective : Set.InjOn ρ {id | s.Mentions id}
  name_eq : s'.name = s.name
  states_eq : s'.states = s.states.map (·.renumbered ρ)
  transitions : List.Forall₂ (Carries ρ) s.transitions s'.transitions

section Translation

variable {ρ : StateId → StateId} {known : Set StateId} {ids ids' : Renumbering}

/-- What is found under the old numbers is found under the other ones. -/
def Finds (ρ : StateId → StateId) (known : Set StateId) (ids ids' : Renumbering) : Prop :=
  ∀ id ∈ known, ids'.lookup (ρ id) = ids.lookup id

theorem Finds.cons (h : Finds ρ known ids ids') (hρ : Set.InjOn ρ known) {id : StateId}
    (hid : id ∈ known) (number : StateId) :
    Finds ρ known ((id, number) :: ids) ((ρ id, number) :: ids') := by
  intro other hother
  by_cases heq : other = id
  · simp [heq]
  · have hne : ρ other ≠ ρ id := fun hρeq => heq (hρ hother hid hρeq)
    rw [List.lookup_cons, List.lookup_cons, beq_false_of_ne heq, beq_false_of_ne hne]
    exact h other hother

/-- States with other numbers are placed alike, or fail alike. -/
theorem addStates_translated (hρ : Set.InjOn ρ known) (qs : List State)
    (hqs : ∀ q ∈ qs, q.id ∈ known) (supply : Supply) (g : Graph) (hids : Finds ρ known ids ids') :
    (∃ fault later, addStates supply ids g qs = ⟨.error fault, later⟩ ∧
      addStates supply ids' g (qs.map (·.renumbered ρ)) = ⟨.error (fault.translated ρ), later⟩) ∨
    ∃ found found' h later, Finds ρ known found found' ∧
      addStates supply ids g qs = ⟨.ok (found, h), later⟩ ∧
      addStates supply ids' g (qs.map (·.renumbered ρ)) = ⟨.ok (found', h), later⟩ := by
  induction qs generalizing supply g ids ids' with
  | nil => exact .inr ⟨ids, ids', g, supply, hids, rfl, rfl⟩
  | cons q qs ih =>
    obtain ⟨hq, hqs⟩ := List.forall_mem_cons.mp hqs
    have hlookup : ids'.lookup (q.renumbered ρ).id = ids.lookup q.id := hids q.id hq
    rw [List.map_cons, addStates, addStates, hlookup]
    cases ids.lookup q.id with
    | some _ => exact .inl ⟨_, supply, rfl, rfl⟩
    | none => exact ih hqs _ _ (hids.cons hρ hq supply.nextState)

/-- Transitions with other numbers are made alike, or fail alike. -/
theorem addTransitions_translated {ts ts' : List Transition}
    (hcarries : List.Forall₂ (Carries ρ) ts ts')
    (hends : ∀ t ∈ ts, t.source ∈ known ∧ t.target ∈ known) (supply : Supply) (g : Graph)
    (hids : Finds ρ known ids ids') :
    addTransitions supply ids' g ts' =
      (addTransitions supply ids g ts).mapError (·.translated ρ) := by
  induction hcarries generalizing supply g with
  | nil => rfl
  | @cons t u ts ts' htu _ ih =>
    obtain ⟨⟨hsource, htarget⟩, hends⟩ := List.forall_mem_cons.mp hends
    rw [addTransitions, addTransitions, htu.source_eq, htu.target_eq, htu.symbol_eq,
      hids _ hsource, hids _ htarget]
    cases ids.lookup t.source with
    | none => rfl
    | some source =>
      cases ids.lookup t.target with
      | none => rfl
      | some target => exact ih hends _ _

end Translation

/-- The numbers in a snapshot only say what is joined to what: other numbers give the same graph,
and what goes wrong is told by the other numbers. -/
theorem Translates.toGraph_eq {ρ : StateId → StateId} {s' : Snapshot} (h : Translates ρ s s')
    (supply : Supply) :
    s'.toGraph supply = (s.toGraph supply).mapError (·.translated ρ) := by
  have hstates : ∀ q ∈ s.states, q.id ∈ {id | s.Mentions id} :=
    fun q hq => .inl (List.mem_map_of_mem hq)
  have hends : ∀ t ∈ s.transitions, t.source ∈ {id | s.Mentions id} ∧
      t.target ∈ {id | s.Mentions id} :=
    fun t ht => ⟨.inr ⟨t, ht, .inl rfl⟩, .inr ⟨t, ht, .inr rfl⟩⟩
  have hnone : Finds ρ {id | s.Mentions id} [] [] := fun _ _ => rfl
  rw [toGraph, toGraph, h.name_eq, h.states_eq]
  rcases addStates_translated h.injective s.states hstates supply (.named s.name) hnone with
    ⟨fault, later, hfails, hfails'⟩ | ⟨ids, ids', g, later, hids, hplaced, hplaced'⟩
  · rw [hfails, hfails']
    rfl
  · rw [hplaced, hplaced']
    exact addTransitions_translated h.transitions hends later g hids

/-! ### Snapshots -/

/-- A snapshot is loaded exactly if nothing is wrong with it, and then as the graph that it
describes. Otherwise the error is that of its first flaw, and tells a number of the snapshot's own.
The graph is never asked for a change that it refuses. Other numbers in a snapshot change no graph,
only the number that an error tells. -/
theorem load_snapshot (s : Snapshot) (supply : Supply) :
    s.requestGraph supply = (s.toGraph supply).mapError .ofSnapshot ∧
      (∀ g, (s.toGraph supply).outcome = .ok g ↔ s.Sound ∧ g = s.drawn supply) ∧
      (∀ fault, (s.toGraph supply).outcome = .error fault ↔ s.Flaw fault) ∧
      (∀ fault, s.Flaw fault → s.Tells (Error.ofSnapshot fault).message) ∧
      ∀ ρ s', Translates ρ s s' →
        s'.toGraph supply = (s.toGraph supply).mapError (·.translated ρ) := by
  refine ⟨requestGraph_eq s supply, fun g => ⟨fun hload => ?_, ?_⟩,
    fun fault => ⟨fun hload => ?_, fun hflaw => toGraph_of_flaw hflaw supply⟩,
    fun _ hflaw => hflaw.tells, fun ρ s' h => h.toGraph_eq supply⟩
  · rcases s.sound_or_flaw with hsound | ⟨fault, hflaw⟩
    · rw [toGraph_of_sound hsound] at hload
      cases hload
      exact ⟨hsound, rfl⟩
    · rw [toGraph_of_flaw hflaw] at hload
      cases hload
  · rintro ⟨hsound, rfl⟩
    rw [toGraph_of_sound hsound]
  · rcases s.sound_or_flaw with hsound | ⟨fault', hflaw⟩
    · rw [toGraph_of_sound hsound] at hload
      cases hload
    · rw [toGraph_of_flaw hflaw] at hload
      cases hload
      exact hflaw

/-- Two states whose numbers are those that come next, but crosswise, and both are initial. The two
transitions have one number, and the alphabet is not that of the transitions. -/
def crossed : Snapshot :=
  { name := "crossed"
    states := [⟨⟨1⟩, "a", ⟨0, 0⟩, true, false⟩, ⟨⟨0⟩, "b", ⟨10, 0⟩, true, true⟩]
    transitions := [⟨⟨7⟩, ⟨1⟩, ⟨0⟩, "x"⟩, ⟨⟨7⟩, ⟨0⟩, ⟨0⟩, "ε"⟩]
    alphabet := ["z"] }

/-- The same with the numbers the other way round. -/
def uncrossed : Snapshot :=
  { name := "crossed"
    states := [⟨⟨0⟩, "a", ⟨0, 0⟩, true, false⟩, ⟨⟨1⟩, "b", ⟨10, 0⟩, true, true⟩]
    transitions := [⟨⟨2⟩, ⟨0⟩, ⟨1⟩, "x"⟩, ⟨⟨1⟩, ⟨1⟩, ⟨1⟩, "ε"⟩]
    alphabet := [] }

/-- A further transition, of which neither end is a state. -/
def dangling : Snapshot :=
  { crossed with transitions := crossed.transitions ++ [⟨⟨0⟩, ⟨2⟩, ⟨3⟩, "y"⟩] }

theorem translates_uncrossed : Translates (Equiv.swap ⟨0⟩ ⟨1⟩) crossed uncrossed where
  injective := (Equiv.swap ..).injective.injOn
  name_eq := rfl
  states_eq := rfl
  transitions := .cons ⟨rfl, rfl, rfl⟩ (.cons ⟨rfl, rfl, rfl⟩ .nil)

theorem load_snapshot_crossed :
    Translates (Equiv.swap ⟨0⟩ ⟨1⟩) crossed uncrossed ∧
      (crossed.toGraph .initial).outcome = .ok (crossed.drawn .initial) ∧
      (crossed.drawn .initial).transitions = [⟨⟨0⟩, ⟨0⟩, ⟨1⟩, "x"⟩, ⟨⟨1⟩, ⟨1⟩, ⟨1⟩, "ε"⟩] ∧
      (uncrossed.toGraph .initial).outcome = .ok (crossed.drawn .initial) ∧
      (dangling.requestGraph .initial).outcome = .error (.unknownEndpoint ⟨2⟩) := by
  obtain ⟨-, hok, -, -, htranslated⟩ := load_snapshot crossed .initial
  obtain ⟨hrequest, -, herror, -, -⟩ := load_snapshot dangling .initial
  have hload := (hok _).mpr ⟨⟨by decide, by decide⟩, rfl⟩
  have hflaw : dangling.Flaw (.unknownEndpoint ⟨2⟩) :=
    @Flaw.source dangling crossed.transitions [] ⟨⟨0⟩, ⟨2⟩, ⟨3⟩, "y"⟩ (by decide) rfl (by decide)
      (by decide)
  refine ⟨translates_uncrossed, hload, by decide, ?_, ?_⟩
  · rw [htranslated _ _ translates_uncrossed, Attempt.mapError, hload]
    rfl
  · rw [hrequest, Attempt.mapError, (herror _).mpr hflaw]
    rfl

end Snapshot

end FiniteAutomata
