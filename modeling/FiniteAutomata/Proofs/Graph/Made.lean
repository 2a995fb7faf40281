import FiniteAutomata.Document.Construction
import FiniteAutomata.Proofs.Graph.Refusal
import FiniteAutomata.Proofs.Graph.Stroke
import FiniteAutomata.Snapshot.Basic

/-!
The graphs that can come about (`Made`): named, described by a document or loaded from a snapshot,
and then edited any number of times, while other graphs draw on the same supply. Each of these ways
is a row of strokes on a graph without states, so every graph made is well formed.
-/
namespace FiniteAutomata

namespace Graph

/-- A graph that can be at hand when the supply has come so far. A copy of a graph is the same graph
kept a second time; what becomes of the one shows at the other only in the supply. -/
inductive Made : Supply → Graph → Prop
  | named (supply : Supply) (name : String) : Made supply (named name)
  | described {supply : Supply} {g : Graph} (d : Document)
      (h : (d.toGraph supply).outcome = .ok g) : Made (d.toGraph supply).supply g
  | loaded {supply : Supply} {g : Graph} (s : Snapshot)
      (h : (s.toGraph supply).outcome = .ok g) : Made (s.toGraph supply).supply g
  | edited {supply : Supply} {g : Graph} (h : Made supply g) (e : Edit) :
      Made (g.edit supply e).supply (g.edit supply e).graph
  | kept {supply later : Supply} {g : Graph} (h : Made supply g) (hle : supply ≤ later) :
      Made later g

/-- Edits in a row lead from a graph that is made to one that is made. -/
theorem Made.editedAll {supply : Supply} {g : Graph} (h : Made supply g) (es : List Edit) :
    Made (editAll supply g es).1 (editAll supply g es).2 := by
  induction es generalizing supply g with
  | nil => exact h
  | cons e es ih => exact ih (h.edited e)

/-! ### Edits -/

theorem strokes_addLabeledState (g : Graph) (supply : Supply) (label : String)
    (position : Point) :
    Strokes (supply, g) ((g.addLabeledState supply label position).supply,
      (g.addLabeledState supply label position).graph) :=
  .single (.place ⟨supply.nextState, label, position, false, false⟩ rfl)

theorem strokes_removeState (g : Graph) (supply : Supply) (id : StateId) :
    Strokes (supply, g) (supply, (g.removeState id).2) := by
  unfold removeState
  split
  · exact .single (.dropState id)
  · exact .refl

theorem strokes_removeTransition (g : Graph) (supply : Supply) (id : TransitionId) :
    Strokes (supply, g) (supply, (g.removeTransition id).2) := by
  unfold removeTransition
  split
  · exact .single (.dropTransition id)
  · exact .refl

theorem strokes_updateState (g : Graph) (supply : Supply) (id : StateId) (position : Point)
    (initial accepting : Option Bool) :
    Strokes (supply, g) ((g.edit supply (.updateState id position initial accepting)).supply,
      (g.edit supply (.updateState id position initial accepting)).graph) := by
  rcases g.refuses_or_found id position initial accepting with hrefuses | ⟨found, hfound⟩
  · rw [edit_of_refuses hrefuses]
  · obtain ⟨-, hid⟩ := mem_of_state?_eq_some hfound
    rw [edit_updateState_of_found hfound]
    refine .single (.redraw _ ?_)
    intro t
    by_cases ht : t.id = id
    · simp [ht, hid, State.redrawn]
    · by_cases hinitial : initial = some true <;> simp [ht, hinitial]

theorem strokes_addTransition (g : Graph) (supply : Supply) (source target : StateId)
    (symbol : String) :
    Strokes (supply, g) ((g.edit supply (.addTransition source target symbol)).supply,
      (g.edit supply (.addTransition source target symbol)).graph) := by
  rcases g.refuses_or_known source target symbol with ⟨fault, hrefuses⟩ | ⟨hsource, htarget⟩
  · rw [edit_of_refuses hrefuses]
  · rw [edit_addTransition_of_known hsource htarget]
    exact .single (.join source target symbol hsource htarget)

/-- Cleaning removes one stray state after the other. -/
theorem strokes_clean (g : Graph) (supply : Supply) : Strokes (supply, g) (supply, g.clean.2) := by
  have hrow : ∀ (ss : List State) (h : Graph),
      Strokes (supply, h) (supply, ss.foldl (fun h s => h.withoutState s.id) h) := by
    intro ss
    induction ss with
    | nil => exact fun _ => .refl
    | cons s ss ih => exact fun h => .head (.dropState s.id) (ih _)
  exact hrow g.strayStates g

theorem strokes_edit (g : Graph) (supply : Supply) (e : Edit) :
    Strokes (supply, g) ((g.edit supply e).supply, (g.edit supply e).graph) := by
  cases e with
  | addState position => exact strokes_addLabeledState g supply _ position
  | addLabeledState label position => exact strokes_addLabeledState g supply label position
  | removeState id => exact strokes_removeState g supply id
  | updateState id position initial accepting =>
    exact strokes_updateState g supply id position initial accepting
  | addTransition source target symbol => exact strokes_addTransition g supply source target symbol
  | removeTransition id => exact strokes_removeTransition g supply id
  | clean => exact strokes_clean g supply
  | rename name => exact .single (.rename name)

/-! ### Documents and snapshots -/

/-- Whatever a name stands for is a state of the graph. -/
def Known {κ : Type} (names : List (κ × StateId)) (g : Graph) : Prop :=
  ∀ p ∈ names, g.hasState p.2

section Known

variable {κ : Type} {names : List (κ × StateId)} {g : Graph}

theorem known_nil (g : Graph) : Known ([] : List (κ × StateId)) g :=
  fun _ hp => absurd hp List.not_mem_nil

theorem Known.insertState (h : Known names g) (k : κ) (s : State) :
    Known ((k, s.id) :: names) (g.insertState s) := by
  intro p hp
  rcases List.mem_cons.mp hp with rfl | hp
  · exact hasState_of_mem (List.mem_append_right _ (List.mem_singleton_self s))
  · exact hasState_insertState s (h p hp)

theorem Known.hasState_of_lookup [BEq κ] [LawfulBEq κ] (h : Known names g) {k : κ} {id : StateId}
    (hlookup : names.lookup k = some id) : g.hasState id := by
  obtain ⟨before, after, rfl, -⟩ := List.lookup_eq_some_iff.mp hlookup
  exact h (k, id) (List.mem_append_right _ (List.mem_cons_self ..))

end Known

/-- An attempt that draws on a graph, whether it succeeds or not. What a success gives is related
to the graph that the strokes lead to. -/
def Draws {ε α : Type} (start : Supply × Graph) (a : Attempt ε α) (P : α → Graph → Prop) : Prop :=
  ∃ h, Strokes start (a.supply, h) ∧ ∀ r, a.outcome = .ok r → P r h

section Draws

variable {ε α : Type} {P : α → Graph → Prop} {supply : Supply} {g : Graph}

theorem Draws.done {r : α} (h : P r g) : Draws (supply, g) (⟨.ok r, supply⟩ : Attempt ε α) P :=
  ⟨g, .refl, fun _ hok => by cases hok; exact h⟩

theorem Draws.failed (e : ε) : Draws (supply, g) (⟨.error e, supply⟩ : Attempt ε α) P :=
  ⟨g, .refl, fun _ hok => nomatch hok⟩

theorem Draws.after {start middle : Supply × Graph} {a : Attempt ε α} (h : Draws middle a P)
    (hrow : Strokes start middle) : Draws start a P := by
  obtain ⟨k, hrest, hok⟩ := h
  exact ⟨k, hrow.trans hrest, hok⟩

theorem Draws.supply_le {a : Attempt ε α} (h : Draws (supply, g) a P) : supply ≤ a.supply := by
  obtain ⟨_, hrow, -⟩ := h
  exact hrow.supply_le

end Draws

theorem draws_documentStates (ds : List Document.StateDecl) (supply : Supply) (index : Nat)
    {names : Document.Names} {g : Graph} (hnames : Known names g) :
    Draws (supply, g) (Document.addStates supply index names g ds)
      fun r h => r.2 = h ∧ Known r.1 h := by
  induction ds generalizing supply index names g with
  | nil => exact .done ⟨rfl, hnames⟩
  | cons d ds ih =>
    unfold Document.addStates
    split
    · exact .failed _
    · let s := d.toState supply.nextState index
      exact (ih _ _ (hnames.insertState d.id s)).after (.single (.place s rfl))

theorem states_addSymbols (symbols : List String) (supply : Supply) (g : Graph)
    (source target : StateId) :
    (Document.addSymbols supply g source target symbols).1.states = g.states := by
  induction symbols generalizing supply g with
  | nil => rfl
  | cons symbol rest ih => exact ih _ _

theorem strokes_addSymbols (symbols : List String) (supply : Supply) (g : Graph)
    {source target : StateId} (hsource : g.hasState source) (htarget : g.hasState target) :
    Strokes (supply, g) ((Document.addSymbols supply g source target symbols).2,
      (Document.addSymbols supply g source target symbols).1) := by
  induction symbols generalizing supply g with
  | nil => exact .refl
  | cons symbol rest ih =>
    exact .head (.join source target symbol hsource htarget) (ih _ _ hsource htarget)

theorem draws_documentTransitions (ds : List Document.TransitionDecl) (supply : Supply)
    {names : Document.Names} {g : Graph} (hnames : Known names g) :
    Draws (supply, g) (Document.addTransitions supply names g ds) fun r h => r = h := by
  induction ds generalizing supply g with
  | nil => exact .done rfl
  | cons d ds ih =>
    unfold Document.addTransitions
    split
    · exact .failed _
    · exact .failed _
    · rename_i source target hsource htarget
      have hknown : Known names (Document.addSymbols supply g source target d.symbols).1 := by
        intro p hp
        rw [hasState, states_addSymbols]
        exact hnames p hp
      exact (ih _ hknown).after (strokes_addSymbols d.symbols supply g
        (hnames.hasState_of_lookup hsource) (hnames.hasState_of_lookup htarget))

/-- A document draws on a graph that has only its name. -/
theorem draws_document (d : Document) (supply : Supply) :
    Draws (supply, named d.name) (d.toGraph supply) fun r h => r = h := by
  obtain ⟨h, hrow, hok⟩ := draws_documentStates d.states supply 0 (known_nil (named d.name))
  simp only [Document.toGraph]
  split
  · exact (Draws.failed _).after hrow
  · rename_i names k hplaced
    obtain ⟨rfl, hnames⟩ := hok _ hplaced
    exact (draws_documentTransitions d.transitions _ hnames).after hrow

theorem draws_snapshotStates (ss : List State) (supply : Supply) {ids : Snapshot.Renumbering}
    {g : Graph} (hids : Known ids g) :
    Draws (supply, g) (Snapshot.addStates supply ids g ss)
      fun r h => r.2 = h ∧ Known r.1 h := by
  induction ss generalizing supply ids g with
  | nil => exact .done ⟨rfl, hids⟩
  | cons s ss ih =>
    unfold Snapshot.addStates
    split
    · exact .failed _
    · let placed : State := { s with id := supply.nextState }
      exact (ih _ (hids.insertState s.id placed)).after (.single (.place placed rfl))

theorem draws_snapshotTransitions (ts : List Transition) (supply : Supply)
    {ids : Snapshot.Renumbering} {g : Graph} (hids : Known ids g) :
    Draws (supply, g) (Snapshot.addTransitions supply ids g ts) fun r h => r = h := by
  induction ts generalizing supply g with
  | nil => exact .done rfl
  | cons t ts ih =>
    unfold Snapshot.addTransitions
    split
    · exact .failed _
    · exact .failed _
    · rename_i source target hsource htarget
      have hjoin : Stroke (supply, g) _ := .join source target t.symbol
        (hids.hasState_of_lookup hsource) (hids.hasState_of_lookup htarget)
      have hknown :
          Known ids (g.insertTransition ⟨supply.nextTransition, source, target, t.symbol⟩) := hids
      exact (ih _ hknown).after (.single hjoin)

theorem draws_snapshot (s : Snapshot) (supply : Supply) :
    Draws (supply, named s.name) (s.toGraph supply) fun r h => r = h := by
  obtain ⟨h, hrow, hok⟩ := draws_snapshotStates s.states supply (known_nil (named s.name))
  simp only [Snapshot.toGraph]
  split
  · exact (Draws.failed _).after hrow
  · rename_i ids k hplaced
    obtain ⟨rfl, hids⟩ := hok _ hplaced
    exact (draws_snapshotTransitions s.transitions _ hids).after hrow

/-! ### All graphs -/

/-- Whatever is made is made by strokes on a graph that has only a name. -/
theorem Made.strokes {supply : Supply} {g : Graph} (h : Made supply g) :
    ∃ (start : Supply) (name : String), Strokes (start, Graph.named name) (supply, g) := by
  induction h with
  | named supply name => exact ⟨supply, name, .refl⟩
  | @described supply g d hok =>
    obtain ⟨h, hrow, hdrawn⟩ := draws_document d supply
    obtain rfl := hdrawn g hok
    exact ⟨supply, d.name, hrow⟩
  | @loaded supply g s hok =>
    obtain ⟨h, hrow, hdrawn⟩ := draws_snapshot s supply
    obtain rfl := hdrawn g hok
    exact ⟨supply, s.name, hrow⟩
  | edited _ e ih =>
    obtain ⟨start, name, hrow⟩ := ih
    exact ⟨start, name, hrow.trans (strokes_edit _ _ e)⟩
  | kept _ hle ih =>
    obtain ⟨start, name, hrow⟩ := ih
    exact ⟨start, name, hrow.tail (.wait hle)⟩

theorem Made.wellFormed {supply : Supply} {g : Graph} (h : Made supply g) :
    WellFormed supply g := by
  obtain ⟨start, name, hrow⟩ := h.strokes
  exact hrow.wellFormed (wellFormed_named start name)

end Graph

end FiniteAutomata
