import FiniteAutomata.Proofs.Document.Description
import FiniteAutomata.Proofs.Graph.Made
import FiniteAutomata.Source

/-!
Loading the text of a document. A loader that asks the graph for every change is never refused one
(`requestGraph_eq`), so all that can go wrong is wrong with the text: it has no tokens, its tokens
have no document, or the document has a flaw (`Complains`). A text with none of these is loaded as
the graph that its document describes (`load_document`).
-/
namespace FiniteAutomata

/-- Sets the flags of a state and leaves the other states alone. -/
def Graph.setFlags (id : StateId) (initial accepting : Bool) : EStateM Fault Graph Unit := do
  unless (← get).hasState id do throw (.unknownState id)
  let set (s : State) : State := if s.id = id then { s with initial, accepting } else s
  modify fun g => { g with states := g.states.map set }

/-- The state just added is there, and no other state has its number. -/
theorem Graph.WellFormed.setFlags_insertState {supply : Supply} {g : Graph}
    (h : WellFormed supply g) (label : String) (position : Point) (initial accepting : Bool) :
    (setFlags supply.nextState initial accepting).run
        (g.insertState ⟨supply.nextState, label, position, false, false⟩) =
      .ok () (g.insertState ⟨supply.nextState, label, position, initial, accepting⟩) := by
  have hold : g.states.map (fun s =>
      if s.id = supply.nextState then { s with initial, accepting } else s) = g.states := by
    refine (List.map_congr_left fun s hs => if_neg fun heq => ?_).trans (List.map_id g.states)
    have hlt := h.state_given_out s hs
    rw [heq] at hlt
    exact Nat.lt_irrefl _ hlt
  have hhas : (g.insertState ⟨supply.nextState, label, position, false, false⟩).hasState
      supply.nextState := by
    simp [hasState, Graph.insertState]
  simp only [setFlags, EStateM.run_bind, EStateM.run_get, hhas, if_true, EStateM.run_modify]
  simp [Graph.insertState, hold]

namespace Document

/-! ### Asking the graph -/

/-- Adds the declared states by changes that the graph may refuse. -/
def requestStates (supply : Supply) (index : Nat) (names : Names) (g : Graph) :
    List StateDecl → Attempt Error (Names × Graph)
  | [] => ⟨.ok (names, g), supply⟩
  | d :: ds =>
    match names.lookup d.id with
    | some _ => ⟨.error (.document ⟨.declaredTwice d.id, d.location⟩), supply⟩
    | none =>
      let added := g.addLabeledState supply (d.label.getD d.id)
        (d.position.getD (defaultPosition index))
      match (Graph.setFlags supply.nextState d.initial d.accepting).run added.graph with
      | .error fault _ => ⟨.error (.ofGraph fault), added.supply⟩
      | .ok _ h => requestStates added.supply (index + 1) ((d.id, supply.nextState) :: names) h ds

/-- Adds one transition for each symbol by changes that the graph may refuse. -/
def requestSymbols (supply : Supply) (g : Graph) (source target : StateId) :
    List String → Attempt Error Graph
  | [] => ⟨.ok g, supply⟩
  | symbol :: rest =>
    match (Graph.addTransition source target symbol).run (supply, g) with
    | .error fault (later, _) => ⟨.error (.ofGraph fault), later⟩
    | .ok _ (later, h) => requestSymbols later h source target rest

/-- Adds the declared transitions by changes that the graph may refuse. -/
def requestTransitions (supply : Supply) (names : Names) (g : Graph) :
    List TransitionDecl → Attempt Error Graph
  | [] => ⟨.ok g, supply⟩
  | d :: ds =>
    match names.lookup d.source, names.lookup d.target with
    | none, _ => ⟨.error (.document ⟨.undeclared d.source, d.location⟩), supply⟩
    | some _, none => ⟨.error (.document ⟨.undeclared d.target, d.location⟩), supply⟩
    | some source, some target =>
      let added := requestSymbols supply g source target d.symbols
      match added.outcome with
      | .error e => ⟨.error e, added.supply⟩
      | .ok h => requestTransitions added.supply names h ds

/-- Builds the graph of a document by changes that the graph may refuse. -/
def requestGraph (d : Document) (supply : Supply) : Attempt Error Graph :=
  let added := requestStates supply 0 [] (.named d.name) d.states
  match added.outcome with
  | .error e => ⟨.error e, added.supply⟩
  | .ok (names, g) => requestTransitions added.supply names g d.transitions

end Document

/-- An attempt whose complaints are errors. -/
def Attempt.complained {α : Type} (a : Attempt Document.Complaint α) : Attempt Error α :=
  ⟨a.outcome.mapError .document, a.supply⟩

namespace Document

theorem requestStates_eq (ds : List StateDecl) (supply : Supply) (index : Nat) (names : Names)
    {g : Graph} (hg : Graph.WellFormed supply g) :
    requestStates supply index names g ds = (addStates supply index names g ds).complained := by
  induction ds generalizing supply g index names with
  | nil => rfl
  | cons d ds ih =>
    rw [requestStates, addStates]
    cases names.lookup d.id with
    | some _ => rfl
    | none =>
      have hflags := hg.setFlags_insertState (d.label.getD d.id)
        (d.position.getD (defaultPosition index)) d.initial d.accepting
      simp only [Graph.addLabeledState, hflags]
      exact ih _ _ _ (hg.insertState (d.toState supply.nextState index) rfl)

theorem requestSymbols_eq (symbols : List String) (supply : Supply) {g : Graph}
    {source target : StateId} (hsource : g.hasState source) (htarget : g.hasState target) :
    requestSymbols supply g source target symbols =
      ⟨.ok (addSymbols supply g source target symbols).1,
        (addSymbols supply g source target symbols).2⟩ := by
  induction symbols generalizing supply g with
  | nil => rfl
  | cons symbol rest ih =>
    rw [requestSymbols, addSymbols, Graph.run_addTransition hsource htarget]
    exact ih _ hsource htarget

theorem requestTransitions_eq (ds : List TransitionDecl) (supply : Supply) {names : Names}
    {g : Graph} (hnames : Graph.Known names g) :
    requestTransitions supply names g ds = (addTransitions supply names g ds).complained := by
  induction ds generalizing supply g with
  | nil => rfl
  | cons d ds ih =>
    rw [requestTransitions, addTransitions]
    cases hsource : names.lookup d.source with
    | none => rfl
    | some source =>
      cases htarget : names.lookup d.target with
      | none => rfl
      | some target =>
        have hsymbols := requestSymbols_eq d.symbols supply
          (hnames.hasState_of_lookup hsource) (hnames.hasState_of_lookup htarget)
        have hknown : Graph.Known names (addSymbols supply g source target d.symbols).1 := by
          intro p hp
          rw [Graph.hasState, Graph.states_addSymbols]
          exact hnames p hp
        simp only [hsymbols]
        exact ih _ hknown

/-- No change that a document asks for is refused. -/
theorem requestGraph_eq (d : Document) (supply : Supply) :
    d.requestGraph supply = (d.toGraph supply).complained := by
  have hstates := requestStates_eq d.states supply 0 [] (Graph.wellFormed_named supply d.name)
  obtain ⟨h, -, hok⟩ :=
    Graph.draws_documentStates d.states supply 0 (Graph.known_nil (.named d.name))
  simp only [requestGraph, toGraph, hstates, Attempt.complained]
  cases hadded : (addStates supply 0 [] (.named d.name) d.states).outcome with
  | error c => rfl
  | ok added =>
    obtain ⟨names, g⟩ := added
    obtain ⟨rfl, hknown⟩ := hok _ hadded
    exact requestTransitions_eq d.transitions _ hknown

/-! ### Texts -/

/-- What is wrong with a text, in the order in which it is looked for: it has no tokens, its tokens
have no document, or the document has a flaw. -/
inductive Complains (source : String) : Complaint → Prop
  | lexical {c : Complaint} (hscan : scan source = .error c) : Complains source c
  | syntactic {ts : Tokens} {c : Complaint} (hscan : scan source = .ok ts)
      (hparse : ofTokens ts = .error c) : Complains source c
  | flawed {ts : Tokens} {d : Document} {c : Complaint} (hscan : scan source = .ok ts)
      (hparse : ofTokens ts = .ok d) (hflaw : Flaw d c) : Complains source c

/-- A text that says what `d` says. -/
def Writes (source : String) (d : Document) : Prop :=
  ∃ ts, scan source = .ok ts ∧ ofTokens ts = .ok d

/-- Loads a text by changes that the graph may refuse. -/
def request (source : String) (supply : Supply) : Attempt Error Graph :=
  match parse source with
  | .ok d => d.requestGraph supply
  | .error c => ⟨.error (.document c), supply⟩

theorem load_eq_request (source : String) (supply : Supply) :
    (Source.document source).load supply = request source supply := by
  rw [Source.load, Graph.ofDocumentText, request]
  cases parse source with
  | ok d => exact (requestGraph_eq d supply).symm
  | error c => rfl

theorem writes_or_complains (source : String) :
    (∃ d, Writes source d ∧ d.Sound) ∨ ∃ c, Complains source c := by
  cases hscan : scan source with
  | error c => exact .inr ⟨c, .lexical hscan⟩
  | ok ts =>
    cases hparse : ofTokens ts with
    | error c => exact .inr ⟨c, .syntactic hscan hparse⟩
    | ok d =>
      rcases d.sound_or_flaw with hsound | ⟨c, hflaw⟩
      · exact .inl ⟨d, ⟨ts, hscan, hparse⟩, hsound⟩
      · exact .inr ⟨c, .flawed hscan hparse hflaw⟩

theorem load_of_writes {source : String} {d : Document} (hwrites : Writes source d)
    (hsound : d.Sound) (supply : Supply) :
    (Source.document source).load supply = ⟨.ok (d.drawn supply), d.spent supply⟩ := by
  obtain ⟨ts, hscan, hparse⟩ := hwrites
  simp only [Source.load, Graph.ofDocumentText, parse, hscan, hparse, toGraph_of_sound hsound]
  rfl

theorem load_of_complains {source : String} {c : Complaint} (h : Complains source c)
    (supply : Supply) : ((Source.document source).load supply).outcome = .error (.document c) := by
  cases h with
  | lexical hscan =>
    simp only [Source.load, Graph.ofDocumentText, parse, hscan]
    rfl
  | syntactic hscan hparse =>
    simp only [Source.load, Graph.ofDocumentText, parse, hscan, hparse]
    rfl
  | flawed hscan hparse hflaw =>
    simp only [Source.load, Graph.ofDocumentText, parse, hscan, hparse, toGraph_of_flaw hflaw]
    rfl

/-- Whatever is loaded from a text is drawn from the document that the text writes. -/
theorem exists_writes_of_load {source : String} {supply : Supply} {g : Graph}
    (h : ((Source.document source).load supply).outcome = .ok g) :
    ∃ d, Writes source d ∧ d.Sound ∧ g = d.drawn supply := by
  rcases writes_or_complains source with ⟨d, hwrites, hsound⟩ | ⟨c, hcomplains⟩
  · rw [load_of_writes hwrites hsound] at h
    cases h
    exact ⟨d, hwrites, hsound, rfl⟩
  · rw [load_of_complains hcomplains] at h
    cases h

/-- A text is loaded exactly if it writes a document of which nothing is wrong, and then as the
graph that the document describes. Otherwise the error is the complaint about the first thing that
is wrong with the text. The graph is never asked for a change that it refuses. -/
theorem load_document (source : String) (supply : Supply) :
    (Source.document source).load supply = request source supply ∧
      (∀ g, ((Source.document source).load supply).outcome = .ok g ↔
        ∃ d, Writes source d ∧ d.Sound ∧ g = d.drawn supply) ∧
      ∀ e, ((Source.document source).load supply).outcome = .error e ↔
        ∃ c, Complains source c ∧ e = .document c := by
  refine ⟨load_eq_request source supply, fun g => ⟨exists_writes_of_load, ?_⟩,
    fun e => ⟨fun hload => ?_, ?_⟩⟩
  · rintro ⟨d, hwrites, hsound, rfl⟩
    rw [load_of_writes hwrites hsound]
  · rcases writes_or_complains source with ⟨d, hwrites, hsound⟩ | ⟨c, hcomplains⟩
    · rw [load_of_writes hwrites hsound] at hload
      cases hload
    · rw [load_of_complains hcomplains] at hload
      cases hload
      exact ⟨c, hcomplains, rfl⟩
  · rintro ⟨c, hcomplains, rfl⟩
    exact load_of_complains hcomplains supply

end Document

end FiniteAutomata
