import FiniteAutomata.Proofs.Graph.Listing

/-!
Runs through a graph and the texts that they spell. A graph accepts the texts spelled by its runs
from initial to accepting states; symbols count as they are written, also those that read nothing.
-/
namespace FiniteAutomata.Graph

/-- Transitions of a graph from one state to another, each beginning where the one before ends. -/
inductive Run (g : Graph) : StateId → List Transition → StateId → Prop
  | stay (id : StateId) : Run g id [] id
  | step {t : Transition} {ts : List Transition} {last : StateId} (ht : t ∈ g.transitions)
      (hrest : Run g t.target ts last) : Run g t.source (t :: ts) last

/-- The symbols on transitions, one after the other. -/
def spelling (ts : List Transition) : String := String.join (ts.map (·.symbol))

def Accepts (g : Graph) (text : String) : Prop :=
  ∃ first ∈ g.states, first.initial ∧ ∃ last ∈ g.states, last.accepting ∧
    ∃ ts, g.Run first.id ts last.id ∧ spelling ts = text

@[simp]
theorem spelling_nil : spelling [] = "" := String.join_nil

@[simp]
theorem spelling_cons (t : Transition) (ts : List Transition) :
    spelling (t :: ts) = t.symbol ++ spelling ts := String.join_cons

@[simp]
theorem spelling_append (ts us : List Transition) :
    spelling (ts ++ us) = spelling ts ++ spelling us := by
  simp only [spelling, List.map_append, String.join_append]

theorem Run.append {g : Graph} {a b c : StateId} {ts us : List Transition} (h : g.Run a ts b)
    (h' : g.Run b us c) : g.Run a (ts ++ us) c := by
  induction h with
  | stay => exact h'
  | step ht _ ih => exact .step ht (ih h')

/-- A graph that has the transitions of another has its runs. -/
theorem Run.mono {g h : Graph} {a b : StateId} {ts : List Transition}
    (hsub : g.transitions ⊆ h.transitions) (hrun : g.Run a ts b) : h.Run a ts b := by
  induction hrun with
  | stay id => exact .stay id
  | step ht _ ih => exact .step (hsub ht) ih

/-- A run that ends in another state than it began in ends with a transition into that state. -/
theorem Run.eq_or_entered {g : Graph} {a b : StateId} {ts : List Transition}
    (hrun : g.Run a ts b) : a = b ∨ ∃ t ∈ g.transitions, t.target = b := by
  induction hrun with
  | stay id => exact Or.inl rfl
  | @step t ts last ht _ ih =>
    rcases ih with htarget | hentered
    · exact Or.inr ⟨t, ht, htarget⟩
    · exact Or.inr hentered

/-- A run that leaves a state begins with a transition out of it. -/
theorem run_cons_iff {g : Graph} {a c : StateId} {t : Transition} {ts : List Transition} :
    g.Run a (t :: ts) c ↔ t ∈ g.outgoing a ∧ g.Run t.target ts c := by
  constructor
  · intro h
    cases h with
    | step ht hrest => exact ⟨mem_outgoing.mpr ⟨ht, rfl⟩, hrest⟩
  · rintro ⟨hout, hrest⟩
    obtain ⟨ht, rfl⟩ := mem_outgoing.mp hout
    exact .step ht hrest

theorem run_nil_iff {g : Graph} {a c : StateId} : g.Run a [] c ↔ a = c := by
  constructor
  · intro h
    cases h with
    | stay => rfl
  · rintro rfl
    exact .stay a

end FiniteAutomata.Graph
