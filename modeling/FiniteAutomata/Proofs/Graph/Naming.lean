import FiniteAutomata.Proofs.Graph.Course
import FiniteAutomata.Proofs.Graph.Effect
import Mathlib.Order.Bounds.Basic

/-!
How a graph names its states. The label that it chooses is `q` with the least number whose label no
state carries, whatever labels were brought in from elsewhere, and that number is found among the
first ones, one more than there are states. So a state that the graph names is never called like
another one, and where all labels are different they stay so until a state is named from outside
(`names_apart`).
-/
namespace FiniteAutomata.Graph

variable {supply : Supply} {g : Graph}

/-- How a graph names its states, and what comes of it. -/
structure NamesApart (supply : Supply) (g : Graph) : Prop where
  least : ∃ n ≤ g.stateCount, g.freeLabel = "q" ++ toString n ∧
    IsLeast {n : Nat | ∀ s ∈ g.states, s.label ≠ "q" ++ toString n} n
  found : ((List.range (g.stateCount + 1)).find? fun n =>
    !g.carriesLabel (numberedLabel n)) = some g.freeNumber
  added : ∀ position, ∃ s, (g.edit supply (.addState position)).answer = .ok (.state s) ∧
    (g.edit supply (.addState position)).graph.states = g.states ++ [s] ∧
    s.label = g.freeLabel ∧ ∀ t ∈ g.states, t.label ≠ s.label
  distinct : (g.states.map (·.label)).Nodup →
    ∀ ts, (∀ label position, .change (.addLabeledState label position) ∉ ts) →
      ((course supply g ts).2.states.map (·.label)).Nodup

theorem notMem_labels_iff {label : String} :
    label ∉ g.labels ↔ ∀ s ∈ g.states, s.label ≠ label := by
  simp [labels]

theorem isLeast_freeNumber (g : Graph) :
    IsLeast {n | ∀ s ∈ g.states, s.label ≠ numberedLabel n} g.freeNumber := by
  obtain ⟨-, hnew, hbefore⟩ := g.freeNumber_spec
  constructor
  · exact notMem_labels_iff.mp hnew
  · intro n hn
    by_contra hlt
    exact notMem_labels_iff.mpr hn (hbefore n (Nat.not_le.mp hlt))

/-- The search stops at a number before it has gone through all that it may try. -/
theorem find?_freeNumber (g : Graph) :
    ((List.range (g.stateCount + 1)).find? fun n => !g.carriesLabel (numberedLabel n)) =
      some g.freeNumber := by
  obtain ⟨hle, hnew, hbefore⟩ := g.freeNumber_spec
  have hfree : g.carriesLabel (numberedLabel g.freeNumber) = false := by
    rw [← Bool.not_eq_true, carriesLabel_iff]
    exact hnew
  refine List.find?_range_eq_some.mpr ⟨?_, ?_, fun i hi => ?_⟩
  · rw [hfree, Bool.not_false]
  · exact List.mem_range.mpr (Nat.lt_succ_of_le hle)
  · rw [carriesLabel_iff.mpr (hbefore i hi)]
    rfl

/-- Labels that are all different stay so in a course in which the graph names every new state. -/
theorem WellFormed.nodup_labels_course (hwf : WellFormed supply g) (hlabels : g.labels.Nodup)
    {ts : List Turn} (hnamed : ∀ label position, .change (.addLabeledState label position) ∉ ts) :
    (course supply g ts).2.labels.Nodup := by
  refine (hwf.course_keeps (P := fun h => h.labels.Nodup) (fun later h e he hh hdistinct => ?_)
    hlabels).2
  apply nodup_labels_edit hh hdistinct
  rintro label position rfl
  exact hnamed label position he

theorem names_apart (hmade : Made supply g) : NamesApart supply g where
  least := ⟨g.freeNumber, g.freeNumber_spec.1, rfl, g.isLeast_freeNumber⟩
  found := g.find?_freeNumber
  added _ := ⟨_, rfl, rfl, rfl, notMem_labels_iff.mp g.freeNumber_spec.2.1⟩
  distinct hlabels _ hnamed := hmade.wellFormed.nodup_labels_course hlabels hnamed

/-- A saved graph with labels that look like those that graphs choose, and with gaps between those
that they do choose. -/
def gaps : Snapshot :=
  let state (number : Nat) (label : String) : State := ⟨⟨number⟩, label, ⟨0, 0⟩, false, false⟩
  { name := "gaps"
    states := [state 0 "q0", state 1 "q00", state 2 "q", state 3 "q2", state 4 "q4"]
    transitions := [⟨⟨0⟩, ⟨0⟩, ⟨3⟩, "a"⟩]
    alphabet := [] }

def gapped : Graph := (gaps.toGraph .initial).outcome.toOption.getD .unnamed

/-- One gap is filled, another one is made, and the states that no transition touches go. -/
def refilling : List Turn :=
  [.change (.addState ⟨0, 0⟩), .elsewhere 3 0, .change (.removeState ⟨0⟩),
    .change (.addState ⟨1, 0⟩), .change (.updateState ⟨3⟩ ⟨0, 1⟩ (some true) none), .change .clean]

theorem names_apart_gapped :
    Made (gaps.toGraph .initial).supply gapped ∧ gapped.freeLabel = "q1" ∧
      (∃ s, (gapped.edit (gaps.toGraph .initial).supply (.addState ⟨0, 0⟩)).answer =
        .ok (.state s) ∧ ∀ t ∈ gapped.states, t.label ≠ s.label) ∧
      (∀ label position, .change (.addLabeledState label position) ∉ refilling) ∧
      ((course (gaps.toGraph .initial).supply gapped refilling).2.states.map (·.label)).Nodup := by
  have hmade : Made (gaps.toGraph .initial).supply gapped := .loaded gaps rfl
  have hnames := names_apart hmade
  obtain ⟨s, hanswer, -, -, hnew⟩ := hnames.added ⟨0, 0⟩
  have hnamed : ∀ label position, .change (.addLabeledState label position) ∉ refilling := by
    simp [refilling]
  exact ⟨hmade, by decide +kernel, ⟨s, hanswer, hnew⟩, hnamed,
    hnames.distinct (by decide +kernel) refilling hnamed⟩

end FiniteAutomata.Graph
