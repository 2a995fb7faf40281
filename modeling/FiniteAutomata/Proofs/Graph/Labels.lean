import FiniteAutomata.Proofs.Graph.Numbers

/-!
The labels that a graph gives to its states. The next one is `q` with the least number whose label
no state carries (`freeNumber_spec`), so it is new to the graph, and where the labels so far are
those of the first numbers it is that of the next number (`freeNumber_eq`).
-/
namespace FiniteAutomata.Graph

variable {g : Graph}

def labels (g : Graph) : List String := g.states.map (·.label)

theorem numberedLabel_injective : Function.Injective numberedLabel := by
  intro m n heq
  have hdigits : Nat.toDigits 10 m = Nat.toDigits 10 n :=
    String.ofList_injective ((String.append_right_inj "q").mp heq)
  rw [← Nat.ofDigitChars_ten_toDigits (n := m), hdigits, Nat.ofDigitChars_ten_toDigits]

theorem carriesLabel_iff {label : String} : g.carriesLabel label ↔ label ∈ g.labels := by
  simp only [carriesLabel, labels, List.any_eq_true, List.mem_map, decide_eq_true_eq]

theorem freeNumber_spec (g : Graph) :
    g.freeNumber ≤ g.stateCount ∧ g.freeLabel ∉ g.labels ∧
      ∀ i < g.freeNumber, numberedLabel i ∈ g.labels := by
  have hfree (n : Nat) : (!g.carriesLabel (numberedLabel n)) ↔ numberedLabel n ∉ g.labels := by
    rw [← carriesLabel_iff, Bool.not_eq_true', Bool.not_eq_true]
  obtain ⟨n, hle, hfind, hnew, hbefore⟩ := exists_free numberedLabel_injective g.labels hfree
  have hcount : g.labels.length = g.stateCount := List.length_map ..
  rw [hcount] at hle hfind
  have hnumber : g.freeNumber = n := by rw [freeNumber, hfind, Option.getD_some]
  rw [freeLabel, hnumber]
  exact ⟨hle, hnew, hbefore⟩

/-- There is no gap between the labels of the first numbers. -/
theorem freeNumber_eq {n : Nat} (hlabels : g.labels = (List.range n).map numberedLabel) :
    g.freeNumber = n := by
  obtain ⟨-, hnew, hbefore⟩ := g.freeNumber_spec
  have hcarried (i : Nat) : numberedLabel i ∈ g.labels ↔ i < n := by
    rw [hlabels, List.mem_map_of_injective numberedLabel_injective, List.mem_range]
  have hle : n ≤ g.freeNumber := by
    rw [freeLabel, hcarried] at hnew
    exact Nat.not_lt.mp hnew
  have hge : g.freeNumber ≤ n := by
    by_contra hlt
    have hcarries := hbefore n (Nat.not_le.mp hlt)
    rw [hcarried] at hcarries
    exact Nat.lt_irrefl _ hcarries
  exact Nat.le_antisymm hge hle

end FiniteAutomata.Graph
