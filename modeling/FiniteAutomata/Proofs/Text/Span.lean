import Mathlib.Data.List.TakeWhile

/-!
Rows of characters that are taken as long as they can be. A row is a span of what follows it if a
test holds of all its characters and not of the next one; so every text has one split into a span
and a rest, which is the one that `takeWhile` and `dropWhile` make.
-/
namespace FiniteAutomata.Text

/-- The characters `cs` pass a test, and what is behind them begins with none that does. -/
structure Span (p : Char → Bool) (cs rest : List Char) : Prop where
  all : ∀ c ∈ cs, p c
  stop : ∀ c ∈ rest.head?, p c = false

namespace Span

variable {p : Char → Bool} {cs rest : List Char}

theorem takeWhile_rest (h : Span p cs rest) : rest.takeWhile p = [] := by
  cases rest with
  | nil => rfl
  | cons c ds => simp [h.stop c rfl]

theorem takeWhile_eq (h : Span p cs rest) : (cs ++ rest).takeWhile p = cs := by
  rw [List.takeWhile_append_of_pos h.all, h.takeWhile_rest, List.append_nil]

theorem dropWhile_eq (h : Span p cs rest) : (cs ++ rest).dropWhile p = rest := by
  rw [List.dropWhile_append_of_pos h.all]
  cases rest with
  | nil => rfl
  | cons c ds => simp [h.stop c rfl]

/-- Every text begins with a span, which may be empty. -/
theorem ofText (p : Char → Bool) (cs : List Char) :
    Span p (cs.takeWhile p) (cs.dropWhile p) where
  all c hc := List.mem_takeWhile_imp hc
  stop c hc := by
    have hstop := List.head?_dropWhile_not p cs
    rw [Option.mem_def] at hc
    rw [hc] at hstop
    simpa using hstop

end Span

end FiniteAutomata.Text
