import Mathlib.Algebra.GroupWithZero.Nat

/-!
Texts that are joined with a separator between them. The whole is as long as its parts
(`length_intercalate`), and each text begins behind those before it and a separator for each of
them (`exists_intercalate`).
-/
namespace FiniteAutomata.Text

theorem length_intercalate (separator : String) (ss : List String) :
    (separator.intercalate ss).length =
      (ss.map String.length).sum + separator.length * (ss.length - 1) := by
  induction ss with
  | nil => simp
  | cons s ss ih =>
    cases ss with
    | nil => simp
    | cons s' ss =>
      rw [String.intercalate_cons_cons, String.length_append, String.length_append, ih]
      simp only [List.map_cons, List.sum_cons, List.length_cons, Nat.add_sub_cancel, Nat.mul_succ]
      omega

/-- A text stands in the whole where the lengths of the texts and the separators before it say. -/
theorem exists_intercalate (separator : String) {ss : List String} {k : Nat} {s : String}
    (hs : ss[k]? = some s) :
    ∃ before after, separator.intercalate ss = before ++ s ++ after ∧
      before.length = ((ss.map String.length).take k).sum + separator.length * k := by
  induction ss generalizing k with
  | nil => simp at hs
  | cons s' ss ih =>
    cases k with
    | zero =>
      obtain rfl : s' = s := by simpa using hs
      cases ss with
      | nil => exact ⟨"", "", by simp, by simp⟩
      | cons s'' ss =>
        exact ⟨"", separator ++ separator.intercalate (s'' :: ss),
          by simp [String.append_assoc], by simp⟩
    | succ k =>
      rw [List.getElem?_cons_succ] at hs
      obtain ⟨before, after, hsplit, hlength⟩ := ih hs
      cases ss with
      | nil => simp at hs
      | cons s'' ss =>
        refine ⟨s' ++ separator ++ before, after, ?_, ?_⟩
        · rw [String.intercalate_cons_cons, hsplit]
          simp only [String.append_assoc]
        · rw [String.length_append, String.length_append, hlength]
          simp only [List.map_cons, List.take_succ_cons, List.sum_cons, Nat.mul_succ]
          omega

end FiniteAutomata.Text
