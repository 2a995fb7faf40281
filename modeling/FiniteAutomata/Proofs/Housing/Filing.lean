import FiniteAutomata.Proofs.Graph.Listing
import Mathlib.Data.List.Nodup
import Mathlib.Logic.Function.Basic

/-!
Lists filed in slots. A table leads from the key of each element to its slot (`Filed`). Then looking
up by way of the table finds what a search through the list finds (`find?_eq`), and going through
the slots in any order meets the elements of the list in some order (`perm_filter`). Filing an
element more, taking elements out and changing them in their slots keep this up.
-/
namespace FiniteAutomata

open Function (update)

/-- The elements of `as` are what is in the slots, and `slot` leads from their keys to their
slots. -/
structure Filed {α κ : Type} (key : α → κ) (as : List α) (slot : κ → Option Nat)
    (content : Nat → Option α) : Prop where
  mem_iff : ∀ a, a ∈ as ↔ ∃ i, content i = some a
  slot_eq_some_iff : ∀ k i, slot k = some i ↔ ∃ a, content i = some a ∧ key a = k

namespace Filed

variable {α κ : Type} {key : α → κ} {as : List α} {slot : κ → Option Nat}
  {content : Nat → Option α} {a b : α} {i j : Nat} {k : κ}

theorem nil (hempty : ∀ i, content i = none) : Filed key [] (fun _ => none) content where
  mem_iff a := by simp [hempty]
  slot_eq_some_iff k i := by simp [hempty]

theorem congr (h : Filed key as slot content) {content' : Nat → Option α}
    (heq : ∀ i, content' i = content i) : Filed key as slot content' :=
  funext heq ▸ h

/-! ### Looking up -/

theorem slot_eq (h : Filed key as slot content) (hi : content i = some a) :
    slot (key a) = some i :=
  (h.slot_eq_some_iff _ _).mpr ⟨a, hi, rfl⟩

/-- No key is in two slots. -/
theorem slots_eq (h : Filed key as slot content) (hi : content i = some a)
    (hj : content j = some b) (hkey : key a = key b) : i = j := by
  have hslot := h.slot_eq hi
  rw [hkey, h.slot_eq hj] at hslot
  exact (Option.some.inj hslot).symm

/-- No slot is that of two keys. -/
theorem keys_eq {k' : κ} (h : Filed key as slot content) (hk : slot k = some i)
    (hk' : slot k' = some i) : k = k' := by
  obtain ⟨a, ha, rfl⟩ := (h.slot_eq_some_iff k i).mp hk
  obtain ⟨b, hb, rfl⟩ := (h.slot_eq_some_iff k' i).mp hk'
  rw [Option.some.inj (ha.symm.trans hb)]

theorem slot_isSome_iff (h : Filed key as slot content) :
    (slot k).isSome ↔ ∃ a ∈ as, key a = k := by
  rw [Option.isSome_iff_exists]
  constructor
  · rintro ⟨i, hi⟩
    obtain ⟨a, ha, hk⟩ := (h.slot_eq_some_iff k i).mp hi
    exact ⟨a, (h.mem_iff a).mpr ⟨i, ha⟩, hk⟩
  · rintro ⟨a, ha, rfl⟩
    obtain ⟨i, hi⟩ := (h.mem_iff a).mp ha
    exact ⟨i, h.slot_eq hi⟩

/-- The table leads to what a search through the list finds. -/
theorem find?_eq [DecidableEq κ] (h : Filed key as slot content) (hkeys : (as.map key).Nodup)
    (k : κ) : (slot k).bind content = as.find? (key · = k) := by
  ext a
  rw [Graph.find?_key_eq_some_iff hkeys, h.mem_iff, Option.bind_eq_some_iff]
  constructor
  · rintro ⟨i, hslot, hi⟩
    obtain ⟨b, hb, hk⟩ := (h.slot_eq_some_iff k i).mp hslot
    obtain rfl : b = a := Option.some.inj (hb.symm.trans hi)
    exact ⟨⟨i, hi⟩, hk⟩
  · rintro ⟨⟨i, hi⟩, rfl⟩
    exact ⟨i, h.slot_eq hi, hi⟩

/-- Going through the slots of some elements, in any order, meets just these elements. -/
theorem perm_filter (h : Filed key as slot content) (has : as.Nodup) {slots : List Nat}
    (hslots : slots.Nodup) {p : α → Bool}
    (hmem : ∀ i, i ∈ slots ↔ ∃ a, content i = some a ∧ p a) :
    (slots.filterMap content).Perm (as.filter p) := by
  have hnodup : (slots.filterMap content).Nodup := by
    refine hslots.filterMap ?_
    intro i j a hi hj
    exact h.slots_eq hi hj rfl
  rw [List.perm_ext_iff_of_nodup hnodup (has.filter p)]
  intro a
  rw [List.mem_filterMap, List.mem_filter, h.mem_iff]
  constructor
  · rintro ⟨i, hi, ha⟩
    obtain ⟨b, hb, hp⟩ := (hmem i).mp hi
    obtain rfl : b = a := Option.some.inj (hb.symm.trans ha)
    exact ⟨⟨i, ha⟩, hp⟩
  · rintro ⟨⟨i, ha⟩, hp⟩
    exact ⟨i, (hmem i).mpr ⟨a, ha, hp⟩, ha⟩

theorem perm (h : Filed key as slot content) (has : as.Nodup) {slots : List Nat}
    (hslots : slots.Nodup) (hmem : ∀ i, i ∈ slots ↔ (content i).isSome) :
    (slots.filterMap content).Perm as := by
  have hall := h.perm_filter has hslots (p := fun _ => true) fun i => by
    rw [hmem, Option.isSome_iff_exists]
    simp only [and_true]
  rwa [List.filter_true] at hall

/-! ### Changes -/

/-- Something with a key of its own is put into a free slot. -/
theorem add [DecidableEq κ] (h : Filed key as slot content)
    (hfree : content i = none) (hnew : ∀ a ∈ as, key a ≠ key b) :
    Filed key (as ++ [b]) (update slot (key b) (some i)) (update content i (some b)) where
  mem_iff a := by
    rw [List.mem_append, List.mem_singleton, h.mem_iff]
    constructor
    · rintro (⟨j, hj⟩ | rfl)
      · have hne : j ≠ i := fun heq => by simp [heq, hfree] at hj
        exact ⟨j, by rw [Function.update_of_ne hne, hj]⟩
      · exact ⟨i, Function.update_self ..⟩
    · rintro ⟨j, hj⟩
      rw [Function.update_apply] at hj
      split at hj
      · exact Or.inr (Option.some.inj hj).symm
      · exact Or.inl ⟨j, hj⟩
  slot_eq_some_iff k j := by
    have hother (hk : slot k = some j) : k ≠ key b ∧ j ≠ i := by
      obtain ⟨a, ha, rfl⟩ := (h.slot_eq_some_iff k j).mp hk
      refine ⟨hnew a ((h.mem_iff a).mpr ⟨j, ha⟩), ?_⟩
      rintro rfl
      simp [hfree] at ha
    by_cases hj : j = i
    · subst hj
      simp only [Function.update_self, Option.some.injEq, exists_eq_left', Function.update_apply]
      by_cases hk : k = key b
      · simp [hk]
      · simp only [hk, if_false, eq_comm (a := key b)]
        exact iff_of_false (fun hslot => (hother hslot).2 rfl) id
    · rw [Function.update_of_ne hj, ← h.slot_eq_some_iff]
      by_cases hk : k = key b
      · subst hk
        rw [Function.update_self]
        exact iff_of_false (fun heq => hj (Option.some.inj heq).symm) fun hslot =>
          (hother hslot).1 rfl
      · rw [Function.update_of_ne hk]

/-- Some elements are taken out of their slots and out of the table. -/
theorem restrict (h : Filed key as slot content) {p : α → Bool} {slot' : κ → Option Nat}
    {content' : Nat → Option α} (hcontent : ∀ i, content' i = (content i).filter p)
    (hslot : ∀ i a, content i = some a → slot' (key a) = if p a then slot (key a) else none)
    (hunknown : ∀ k, slot k = none → slot' k = none) :
    Filed key (as.filter p) slot' content' where
  mem_iff a := by
    simp only [List.mem_filter, h.mem_iff, hcontent, Option.filter_eq_some_iff, exists_and_right]
  slot_eq_some_iff k i := by
    simp only [hcontent, Option.filter_eq_some_iff]
    constructor
    · intro hk
      cases hold : slot k with
      | none => simp [hunknown k hold] at hk
      | some j =>
        obtain ⟨a, ha, rfl⟩ := (h.slot_eq_some_iff k j).mp hold
        rw [hslot j a ha] at hk
        split at hk
        · rename_i hp
          obtain rfl : j = i := Option.some.inj (hold.symm.trans hk)
          exact ⟨a, ⟨ha, hp⟩, rfl⟩
        · cases hk
    · rintro ⟨a, ⟨ha, hp⟩, rfl⟩
      rw [hslot i a ha, if_pos hp]
      exact h.slot_eq ha

/-- One element is taken out. -/
theorem remove [DecidableEq κ] (h : Filed key as slot content) (hk : slot k = some i) :
    Filed key (as.filter (key · ≠ k)) (update slot k none) (update content i none) := by
  obtain ⟨b, hb, rfl⟩ := (h.slot_eq_some_iff k i).mp hk
  refine h.restrict ?_ ?_ ?_
  · intro j
    by_cases hj : j = i
    · subst hj
      simp [hb, Option.filter_some]
    · rw [Function.update_of_ne hj]
      cases ha : content j with
      | none => rfl
      | some a =>
        have hne : key a ≠ key b := fun heq => hj (h.slots_eq ha hb heq)
        simp [hne, Option.filter_some]
  · intro j a _
    simp [Function.update_apply, ite_not]
  · intro k' hk'
    rw [Function.update_apply, hk', ite_self]

/-- What is in the slots is changed, but not the keys. -/
theorem map (h : Filed key as slot content) {f : α → α} (hf : ∀ a, key (f a) = key a)
    {content' : Nat → Option α} (hcontent : ∀ i, content' i = (content i).map f) :
    Filed key (as.map f) slot content' where
  mem_iff a := by
    simp only [List.mem_map, h.mem_iff, hcontent, Option.map_eq_some_iff]
    constructor
    · rintro ⟨b, ⟨i, hi⟩, rfl⟩
      exact ⟨i, b, hi, rfl⟩
    · rintro ⟨i, b, hi, rfl⟩
      exact ⟨b, ⟨i, hi⟩, rfl⟩
  slot_eq_some_iff k i := by
    rw [h.slot_eq_some_iff, hcontent]
    constructor
    · rintro ⟨a, ha, rfl⟩
      exact ⟨f a, by rw [ha, Option.map_some], hf a⟩
    · rintro ⟨_, hfa, rfl⟩
      obtain ⟨a, ha, rfl⟩ := Option.map_eq_some_iff.mp hfa
      exact ⟨a, ha, (hf a).symm⟩

/-- What is in one slot is changed. -/
theorem change [DecidableEq κ] (h : Filed key as slot content) (hk : slot k = some i) {f : α → α}
    (hf : ∀ a, key (f a) = key a) :
    Filed key (as.map fun a => if key a = k then f a else a) slot
      (update content i ((content i).map f)) := by
  have hkey (a : α) : key (if key a = k then f a else a) = key a := by
    split
    · exact hf a
    · rfl
  refine h.map hkey fun j => ?_
  by_cases hj : j = i
  · subst hj
    obtain ⟨b, hb, rfl⟩ := (h.slot_eq_some_iff k j).mp hk
    simp [hb]
  · rw [Function.update_of_ne hj]
    cases ha : content j with
    | none => rfl
    | some a =>
      have hne : key a ≠ k := fun heq => hj (Option.some.inj ((heq ▸ h.slot_eq ha).symm.trans hk))
      simp [hne]

end Filed

end FiniteAutomata
