/-!
Finite sets kept as strictly increasing lists. A set has one representation and is listed in
order, so two sets with the same members are equal (`ext`), and `insert` and `ofList` are known
by their members alone (`mem_insert`, `mem_ofList`).
-/
namespace FiniteAutomata

/-- A finite set, listed in strictly increasing order. -/
structure OrderedSet (α : Type) [Ord α] where
  toList : List α
  increasing : toList.Pairwise fun a b => compare a b = .lt

namespace OrderedSet

variable {α : Type} [Ord α]

/-- Puts an element where it belongs in an increasing list that may already hold it. -/
def insertInto (a : α) : List α → List α
  | [] => [a]
  | b :: bs =>
    match compare a b with
    | .lt => a :: b :: bs
    | .eq => b :: bs
    | .gt => b :: insertInto a bs

theorem mem_insertInto [Std.LawfulEqOrd α] (x a : α) (bs : List α) :
    x ∈ insertInto a bs ↔ x = a ∨ x ∈ bs := by
  induction bs with
  | nil => simp [insertInto]
  | cons b bs ih =>
    unfold insertInto
    split
    · simp
    · rename_i h
      have h := Std.compare_eq_iff_eq.1 h
      simp [h]
    · simp only [List.mem_cons, ih]
      grind

theorem pairwise_insertInto [Std.TransOrd α] [Std.LawfulEqOrd α] (a : α) {bs : List α}
    (h : bs.Pairwise fun a b => compare a b = .lt) :
    (insertInto a bs).Pairwise fun a b => compare a b = .lt := by
  induction bs with
  | nil => simp [insertInto]
  | cons b bs ih =>
    obtain ⟨hb, hbs⟩ := List.pairwise_cons.1 h
    unfold insertInto
    split
    · rename_i hab
      refine List.pairwise_cons.2 ⟨fun x hx => ?_, h⟩
      rcases List.mem_cons.1 hx with rfl | hx
      · exact hab
      · exact Std.TransCmp.lt_trans hab (hb x hx)
    · exact h
    · rename_i hab
      refine List.pairwise_cons.2 ⟨fun x hx => ?_, ih hbs⟩
      rcases (mem_insertInto x a bs).1 hx with rfl | hx
      · exact Std.OrientedCmp.gt_iff_lt.1 hab
      · exact hb x hx

def empty : OrderedSet α := ⟨[], .nil⟩

instance : EmptyCollection (OrderedSet α) := ⟨empty⟩

instance : Inhabited (OrderedSet α) := ⟨empty⟩

instance : Membership α (OrderedSet α) := ⟨fun s a => a ∈ s.toList⟩

theorem mem_def {a : α} {s : OrderedSet α} : a ∈ s ↔ a ∈ s.toList := Iff.rfl

instance [DecidableEq α] (a : α) (s : OrderedSet α) : Decidable (a ∈ s) :=
  inferInstanceAs (Decidable (a ∈ s.toList))

instance [DecidableEq α] : DecidableEq (OrderedSet α) := fun s t =>
  decidable_of_iff (s.toList = t.toList) ⟨fun h => by cases s; cases t; simp_all, fun h => h ▸ rfl⟩

def size (s : OrderedSet α) : Nat := s.toList.length

def isEmpty (s : OrderedSet α) : Bool := s.toList.isEmpty

@[simp]
theorem notMem_empty (a : α) : ¬a ∈ (∅ : OrderedSet α) := List.not_mem_nil

variable [Std.TransOrd α] [Std.LawfulEqOrd α]

def insert (a : α) (s : OrderedSet α) : OrderedSet α :=
  ⟨insertInto a s.toList, pairwise_insertInto a s.increasing⟩

def ofList (as : List α) : OrderedSet α := as.foldr insert empty

@[simp]
theorem mem_insert {x a : α} {s : OrderedSet α} : x ∈ insert a s ↔ x = a ∨ x ∈ s :=
  mem_insertInto x a s.toList

@[simp]
theorem mem_ofList {x : α} {as : List α} : x ∈ ofList as ↔ x ∈ as := by
  induction as with
  | nil => exact ⟨nofun, nofun⟩
  | cons a as ih =>
    rw [List.mem_cons, ← ih]
    exact mem_insert

/-- Two increasing lists with the same members are equal. -/
theorem eq_of_mem_iff {as bs : List α} (ha : as.Pairwise fun a b => compare a b = .lt)
    (hb : bs.Pairwise fun a b => compare a b = .lt) (h : ∀ x, x ∈ as ↔ x ∈ bs) : as = bs := by
  induction as generalizing bs with
  | nil =>
    cases bs with
    | nil => rfl
    | cons b bs => exact absurd ((h b).2 (List.mem_cons_self ..)) List.not_mem_nil
  | cons a as ih =>
    cases bs with
    | nil => exact absurd ((h a).1 (List.mem_cons_self ..)) List.not_mem_nil
    | cons b bs =>
      obtain ⟨ha₁, ha₂⟩ := List.pairwise_cons.1 ha
      obtain ⟨hb₁, hb₂⟩ := List.pairwise_cons.1 hb
      have irrefl (x : α) : compare x x ≠ .lt := by simp
      have head : a = b := by
        rcases List.mem_cons.1 ((h a).1 (List.mem_cons_self ..)) with hab | hab
        · exact hab
        rcases List.mem_cons.1 ((h b).2 (List.mem_cons_self ..)) with hba | hba
        · exact hba.symm
        exact absurd (Std.TransCmp.lt_trans (ha₁ b hba) (hb₁ a hab)) (irrefl a)
      subst head
      congr 1
      refine ih ha₂ hb₂ fun x => ⟨fun hx => ?_, fun hx => ?_⟩
      · rcases List.mem_cons.1 ((h x).1 (List.mem_cons_of_mem _ hx)) with rfl | hx'
        · exact absurd (ha₁ x hx) (irrefl x)
        · exact hx'
      · rcases List.mem_cons.1 ((h x).2 (List.mem_cons_of_mem _ hx)) with rfl | hx'
        · exact absurd (hb₁ x hx) (irrefl x)
        · exact hx'

@[ext]
theorem ext {s t : OrderedSet α} (h : ∀ x, x ∈ s ↔ x ∈ t) : s = t := by
  obtain ⟨as, ha⟩ := s
  obtain ⟨bs, hb⟩ := t
  have : as = bs := eq_of_mem_iff ha hb h
  subst this
  rfl

end OrderedSet

end FiniteAutomata
