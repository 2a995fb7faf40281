import FiniteAutomata.Proofs.Graph.Numbers
import FiniteAutomata.Proofs.Session.Move

/-!
Runs of commands on a store: the store that a run leads to (`after`), and its moments in their order
(`history`), each with the numbers that were given out in it. What every command keeps a run keeps
(`after_induction`). What some moments bring and others take away is there at the end of a run if it
was brought and has not been taken away since (`after_iff`).
-/
namespace FiniteAutomata.Session

/-- A command and the store on which it is carried out. -/
structure Moment where
  before : Store
  command : Command

namespace Moment

def answer (m : Moment) : Except Error Answer := (m.before.perform m.command).1

def after (m : Moment) : Store := (m.before.perform m.command).2

/-- The numbers of states that are given out. -/
def states (m : Moment) : List StateId := m.before.supply.statesUntil m.after.supply

def transitions (m : Moment) : List TransitionId := m.before.supply.transitionsUntil m.after.supply

theorem move (m : Moment) : Store.Move m.before m.command m.after := Store.move_perform ..

/-- One of the moments brings something, and none after it takes that away. -/
def Lasts (comes goes : Moment → Prop) (ms : List Moment) : Prop :=
  ∃ earlier m later, ms = earlier ++ m :: later ∧ comes m ∧ ∀ m' ∈ later, ¬goes m'

variable {comes goes : Moment → Prop}

@[simp]
theorem not_lasts_nil : ¬Lasts comes goes [] := by
  rintro ⟨earlier, m, later, hms, -⟩
  exact List.append_ne_nil_of_right_ne_nil earlier (List.cons_ne_nil m later) hms.symm

theorem lasts_cons {m : Moment} {ms : List Moment} :
    Lasts comes goes (m :: ms) ↔ (comes m ∧ ∀ m' ∈ ms, ¬goes m') ∨ Lasts comes goes ms := by
  constructor
  · rintro ⟨earlier, m', later, hms, hcomes, hkept⟩
    rcases List.cons_eq_append_iff.mp hms with ⟨-, hfirst⟩ | ⟨earlier, -, hms⟩
    · cases hfirst
      exact Or.inl ⟨hcomes, hkept⟩
    · exact Or.inr ⟨earlier, m', later, hms, hcomes, hkept⟩
  · rintro (⟨hcomes, hkept⟩ | ⟨earlier, m', later, rfl, hcomes, hkept⟩)
    · exact ⟨[], m, ms, rfl, hcomes, hkept⟩
    · exact ⟨m :: earlier, m', later, rfl, hcomes, hkept⟩

end Moment

namespace Store

variable {s : Store}

/-- The store after a row of commands. -/
def after (s : Store) (cs : List Command) : Store := (s.performAll cs).2

/-- The moments of a run. -/
def history (s : Store) : List Command → List Moment
  | [] => []
  | c :: cs => ⟨s, c⟩ :: (s.perform c).2.history cs

@[simp]
theorem after_nil (s : Store) : s.after [] = s := rfl

@[simp]
theorem after_cons (s : Store) (c : Command) (cs : List Command) :
    s.after (c :: cs) = (s.perform c).2.after cs := rfl

@[simp]
theorem history_nil (s : Store) : s.history [] = [] := rfl

@[simp]
theorem history_cons (s : Store) (c : Command) (cs : List Command) :
    s.history (c :: cs) = ⟨s, c⟩ :: (s.perform c).2.history cs := rfl

/-- A moment of a run is one of its commands on the store that the commands before it lead to. -/
theorem exists_of_mem_history {cs : List Command} {m : Moment} (hm : m ∈ s.history cs) :
    ∃ done rest, cs = done ++ m.command :: rest ∧ m.before = s.after done := by
  induction cs generalizing s with
  | nil => exact absurd hm List.not_mem_nil
  | cons c cs ih =>
    rcases List.mem_cons.mp hm with rfl | hm
    · exact ⟨[], cs, rfl, rfl⟩
    · obtain ⟨done, rest, rfl, hbefore⟩ := ih hm
      exact ⟨c :: done, rest, rfl, hbefore⟩

/-- What every command keeps a run keeps. -/
theorem after_induction {P : Store → Prop} (hstep : ∀ s c, P s → P (s.perform c).2)
    (cs : List Command) (hs : P s) : P (s.after cs) := by
  induction cs generalizing s with
  | nil => exact hs
  | cons c cs ih => exact ih (hstep s c hs)

/-- What every moment of a run keeps holds before each of them and at the end. -/
theorem forall_history {P : Store → Prop} {cs : List Command} (hs : P s)
    (hstep : ∀ m ∈ s.history cs, P m.before → P m.after) :
    (∀ m ∈ s.history cs, P m.before) ∧ P (s.after cs) := by
  induction cs generalizing s with
  | nil => exact ⟨fun m hm => absurd hm List.not_mem_nil, hs⟩
  | cons c cs ih =>
    have hnext : P (s.perform c).2 := hstep ⟨s, c⟩ (List.mem_cons_self ..) hs
    obtain ⟨hbefore, hend⟩ := ih hnext fun m hm => hstep m (List.mem_cons_of_mem _ hm)
    exact ⟨List.forall_mem_cons.mpr ⟨hs, hbefore⟩, hend⟩

theorem after_iff {P : Store → Prop} {comes goes : Moment → Prop} {cs : List Command}
    (hstep : ∀ m ∈ s.history cs, (P m.after ↔ P m.before ∧ ¬goes m ∨ comes m)) :
    P (s.after cs) ↔
      (P s ∧ ∀ m ∈ s.history cs, ¬goes m) ∨ Moment.Lasts comes goes (s.history cs) := by
  induction cs generalizing s with
  | nil => simp
  | cons c cs ih =>
    have hfirst : P (s.perform c).2 ↔ P s ∧ ¬goes ⟨s, c⟩ ∨ comes ⟨s, c⟩ :=
      hstep ⟨s, c⟩ (List.mem_cons_self ..)
    rw [after_cons, ih fun m hm => hstep m (List.mem_cons_of_mem _ hm), hfirst, history_cons,
      List.forall_mem_cons, Moment.lasts_cons, or_and_right, and_assoc, or_assoc]

theorem holds_of_lasts {P : Store → Prop} {comes goes : Moment → Prop} {cs : List Command}
    (hcomes : ∀ m ∈ s.history cs, comes m → P m.after)
    (hstep : ∀ m ∈ s.history cs, ¬goes m → P m.before → P m.after)
    (hlasts : Moment.Lasts comes goes (s.history cs)) : P (s.after cs) := by
  induction cs generalizing s with
  | nil => exact absurd hlasts Moment.not_lasts_nil
  | cons c cs ih =>
    obtain ⟨hfirst, hrest⟩ := List.forall_mem_cons.mp hcomes
    obtain ⟨-, hsteps⟩ := List.forall_mem_cons.mp hstep
    rcases Moment.lasts_cons.mp hlasts with ⟨hcome, hkept⟩ | hlater
    · have hnext : P (s.perform c).2 := hfirst hcome
      exact (forall_history hnext fun m hm => hsteps m hm (hkept m hm)).2
    · exact ih hrest hsteps hlater

theorem Sound.after (hs : s.Sound) (cs : List Command) : (s.after cs).Sound :=
  after_induction (fun s c hs => (move_perform s c).sound hs) cs hs

theorem AllMade.after (hs : s.AllMade) (cs : List Command) : (s.after cs).AllMade :=
  after_induction (fun _ c hs => hs.perform c) cs hs

theorem allMade_empty (defaultName : String) (supply : Supply) (generator : Generator) :
    (emptyWith generator defaultName supply).AllMade :=
  fun _ hg => absurd hg List.not_mem_nil

theorem supply_le_after (s : Store) (cs : List Command) : s.supply ≤ (s.after cs).supply := by
  have hstep (s₁ : Store) (c : Command) (hle : s.supply ≤ s₁.supply) :
      s.supply ≤ (s₁.perform c).2.supply := le_trans hle (move_perform s₁ c).supply_le
  exact after_induction (P := fun s₁ => s.supply ≤ s₁.supply) hstep cs (le_refl s.supply)

end Store

end FiniteAutomata.Session
