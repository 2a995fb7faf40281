/-!
Tokens, by which clients name their sessions, and where a store gets new ones from.
-/
namespace FiniteAutomata.Session

/-- A token is a text. A text that a client made up is known as it is written. Texts of which it
only matters which are the same are told apart by a number. -/
inductive Token
  | drawn (number : Nat)
  | given (text : String)
deriving DecidableEq, Repr

def Token.toText : Token → String
  | .drawn number => "$" ++ toString number
  | .given text => text

/-- A number above those of all tokens that have one. -/
def Token.bound : List Token → Nat
  | [] => 0
  | .drawn number :: ts => max (number + 1) (bound ts)
  | .given _ :: ts => bound ts

theorem Token.drawn_notMem {ts : List Token} {n : Nat} (hn : bound ts ≤ n) : .drawn n ∉ ts := by
  induction ts with
  | nil => exact List.not_mem_nil
  | cons t ts ih =>
    rw [List.mem_cons, not_or]
    cases t with
    | drawn number =>
      rw [bound] at hn
      refine ⟨fun heq => ?_, ih (Nat.le_trans (Nat.le_max_right ..) hn)⟩
      have hlt : number + 1 ≤ n := Nat.le_trans (Nat.le_max_left ..) hn
      exact Nat.ne_of_gt hlt (Token.drawn.inj heq)
    | given text => exact ⟨nofun, ih hn⟩

/-- A row of tokens without end. A token may come in it again and again, also one that a client has
made up. But whichever tokens are known and wherever one begins, among as many as `patience` says
there is one that is not known. -/
structure Generator where
  draw : Nat → Token
  patience : List Token → Nat → Nat
  exists_new : ∀ known n, ∃ i, i < patience known n ∧ draw (n + i) ∉ known

namespace Generator

/-- The number of the first token from `n` on that is not known, if it is among the next `fuel`
ones. -/
def firstNew (generator : Generator) (known : List Token) : Nat → Nat → Nat
  | 0, n => n
  | fuel + 1, n => if generator.draw n ∈ known then firstNew generator known fuel (n + 1) else n

/-- Tokens are drawn from `n` on until one is not known. -/
def next (generator : Generator) (known : List Token) (n : Nat) : Nat :=
  generator.firstNew known (generator.patience known n) n

/-- The generator that numbers its tokens. -/
def numbered : Generator where
  draw := .drawn
  patience known _ := Token.bound known + 1
  exists_new known n :=
    ⟨Token.bound known, Nat.lt_succ_self _, Token.drawn_notMem (Nat.le_add_left _ n)⟩

/-- A token is put before those of a generator. -/
def preceded (t : Token) (generator : Generator) : Generator where
  draw
    | 0 => t
    | n + 1 => generator.draw n
  patience known n := generator.patience known (n - 1) + 1
  exists_new known n := by
    obtain ⟨i, hi, hnew⟩ := generator.exists_new known (n - 1)
    cases n with
    | zero => exact ⟨i + 1, Nat.succ_lt_succ hi, hnew⟩
    | succ n => exact ⟨i, Nat.lt_succ_of_lt hi, Nat.succ_add n i ▸ hnew⟩

end Generator

end FiniteAutomata.Session
