import FiniteAutomata.Decimal.Basic

/-!
Numbers as JSON texts write them, and the doubles that they stand for. A double is found in steps
that round one after the other: first the leading digits, as far as 64 bits hold them, then the
power of ten. So it is near the number, and not always nearest.
-/
namespace FiniteAutomata.Json

/-- A number as it is written: the digits before its point, those behind it, which are none without
a point, and its power of ten, if it has one. -/
structure Numeral where
  negative : Bool
  whole : List Char
  fraction : List Char
  power : Option Int
deriving DecidableEq, Repr

namespace Numeral

/-- The number itself. -/
def toDecimal (n : Numeral) : Decimal := .ofDigits n.negative n.whole n.fraction (n.power.getD 0)

/-- The natural number of 64 bits that a number without sign, point and power of ten is. -/
def natural? (n : Numeral) : Option Nat :=
  let value := Decimal.natural n.whole
  if n.negative || !n.fraction.isEmpty || n.power.isSome || UInt64.size ≤ value then none
  else some value

/-- Puts digits behind a number up to the first for which 64 bits are too few. Gives the number
that comes out, and how many digits went into it. -/
def extend (n : Nat) : List Char → Nat × Nat
  | [] => (n, 0)
  | d :: ds =>
    let next := 10 * n + Decimal.digitValue d
    if next < UInt64.size then
      let (m, count) := extend next ds
      (m, count + 1)
    else (n, 0)

/-- The leading digits as a whole number, and the power of ten that goes with it. Of the other
digits, those before the point count for the power alone. -/
def leading (n : Numeral) : Nat × Int :=
  let (m, before) := extend 0 n.whole
  let (m, behind) := extend m n.fraction
  (m, n.power.getD 0 + n.whole.length - before - behind)

/-- The greatest power of ten that is a double. -/
def maxPower : Nat := 308

/-- The double nearest to a whole number with zeros behind it. -/
def rounded (m zeros : Nat) : Float := Decimal.toFloat ⟨false, m, zeros⟩

/-- A double moved so many places up, if it does not become too large. -/
def raised? (x : Float) (places : Nat) : Option Float :=
  if x == 0.0 then some x
  else if maxPower < places then none
  else
    let y := x * rounded 1 places
    if y.isFinite then some y else none

/-- A double moved so many places down, in strides of the greatest power of ten. -/
def lowered (x : Float) (places : Nat) : Float :=
  if x == 0.0 then x
  else if maxPower < places then lowered (x / rounded 1 maxPower) (places - maxPower)
  else x / rounded 1 places
termination_by places
decreasing_by simp only [maxPower] at *; omega

/-- The double that a number stands for, if the number is not too large. -/
def toFloat? (n : Numeral) : Option Float :=
  let (m, power) := n.leading
  let x := rounded m 0
  let size := if power < 0 then some (lowered x power.natAbs) else raised? x power.natAbs
  size.map fun x => if n.negative then -x else x

end Numeral

end FiniteAutomata.Json
