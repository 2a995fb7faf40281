import FiniteAutomata.Decimal.Basic

/-!
The shortest decimal that reads back as a given double. The numbers that round to a double form an
interval around it. For one digit, two digits and so on, the two neighbours of the double among the
decimals of so many digits are tried; the first to lie in the interval is taken, of two the nearer,
and of two equally near the one with the even last digit.
-/
namespace FiniteAutomata.Decimal

/-- The positive numbers that round to a double, in units of `2 ^ exponent`. -/
structure Interval where
  low : Nat
  middle : Nat
  high : Nat
  exponent : Int
  closed : Bool

namespace Interval

/-- The weight of the bit in front of the fraction: two to the power 52. -/
def leadingBit : Nat := 0x10000000000000

/-- The interval of a positive finite double given by its bits. The units are a quarter of the
distance between doubles, because below a power of two doubles lie twice as close. -/
def ofBits (bits : Nat) : Interval :=
  let biased := bits / leadingBit % 0x800
  let fraction := bits % leadingBit
  let significand := if biased = 0 then fraction else fraction + leadingBit
  let exponent : Int := (if biased = 0 then 1 else biased : Nat) - 1075
  let low := if fraction = 0 ∧ biased > 1 then 4 * significand - 1 else 4 * significand - 2
  ⟨low, 4 * significand, 4 * significand + 2, exponent - 2, significand % 2 = 0⟩

/-- Factors `a` and `b` such that `u` units are `u * a / b` steps of `10 ^ step`. -/
def scale (i : Interval) (step : Int) : Nat × Nat :=
  (Nat.pow 2 i.exponent.toNat * Nat.pow 10 (-step).toNat,
    Nat.pow 2 (-i.exponent).toNat * Nat.pow 10 step.toNat)

/-- Whether `d` steps lie in the interval. -/
def holds (i : Interval) (step : Int) (d : Nat) : Bool :=
  let (a, b) := i.scale step
  if i.closed then i.low * a ≤ d * b && d * b ≤ i.high * a
  else i.low * a < d * b && d * b < i.high * a

/-- The decimal in the interval nearest to its middle, among the multiples of `10 ^ step`. -/
def nearest? (i : Interval) (step : Int) : Option Nat :=
  let (a, b) := i.scale step
  let below := i.middle * a / b
  let above := below + 1
  let gapBelow := i.middle * a - below * b
  let gapAbove := above * b - i.middle * a
  match i.holds step below, i.holds step above with
  | true, true =>
    some (if gapBelow < gapAbove || (gapBelow = gapAbove && below % 2 = 0) then below else above)
  | true, false => some below
  | false, true => some above
  | false, false => none

/-- The exponent of the greatest power of ten that is not above the middle. -/
def magnitude (i : Interval) : Int :=
  let (a, b) := i.scale 0
  let guess : Int := digitCount (i.middle * a) - digitCount b
  let (a, b) := i.scale guess
  if b ≤ i.middle * a then guess else guess - 1

/-- The decimal with the fewest digits in the interval: digits and the place of the last one. -/
def shortest (i : Interval) : Nat × Int :=
  let steps := (List.range 17).map fun n : Nat => i.magnitude - n
  (steps.findSome? fun step => (i.nearest? step).map (·, step)).getD (0, 0)

end Interval

/-- Moves the zeros at the end of a number into its exponent. -/
def dropZeros : Nat → Nat → Int → Nat × Int
  | 0, m, e => (m, e)
  | n + 1, m, e => if m ≠ 0 ∧ m % 10 = 0 then dropZeros n (m / 10) (e + 1) else (m, e)

/-- The weight of the bit for the sign: two to the power 63. -/
def signBit : Nat := 0x8000000000000000

/-- The shortest decimal that rounds to a finite double. -/
def ofFloat (x : Float) : Decimal :=
  let bits := x.toBits.toNat
  let negative := signBit ≤ bits
  let bits := bits % signBit
  if bits = 0 then ⟨negative, 0, 0⟩
  else
    let (mantissa, exponent) := (Interval.ofBits bits).shortest
    let (mantissa, exponent) := dropZeros (digitCount mantissa) mantissa exponent
    ⟨negative, mantissa, exponent⟩

end FiniteAutomata.Decimal
