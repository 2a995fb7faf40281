/-!
Decimal numbers, exact and as the nearest double. `Decimal.ofDigits` reads what is written before
and behind a point, and `Decimal.toFloat` rounds to the nearest double, to infinity beyond the
largest one.
-/
namespace FiniteAutomata

/-- The number `mantissa * 10 ^ exponent`, or its negative. -/
structure Decimal where
  negative : Bool
  mantissa : Nat
  exponent : Int
deriving DecidableEq, Repr

namespace Decimal

def digitValue (c : Char) : Nat := c.toNat - '0'.toNat

/-- The number that a row of digits writes. -/
def natural (digits : List Char) : Nat := digits.foldl (fun n c => 10 * n + digitValue c) 0

/-- The number written with these digits before the point and these behind it. -/
def ofDigits (negative : Bool) (whole fraction : List Char) (exponent : Int) : Decimal :=
  ⟨negative, natural (whole ++ fraction), exponent - fraction.length⟩

/-- How many digits a number has. Zero has one. -/
def digitCount (n : Nat) : Nat := (Nat.toDigits 10 n).length

/-- The nearest double to the absolute value. Numbers of a size that is out of the question are
told by their digits alone. -/
def magnitude (d : Decimal) : Float :=
  let size := digitCount d.mantissa + d.exponent
  if d.mantissa = 0 then 0.0
  else if size > 310 then 1.0 / 0.0
  else if size < -330 then 0.0
  else Float.ofScientific d.mantissa (d.exponent < 0) d.exponent.natAbs

def toFloat (d : Decimal) : Float := if d.negative then -d.magnitude else d.magnitude

/-- Whether the text between the signs of a number is digits with at most one point among them.
Gives the digits before and behind the point. -/
def splitPoint? (text : List Char) : Option (List Char × List Char) :=
  let whole := text.takeWhile Char.isDigit
  match text.dropWhile Char.isDigit with
  | [] => some (whole, [])
  | c :: fraction =>
    if c = '.' ∧ fraction.all Char.isDigit ∧ (!whole.isEmpty || !fraction.isEmpty) then
      some (whole, fraction)
    else none

/-- Reads digits with at most one point. -/
def ofText? (text : String) : Option Decimal :=
  (splitPoint? text.toList).map fun (whole, fraction) => ofDigits false whole fraction 0

end Decimal

end FiniteAutomata
