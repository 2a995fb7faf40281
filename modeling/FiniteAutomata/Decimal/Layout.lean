import FiniteAutomata.Decimal.Basic

/-!
How a decimal is written out: with its digits in place while it is of moderate size, and otherwise
as one digit, a fraction and a signed power of ten.
-/
namespace FiniteAutomata.Decimal

/-- The powers of ten at the first digit for which a number is written with its digits in place,
ends included. -/
structure Layout where
  least : Int
  greatest : Int

/-- Digits in place. There is a digit on both sides of the point. -/
def inPlace (digits : List Char) (power : Int) : List Char :=
  if power < 0 then '0' :: '.' :: (List.replicate (-power - 1).toNat '0' ++ digits)
  else
    let places := power.toNat + 1
    let whole := digits.take places
    let fraction := digits.drop places
    whole ++ List.replicate (places - whole.length) '0' ++ '.' ::
      (if fraction.isEmpty then ['0'] else fraction)

/-- One digit before the point, which is left out with nothing behind it. -/
def scientific (digits : List Char) (power : Int) : List Char :=
  let fraction := digits.drop 1
  digits.take 1 ++ (if fraction.isEmpty then [] else '.' :: fraction) ++
    ['e', if power < 0 then '-' else '+'] ++ Nat.toDigits 10 power.natAbs

def Layout.text (l : Layout) (d : Decimal) : String :=
  let digits := Nat.toDigits 10 d.mantissa
  let power := d.exponent + digits.length - 1
  let body :=
    if d.mantissa = 0 then ['0', '.', '0']
    else if l.least ≤ power ∧ power ≤ l.greatest then inPlace digits power
    else scientific digits power
  String.ofList (if d.negative then '-' :: body else body)

end FiniteAutomata.Decimal
