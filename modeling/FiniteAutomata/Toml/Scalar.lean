import FiniteAutomata.Decimal.Basic
import FiniteAutomata.Text.Hexadecimal

/-!
The values of TOML documents that are written without quotes and brackets: truth values, numbers,
dates and times. A number of any size may be written, and `isNumberInRange` tells whether it has a
value.
-/
namespace FiniteAutomata.Toml

/-- Whether digits follow a digit, with single underscores between them. -/
def moreDigits (isDigit : Char → Bool) : List Char → Bool
  | [] => true
  | '_' :: c :: cs => isDigit c && moreDigits isDigit cs
  | c :: cs => isDigit c && moreDigits isDigit cs

/-- Digits with single underscores between them. -/
def areDigits (isDigit : Char → Bool) : List Char → Bool
  | [] => false
  | c :: cs => isDigit c && moreDigits isDigit cs

/-- The number that digits to a base write. -/
def valueOf (base : Nat) (cs : List Char) : Nat :=
  cs.foldl (fun n c => if c = '_' then n else base * n + (Text.hexValue? c).getD 0) 0

/-- Digits to a base, which may all be missing. -/
def isBased (base : Nat) (cs : List Char) : Bool :=
  cs.isEmpty || areDigits (fun c => (Text.hexValue? c).any (· < base)) cs

/-- A decimal number without a sign. Only zero begins with a zero. -/
def isWhole (cs : List Char) : Bool :=
  areDigits Char.isDigit cs && (cs.head? ≠ some '0' || cs.length = 1)

def isNegative (cs : List Char) : Bool := cs.head? = some '-'

def dropSign : List Char → List Char
  | '+' :: cs => cs
  | '-' :: cs => cs
  | cs => cs

def isInteger (cs : List Char) : Bool :=
  match cs with
  | '0' :: 'x' :: ds => isBased 16 ds
  | '0' :: 'o' :: ds => isBased 8 ds
  | '0' :: 'b' :: ds => isBased 2 ds
  | _ => isWhole (dropSign cs)

/-- The numbers of 128 bits end before this one. -/
def wholeLimit : Nat := 0x100000000000000000000000000000000

/-- Whether a whole number has a digit, and 128 bits at most, one of which is for the sign below
zero. -/
def isInIntegerRange (cs : List Char) : Bool :=
  match cs with
  | '0' :: 'x' :: ds => !ds.isEmpty && valueOf 16 ds < wholeLimit
  | '0' :: 'o' :: ds => !ds.isEmpty && valueOf 8 ds < wholeLimit
  | '0' :: 'b' :: ds => !ds.isEmpty && valueOf 2 ds < wholeLimit
  | '-' :: ds => 2 * valueOf 10 ds ≤ wholeLimit
  | _ => valueOf 10 (dropSign cs) < wholeLimit

def dropUnderscores (cs : List Char) : List Char := cs.filter (· ≠ '_')

def isPowerMark (c : Char) : Bool := c = 'e' || c = 'E'

/-- The power of ten behind its mark. -/
def power? (cs : List Char) : Option Int :=
  let ds := dropSign cs
  if areDigits Char.isDigit ds then
    let n : Int := Decimal.natural (dropUnderscores ds)
    some (if isNegative cs then -n else n)
  else none

/-- A whole number with a fraction, with a power of ten, or with both. -/
def decimal? (cs : List Char) : Option Decimal :=
  let whole := cs.takeWhile fun c => c ≠ '.' && !isPowerMark c
  if isWhole whole then
    let make (part : List Char) (power : Int) : Decimal :=
      .ofDigits false (dropUnderscores whole) (dropUnderscores part) power
    match cs.drop whole.length with
    | [] => none
    | '.' :: rest =>
      let part := rest.takeWhile fun c => !isPowerMark c
      if areDigits Char.isDigit part then
        match rest.drop part.length with
        | [] => some (make part 0)
        | _ :: power => (power? power).map (make part)
      else none
    | _ :: power => (power? power).map (make [])
  else none

/-- A number with a fraction or a power of ten, or one of the words for what is no finite number. -/
def isFloat (cs : List Char) : Bool :=
  let body := dropSign cs
  body = ['i', 'n', 'f'] || body = ['n', 'a', 'n'] || (decimal? body).isSome

/-- Whether a number has a value: a whole number of 128 bits, or one that rounds to a finite
double. -/
def isNumberInRange (cs : List Char) : Bool :=
  if isInteger cs then isInIntegerRange cs
  else (decimal? (dropSign cs)).all (·.toFloat.isFinite)

/-- The number that two digits write, if it is in a range. -/
def twoDigits? (lo hi : Nat) (a b : Char) : Option Nat :=
  if a.isDigit && b.isDigit then
    let n := 10 * (a.toNat - 48) + (b.toNat - 48)
    if lo ≤ n && n ≤ hi then some n else none
  else none

def isLeapYear (y : Nat) : Bool := y % 4 = 0 && (y % 100 ≠ 0 || y % 400 = 0)

def daysIn (year month : Nat) : Nat :=
  if month = 2 then (if isLeapYear year then 29 else 28)
  else if month = 4 || month = 6 || month = 9 || month = 11 then 30
  else 31

/-- What is behind a date. -/
def date? : List Char → Option (List Char)
  | y₁ :: y₂ :: y₃ :: y₄ :: '-' :: m₁ :: m₂ :: '-' :: d₁ :: d₂ :: rest => do
    let century ← twoDigits? 0 99 y₁ y₂
    let year ← twoDigits? 0 99 y₃ y₄
    let month ← twoDigits? 1 12 m₁ m₂
    let _ ← twoDigits? 1 (daysIn (100 * century + year) month) d₁ d₂
    return rest
  | _ => none

/-- What is behind a fraction of a second, if there is one. -/
def fraction? : List Char → Option (List Char)
  | '.' :: c :: rest => if c.isDigit then some (rest.dropWhile Char.isDigit) else none
  | '.' :: [] => none
  | rest => some rest

/-- What is behind the seconds of a time, which may be missing. -/
def seconds? : List Char → Option (List Char)
  | ':' :: s₁ :: s₂ :: rest => do
    let _ ← twoDigits? 0 60 s₁ s₂
    fraction? rest
  | ':' :: _ => none
  | rest => some rest

/-- What is behind a time of day. -/
def time? : List Char → Option (List Char)
  | h₁ :: h₂ :: ':' :: m₁ :: m₂ :: rest => do
    let _ ← twoDigits? 0 23 h₁ h₂
    let _ ← twoDigits? 0 59 m₁ m₂
    seconds? rest
  | _ => none

/-- A difference from universal time, or none. -/
def isOffset : List Char → Bool
  | [] => true
  | ['Z'] => true
  | ['z'] => true
  | [sign, h₁, h₂, ':', m₁, m₂] =>
    (sign = '+' || sign = '-') && (twoDigits? 0 23 h₁ h₂).isSome && (twoDigits? 0 59 m₁ m₂).isSome
  | _ => false

/-- A date, a time of day, or both with an offset or without. -/
def isDateTime (cs : List Char) : Bool :=
  match date? cs with
  | some [] => true
  | some (c :: rest) =>
    (c = 'T' || c = 't' || c = ' ') && (time? rest).any isOffset
  | none => time? cs = some []

def boolean? (cs : List Char) : Option Bool :=
  if cs = ['t', 'r', 'u', 'e'] then some true
  else if cs = ['f', 'a', 'l', 's', 'e'] then some false
  else none

/-- A character that an unquoted value may have. -/
def isScalarChar (c : Char) : Bool :=
  c.isAlphanum || c = '+' || c = '-' || c = '_' || c = '.' || c = ':'

/-- The unquoted value at the head of a text. A date may have a time behind a blank. -/
def scalarChars (cs : List Char) : List Char :=
  let head := cs.takeWhile isScalarChar
  match cs.drop head.length with
  | ' ' :: c :: rest =>
    if c.isDigit && date? head = some [] then head ++ ' ' :: (c :: rest).takeWhile isScalarChar
    else head
  | _ => head

end FiniteAutomata.Toml
