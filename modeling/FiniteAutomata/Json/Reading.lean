import FiniteAutomata.Json.Numeral
import FiniteAutomata.Text.Hexadecimal

/-!
Texts read as JSON. Any text has a reading: a tree of values in the order of the text that breaks
off where the text stops being JSON, together with what was wrong there. Reading for a purpose then
walks this tree from the left, so whatever is wrong first is what is reported.

A string is a row of units. A unit is a character, or half of a surrogate pair whose other half is
missing; such a string can be passed over, but is no text.
-/
namespace FiniteAutomata.Json

/-- Where a text breaks off: at its end, at its end inside a number, or at something wrong. -/
inductive Halt
  | ended
  | endedInNumber
  | malformed
deriving DecidableEq, Repr

/-- A character, or nothing for an unpaired surrogate. -/
abbrev Units := List (Option Char)

mutual

inductive Reading
  | null
  | bool (value : Bool)
  | number (value : Numeral)
  | string (units : Units)
  | list (elements : Elements)
  | object (fields : Fields)
  | broken (halt : Halt)
  | brokenString (units : Units) (halt : Halt)

inductive Elements
  | close
  | broken (halt : Halt)
  | more (value : Reading) (rest : Elements)

inductive Fields
  | close
  | broken (halt : Halt)
  | brokenKey (units : Units) (halt : Halt)
  | more (key : Units) (value : Reading) (rest : Fields)

end

def isBlank (c : Char) : Bool := c = ' ' || c = '\n' || c = '\t' || c = '\r'

def skipBlanks (cs : List Char) : List Char := cs.dropWhile isBlank

/-! ### Strings -/

/-- Four hexadecimal digits at the head of a text. They are looked for only where four bytes are
left. -/
def fourHex : List Char → Except Halt Nat
  | a :: b :: c :: d :: _ =>
    match Text.hexValue? a, Text.hexValue? b, Text.hexValue? c, Text.hexValue? d with
    | some a, some b, some c, some d => .ok (((a * 16 + b) * 16 + c) * 16 + d)
    | _, _, _, _ => .error .malformed
  | short => .error (if (String.ofList short).utf8ByteSize < 4 then .ended else .malformed)

def isLeading (n : Nat) : Bool := 0xD800 ≤ n && n ≤ 0xDBFF

def isTrailing (n : Nat) : Bool := 0xDC00 ≤ n && n ≤ 0xDFFF

/-- What stands behind a leading surrogate: the trailing one that completes it, if there is one. -/
def trailing? : List Char → Except Halt (Option Nat)
  | [] => .error .ended
  | ['\\'] => .error .ended
  | '\\' :: 'u' :: cs => (fourHex cs).map fun n => if isTrailing n then some n else none
  | _ => .ok none

/-- The unit that stands behind a backslash and a `u`, and how many characters it takes. -/
def codeUnit (cs : List Char) : Except Halt (Option Char × Nat) := do
  let n ← fourHex cs
  if isTrailing n then .ok (none, 4)
  else if isLeading n then
    match ← trailing? (cs.drop 4) with
    | some m => .ok (some (Char.ofNat ((n - 0xD800) * 0x400 + (m - 0xDC00) + 0x10000)), 10)
    | none => .ok (none, 4)
  else .ok (some (Char.ofNat n), 4)

/-- The unit that stands behind a backslash, and how many characters it takes. -/
def escaped : List Char → Except Halt (Option Char × Nat)
  | [] => .error .ended
  | '"' :: _ => .ok (some '"', 1)
  | '\\' :: _ => .ok (some '\\', 1)
  | '/' :: _ => .ok (some '/', 1)
  | 'b' :: _ => .ok (some '\x08', 1)
  | 'f' :: _ => .ok (some '\x0c', 1)
  | 'n' :: _ => .ok (some '\n', 1)
  | 'r' :: _ => .ok (some '\r', 1)
  | 't' :: _ => .ok (some '\t', 1)
  | 'u' :: cs => (codeUnit cs).map fun (unit, n) => (unit, n + 1)
  | _ :: _ => .error .malformed

/-- A string behind its opening quote: its units, where it breaks off if it does, and what is
behind it. -/
structure Quoted where
  units : Units
  halt : Option Halt
  rest : List Char

def Quoted.push (unit : Option Char) (q : Quoted) : Quoted := { q with units := unit :: q.units }

def unquote : List Char → Quoted
  | [] => ⟨[], some .ended, []⟩
  | c :: cs =>
    if c = '"' then ⟨[], none, cs⟩
    else if c = '\\' then
      match escaped cs with
      | .ok (unit, n) => (unquote (cs.drop n)).push unit
      | .error halt => ⟨[], some halt, []⟩
    else if c.toNat < 0x20 then ⟨[], some .malformed, []⟩
    else (unquote cs).push (some c)
termination_by cs => cs.length
decreasing_by all_goals simp only [List.length_drop, List.length_cons]; omega

/-! ### Numbers and words -/

/-- Digits at the head of a text, of which there has to be one, and what is behind them. -/
def digits (cs : List Char) : Except Halt (List Char × List Char) :=
  let ds := cs.takeWhile Char.isDigit
  let rest := cs.dropWhile Char.isDigit
  if ds.isEmpty then .error (if rest.isEmpty then .endedInNumber else .malformed)
  else .ok (ds, rest)

/-- The digits behind a point, if there is a point. -/
def fraction : List Char → Except Halt (List Char × List Char)
  | '.' :: cs => digits cs
  | cs => .ok ([], cs)

/-- The sign and the digits of a power of ten, if there is one. -/
def power (cs : List Char) : Except Halt (Option Int × List Char) :=
  match cs with
  | c :: cs' =>
    if c = 'e' ∨ c = 'E' then
      match cs' with
      | '-' :: cs' => (digits cs').map fun (ds, rest) => (some (-(Decimal.natural ds : Int)), rest)
      | '+' :: cs' => (digits cs').map fun (ds, rest) => (some (Decimal.natural ds), rest)
      | cs' => (digits cs').map fun (ds, rest) => (some (Decimal.natural ds), rest)
    else .ok (none, cs)
  | [] => .ok (none, [])

/-- A number without its sign, and what is behind it. A zero has no digit behind it. -/
def numeral (negative : Bool) (cs : List Char) : Except Halt (Numeral × List Char) := do
  let (whole, rest) ← digits cs
  if whole.head? = some '0' ∧ whole.length > 1 then .error .malformed
  else
    let (part, behind) ← fraction rest
    let (exponent, behind) ← power behind
    .ok (⟨negative, whole, part, exponent⟩, behind)

/-- Takes the letters of a word from a text. -/
def word : List Char → List Char → Except Halt (List Char)
  | [], cs => .ok cs
  | _ :: _, [] => .error .ended
  | w :: ws, c :: cs => if c = w then word ws cs else .error .malformed

/-! ### Values -/

namespace Reading

/-- A reading that goes on, or breaks off with nothing behind it. -/
def orBroken (r : Except Halt (Reading × List Char)) : Reading × List Char :=
  match r with
  | .ok found => found
  | .error halt => (.broken halt, [])

def ofQuoted (q : Quoted) : Reading × List Char :=
  match q.halt with
  | none => (.string q.units, q.rest)
  | some halt => (.brokenString q.units halt, [])

/-- A value that holds no others, read from its first character and what is behind it. -/
def scalar (c : Char) (cs : List Char) : Reading × List Char :=
  if c = '"' then ofQuoted (unquote cs)
  else if c = '-' then orBroken ((numeral true cs).map fun (n, rest) => (.number n, rest))
  else if c.isDigit then
    orBroken ((numeral false (c :: cs)).map fun (n, rest) => (.number n, rest))
  else if c = 'n' then orBroken ((word ['u', 'l', 'l'] cs).map (.null, ·))
  else if c = 't' then orBroken ((word ['r', 'u', 'e'] cs).map (.bool true, ·))
  else if c = 'f' then orBroken ((word ['a', 'l', 's', 'e'] cs).map (.bool false, ·))
  else (.broken .malformed, [])

mutual

/-- A value at the head of a text, and what is behind it. The number bounds how deep and how far
this goes; three times the length of the text and one is enough. -/
def value : Nat → List Char → Reading × List Char
  | 0, _ => (.broken .malformed, [])
  | n + 1, cs =>
    match skipBlanks cs with
    | [] => (.broken .ended, [])
    | c :: cs =>
      if c = '[' then
        let (es, rest) := elements n cs
        (.list es, rest)
      else if c = '{' then
        let (fs, rest) := fields n cs
        (.object fs, rest)
      else scalar c cs

/-- The elements of a list behind its bracket. -/
def elements : Nat → List Char → Elements × List Char
  | 0, _ => (.broken .malformed, [])
  | n + 1, cs =>
    match skipBlanks cs with
    | [] => (.broken .ended, [])
    | c :: cs => if c = ']' then (.close, cs) else element n (c :: cs)

/-- An element and the elements behind it. -/
def element : Nat → List Char → Elements × List Char
  | 0, _ => (.broken .malformed, [])
  | n + 1, cs =>
    let (v, rest) := value n cs
    let (es, rest) := moreElements n rest
    (.more v es, rest)

/-- The elements behind another one. -/
def moreElements : Nat → List Char → Elements × List Char
  | 0, _ => (.broken .malformed, [])
  | n + 1, cs =>
    match skipBlanks cs with
    | [] => (.broken .ended, [])
    | c :: cs =>
      if c = ']' then (.close, cs)
      else if c = ',' then
        if (skipBlanks cs).head? = some ']' then (.broken .malformed, []) else element n cs
      else (.broken .malformed, [])

/-- The fields of an object behind its brace. -/
def fields : Nat → List Char → Fields × List Char
  | 0, _ => (.broken .malformed, [])
  | n + 1, cs =>
    match skipBlanks cs with
    | [] => (.broken .ended, [])
    | c :: cs => if c = '}' then (.close, cs) else field n (c :: cs)

/-- A field and the fields behind it. -/
def field : Nat → List Char → Fields × List Char
  | 0, _ => (.broken .malformed, [])
  | n + 1, cs =>
    match skipBlanks cs with
    | [] => (.broken .ended, [])
    | c :: cs =>
      if c = '"' then
        let key := unquote cs
        match key.halt with
        | some halt => (.brokenKey key.units halt, [])
        | none =>
          match skipBlanks key.rest with
          | [] => (.more key.units (.broken .ended) .close, [])
          | c :: cs =>
            if c = ':' then
              let (v, rest) := value n cs
              let (fs, rest) := moreFields n rest
              (.more key.units v fs, rest)
            else (.more key.units (.broken .malformed) .close, [])
      else (.broken .malformed, [])

/-- The fields behind another one. -/
def moreFields : Nat → List Char → Fields × List Char
  | 0, _ => (.broken .malformed, [])
  | n + 1, cs =>
    match skipBlanks cs with
    | [] => (.broken .ended, [])
    | c :: cs =>
      if c = '}' then (.close, cs)
      else if c = ',' then field n cs
      else (.broken .malformed, [])

end

/-- The value at the head of a text, and what is behind it. -/
def ofChars (cs : List Char) : Reading × List Char := value (3 * cs.length + 1) cs

end Reading

end FiniteAutomata.Json
