import FiniteAutomata.Decimal.Layout
import FiniteAutomata.Decimal.Shortest

/-!
JSON values and the two ways of writing them: `Json.compact` without any white space, and
`Json.pretty` with a line for each element. Texts are rows of characters, as the reader takes them.
-/
namespace FiniteAutomata

inductive Json
  | null
  | bool (value : Bool)
  | natural (value : Nat)
  | number (value : Float)
  | string (value : String)
  | list (elements : List Json)
  | object (fields : List (String × Json))

namespace Json

/-- Numbers have their digits in place from a hundred thousandth up to ten million billions. -/
def numberLayout : Decimal.Layout := ⟨-5, 15⟩

/-- A double, or `null` for one that is no number. -/
def numberText (x : Float) : List Char :=
  if x.isFinite then (numberLayout.text (.ofFloat x)).toList else "null".toList

/-- A character inside a string. -/
def escape (c : Char) : List Char :=
  match c with
  | '"' => ['\\', '"']
  | '\\' => ['\\', '\\']
  | '\x08' => ['\\', 'b']
  | '\t' => ['\\', 't']
  | '\n' => ['\\', 'n']
  | '\x0c' => ['\\', 'f']
  | '\r' => ['\\', 'r']
  | _ =>
    if c.toNat < 0x20 then
      ['\\', 'u', '0', '0', Nat.digitChar (c.toNat / 16), Nat.digitChar (c.toNat % 16)]
    else [c]

def quoted (s : String) : List Char := '"' :: s.toList.flatMap escape ++ ['"']

mutual

def compact : Json → List Char
  | .null => "null".toList
  | .bool value => (if value then "true" else "false").toList
  | .natural value => Nat.toDigits 10 value
  | .number value => numberText value
  | .string value => quoted value
  | .list [] => ['[', ']']
  | .list (v :: vs) => '[' :: (compact v ++ compactElements vs)
  | .object [] => ['{', '}']
  | .object ((key, v) :: fields) =>
    '{' :: (quoted key ++ ':' :: (compact v ++ compactFields fields))

/-- The elements behind the first one, with the closing bracket. -/
def compactElements : List Json → List Char
  | [] => [']']
  | v :: vs => ',' :: (compact v ++ compactElements vs)

/-- The fields behind the first one, with the closing brace. -/
def compactFields : List (String × Json) → List Char
  | [] => ['}']
  | (key, v) :: fields => ',' :: (quoted key ++ ':' :: (compact v ++ compactFields fields))

end

/-- The end of a line and the blanks at the head of the next. -/
def newline (indent : Nat) : List Char := '\n' :: List.replicate indent ' '

mutual

/-- A value whose lines are indented, apart from the first. -/
def prettyAt (indent : Nat) : Json → List Char
  | .null => "null".toList
  | .bool value => (if value then "true" else "false").toList
  | .natural value => Nat.toDigits 10 value
  | .number value => numberText value
  | .string value => quoted value
  | .list [] => ['[', ']']
  | .list (v :: vs) =>
    '[' :: (newline (indent + 2) ++ prettyAt (indent + 2) v ++ prettyElements indent vs)
  | .object [] => ['{', '}']
  | .object ((key, v) :: fields) =>
    '{' :: (newline (indent + 2) ++ quoted key ++ ':' :: ' ' :: prettyAt (indent + 2) v ++
      prettyFields indent fields)

def prettyElements (indent : Nat) : List Json → List Char
  | [] => newline indent ++ [']']
  | v :: vs =>
    ',' :: (newline (indent + 2) ++ prettyAt (indent + 2) v ++ prettyElements indent vs)

def prettyFields (indent : Nat) : List (String × Json) → List Char
  | [] => newline indent ++ ['}']
  | (key, v) :: fields =>
    ',' :: (newline (indent + 2) ++ quoted key ++ ':' :: ' ' :: prettyAt (indent + 2) v ++
      prettyFields indent fields)

end

def compactText (v : Json) : String := String.ofList v.compact

def prettyText (v : Json) : String := String.ofList (v.prettyAt 0)

end Json

end FiniteAutomata
