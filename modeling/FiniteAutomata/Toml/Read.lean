import FiniteAutomata.Toml.Basic
import FiniteAutomata.Toml.Scalar
import FiniteAutomata.Toml.Text

/-!
From a text to the TOML tree it writes. Keys and brackets go only so deep.
-/
namespace FiniteAutomata.Toml

/-- An unquoted value at the head of a text. -/
def unquoted? (cs : List Char) : Option (Toml × List Char) :=
  let taken := scalarChars cs
  let rest := cs.drop taken.length
  if isDateTime taken then some (.dateTime (String.ofList taken), rest)
  else if isInteger taken || isFloat taken then some (.number (String.ofList taken), rest)
  else (boolean? taken).map fun value => (.boolean value, rest)

/-- How many brackets and braces may be open at a time. -/
def maxDepth : Nat := 80

mutual

/-- A value at the head of a text, where `room` more brackets may be opened. The first number
bounds how far this goes; three times the length of the text and one is enough. -/
def value? : Nat → Nat → List Char → Option (Toml × List Char)
  | 0, _, _ => none
  | n + 1, room, cs =>
    match cs with
    | [] => none
    | c :: rest =>
      if c = '"' || c = '\x27' then
        (string? c rest).map fun (s, rest) => (.string (String.ofList s), rest)
      else if c = '[' || c = '{' then
        match room with
        | 0 => none
        | room + 1 =>
          if c = '[' then (elements? n room rest).map fun (vs, rest) => (.list vs, rest)
          else
            match assignments? n room rest with
            | some (as, rest) => (inlineTable? as).map (·, rest)
            | none => none
      else unquoted? (c :: rest)

/-- The elements of a list up to its closing bracket. -/
def elements? : Nat → Nat → List Char → Option (List Toml × List Char)
  | 0, _, _ => none
  | n + 1, room, cs =>
    match skipLines? false cs with
    | some (']' :: rest) => some ([], rest)
    | some rest =>
      match value? n room rest with
      | none => none
      | some (v, rest) =>
        match skipLines? false rest with
        | some (']' :: rest) => some ([v], rest)
        | some (',' :: rest) => (elements? n room rest).map fun (vs, rest) => (v :: vs, rest)
        | _ => none
    | none => none

/-- The assignments of a table up to its closing brace. -/
def assignments? : Nat → Nat → List Char → Option (List (List String × Toml) × List Char)
  | 0, _, _ => none
  | n + 1, room, cs =>
    match skipLines? false cs with
    | some ('}' :: rest) => some ([], rest)
    | some rest =>
      match assignment? n room true rest with
      | none => none
      | some (a, rest) =>
        match skipLines? false rest with
        | some ('}' :: rest) => some ([a], rest)
        | some (',' :: rest) => (assignments? n room rest).map fun (as, rest) => (a :: as, rest)
        | _ => none
    | none => none

/-- A key, an equals sign and a value, which between braces may stand on several lines. -/
def assignment? : Nat → Nat → Bool → List Char → Option ((List String × Toml) × List Char)
  | 0, _, _, _ => none
  | n + 1, room, braced, cs =>
    match key? maxParts cs with
    | none => none
    | some (path, rest) =>
      match skipGap? braced rest with
      | some ('=' :: rest) =>
        match skipGap? braced rest with
        | some rest => (value? n room rest).map fun (v, rest) => ((path, v), rest)
        | none => none
      | _ => none

end

/-- A statement at the head of a text. -/
def statement? (cs : List Char) : Option (Statement × List Char) :=
  match cs with
  | '[' :: '[' :: rest =>
    match key? maxParts rest with
    | some (path, ']' :: ']' :: rest) => some (.listHeading path, rest)
    | _ => none
  | '[' :: rest =>
    match key? maxParts rest with
    | some (path, ']' :: rest) => some (.heading path, rest)
    | _ => none
  | cs =>
    (assignment? (3 * cs.length + 2) maxDepth false cs).map fun ((path, v), rest) =>
      (.assign path v, rest)

/-- At most so many statements, each on lines of its own. -/
def statements? : Nat → List Char → Option (List Statement)
  | _, [] => some []
  | 0, _ :: _ => none
  | n + 1, cs =>
    match statement? cs with
    | none => none
    | some (s, rest) =>
      match endLine? rest with
      | none => none
      | some rest => (statements? n rest).map (s :: ·)

/-- A text may begin with a byte order mark. -/
def dropMark : List Char → List Char
  | '\uFEFF' :: cs => cs
  | cs => cs

/-- The tree that a text writes. -/
def ofText? (source : String) : Option Toml :=
  match skipLines? false (dropMark source.toList) with
  | none => none
  | some cs => (statements? cs.length cs).bind ofStatements?

end FiniteAutomata.Toml
