import FiniteAutomata.Text.Hexadecimal

/-!
Strings, keys, comments and blank lines of TOML documents. Every function gives what it found
together with the rest of the text, or nothing where the text does not fit.
-/
namespace FiniteAutomata.Toml

def isBlank (c : Char) : Bool := c = ' ' || c = '\t'

def skipBlanks (cs : List Char) : List Char := cs.dropWhile isBlank

/-- A character of a comment or of a string: no control character but the tabulator. -/
def isPlain (c : Char) : Bool := c = '\t' || (0x20 ≤ c.toNat && c.toNat ≠ 0x7F)

/-- Passes over blanks, ends of lines and comments. -/
def skipLines? (comment : Bool) : List Char → Option (List Char)
  | [] => some []
  | '\n' :: cs => skipLines? false cs
  | '\r' :: '\n' :: cs => skipLines? false cs
  | c :: cs =>
    if comment then
      if isPlain c then skipLines? true cs else none
    else if isBlank c then skipLines? false cs
    else if c = '#' then skipLines? true cs
    else some (c :: cs)

/-- Passes over blanks, and where lines may end also over the ends of lines and comments. -/
def skipGap? (lines : Bool) (cs : List Char) : Option (List Char) :=
  if lines then skipLines? false cs else some (skipBlanks cs)

/-- Passes over the rest of a line, which may hold a comment, and the empty lines behind it. -/
def endLine? (cs : List Char) : Option (List Char) :=
  match skipBlanks cs with
  | [] => some []
  | c :: rest =>
    if c = '\n' || c = '\r' || c = '#' then
      match skipLines? false (c :: rest) with
      | some ('\r' :: _) => none
      | found => found
    else none

/-- The character whose number stands in so many hexadecimal digits at the head of a text. -/
def numbered? (count : Nat) (cs : List Char) : Option Char :=
  if cs.length < count then none
  else
    match (cs.take count).foldlM (fun n c => (Text.hexValue? c).map (16 * n + ·)) 0 with
    | some n => if n < 0xD800 || (0xDFFF < n && n < 0x110000) then some (Char.ofNat n) else none
    | none => none

/-- The character that stands behind a backslash, and how many characters it takes. -/
def escaped? : List Char → Option (Char × Nat)
  | '"' :: _ => some ('"', 1)
  | '\\' :: _ => some ('\\', 1)
  | 'b' :: _ => some ('\x08', 1)
  | 'e' :: _ => some ('\x1b', 1)
  | 't' :: _ => some ('\t', 1)
  | 'n' :: _ => some ('\n', 1)
  | 'f' :: _ => some ('\x0c', 1)
  | 'r' :: _ => some ('\r', 1)
  | 'x' :: cs => (numbered? 2 cs).map (·, 3)
  | 'u' :: cs => (numbered? 4 cs).map (·, 5)
  | 'U' :: cs => (numbered? 8 cs).map (·, 9)
  | _ => none

/-- A string and what is behind it. -/
abbrev Found := Option (List Char × List Char)

def Found.push (c : Char) (found : Found) : Found := found.map fun (s, rest) => (c :: s, rest)

/-- The rest of a string between double quotes. -/
def basic? : List Char → Found
  | [] => none
  | c :: cs =>
    if c = '"' then some ([], cs)
    else if c = '\\' then
      match escaped? cs with
      | some (e, n) => Found.push e (basic? (cs.drop n))
      | none => none
    else if isPlain c then Found.push c (basic? cs)
    else none
termination_by cs => cs.length
decreasing_by all_goals simp only [List.length_drop, List.length_cons]; omega

/-- The rest of a string between single quotes. -/
def literal? : List Char → Found
  | [] => none
  | c :: cs =>
    if c = '\x27' then some ([], cs)
    else if isPlain c then Found.push c (literal? cs)
    else none

/-- The end of a string of several lines, where its three closing quotes may have one or two more
before them that belong to the string. -/
def closing? (quote : Char) (cs : List Char) : Found :=
  let quotes := min 5 (cs.takeWhile (· = quote)).length
  if quotes < 3 then none else some (List.replicate (quotes - 3) quote, cs.drop quotes)

/-- Passes over blanks and ends of lines. -/
def skipSpace : List Char → List Char
  | [] => []
  | '\n' :: cs => skipSpace cs
  | '\r' :: '\n' :: cs => skipSpace cs
  | c :: cs => if isBlank c then skipSpace cs else c :: cs

/-- How many characters a backslash at the end of a line makes disappear: the end of the line, and
the blanks and ends of lines around it. -/
def joined? (cs : List Char) : Option Nat :=
  let rest := skipSpace cs
  match skipBlanks cs with
  | '\n' :: _ => some (cs.length - rest.length)
  | '\r' :: '\n' :: _ => some (cs.length - rest.length)
  | _ => none

/-- The rest of a string of several lines, which keep their ends as they are. With single quotes
there are no escapes. -/
def multiline? (quote : Char) : List Char → Found
  | [] => none
  | c :: cs =>
    match closing? quote (c :: cs) with
    | some found => some found
    | none =>
      if c = '\\' ∧ quote = '"' then
        match joined? cs with
        | some n => multiline? quote (cs.drop n)
        | none =>
          match escaped? cs with
          | some (e, n) => Found.push e (multiline? quote (cs.drop n))
          | none => none
      else if c = '\r' then
        if cs.head? = some '\n' then Found.push c (multiline? quote cs) else none
      else if c = '\n' || isPlain c then Found.push c (multiline? quote cs)
      else none
termination_by cs => cs.length
decreasing_by all_goals simp only [List.length_drop, List.length_cons]; omega

/-- A string of several lines may begin on the line after its opening quotes. -/
def dropNewline : List Char → List Char
  | '\n' :: cs => cs
  | '\r' :: '\n' :: cs => cs
  | cs => cs

/-- A string behind the quote that it begins with. -/
def string? (quote : Char) (cs : List Char) : Found :=
  if cs.take 2 = [quote, quote] then multiline? quote (dropNewline (cs.drop 2))
  else if quote = '"' then basic? cs
  else literal? cs

def isKeyChar (c : Char) : Bool := c.isAlphanum || c = '_' || c = '-'

/-- A key without dots outside quotes. -/
def simpleKey? (cs : List Char) : Found :=
  match cs with
  | '"' :: cs => basic? cs
  | '\x27' :: cs => literal? cs
  | cs =>
    let key := cs.takeWhile isKeyChar
    if key.isEmpty then none else some (key, cs.drop key.length)

/-- How many parts a key may have. -/
def maxParts : Nat := 80

/-- A key of at most so many parts, and what is behind it and the blanks that follow. -/
def key? : Nat → List Char → Option (List String × List Char)
  | 0, _ => none
  | n + 1, cs =>
    match simpleKey? (skipBlanks cs) with
    | none => none
    | some (key, rest) =>
      match skipBlanks rest with
      | '.' :: rest => (key? n rest).map fun (keys, rest) => (String.ofList key :: keys, rest)
      | rest => some ([String.ofList key], rest)

end FiniteAutomata.Toml
