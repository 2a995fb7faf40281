import FiniteAutomata.Document.Token
import FiniteAutomata.Text.Blank

/-!
From a text to its tokens. A text is a row of gaps and lexemes: a gap is white space or a comment,
and a lexeme is taken as long as it can be. `gap` and `lexeme` look at the head of a text and say
how many characters they take; `scan` puts the two together and places every token.
-/
namespace FiniteAutomata.Document

/-- The tokens of a text in order, and the place where the text ends. -/
structure Tokens where
  toList : List Token
  finish : Location
deriving DecidableEq, Repr

/-- The tokens followed by the one that stands for the end of the text. -/
def Tokens.closed (ts : Tokens) : List Token := ts.toList ++ [⟨.finish, "", ts.finish⟩]

/-- How many characters of a comment's body there are up to and with the first star and slash. An
unclosed comment runs to the end. -/
def blockComment : List Char → Nat
  | [] => 0
  | c :: cs => if c = '*' ∧ cs.head? = some '/' then 2 else blockComment cs + 1

def lineComment (cs : List Char) : Nat := (cs.takeWhile (· ≠ '\n')).length

/-- Whether a gap begins with `c`, and if so, how many of the characters `cs` behind it belong to
it too. -/
def gap (c : Char) (cs : List Char) : Option Nat :=
  if Text.isBlank c then some 0
  else if c = '/' then
    match cs with
    | '/' :: body => some (1 + lineComment body)
    | '*' :: body => some (1 + blockComment body)
    | _ => none
  else none

/-- What begins at the head of a text: its kind, its value, and how many characters behind the
first belong to it. -/
structure Lexeme where
  kind : Token.Kind
  value : String
  following : Nat
deriving DecidableEq, Repr

/-- The character that a backslash and `c` stand for. -/
def unescaped (c : Char) : Char :=
  if c = 'n' then '\n' else if c = 't' then '\t' else c

/-- The value of a string behind its opening quote, and how many characters it takes with the
closing one. -/
def quoted : List Char → Option (List Char × Nat)
  | [] => none
  | '"' :: _ => some ([], 1)
  | '\\' :: [] => none
  | '\\' :: c :: cs => (quoted cs).map fun (value, n) => (unescaped c :: value, n + 2)
  | c :: cs => (quoted cs).map fun (value, n) => (c :: value, n + 1)

def isDigitOrDot (c : Char) : Bool := c.isDigit || c = '.'

def isNameStart (c : Char) : Bool := c.isAlpha || c = '_' || c = 'ε'

def isNamePart (c : Char) : Bool := isNameStart c || c.isDigit

/-- Words are told from identifiers without regard to case. -/
def wordKind (word : List Char) : Token.Kind :=
  match String.ofList (word.map Char.toLower) with
  | "automaton" => .automaton
  | "state" => .state
  | "alphabet" => .alphabet
  | "true" => .trueWord
  | "false" => .falseWord
  | "epsilon" => .epsilon
  | "ε" => .epsilon
  | _ => .identifier

def punctuation? (c : Char) : Option Token.Kind :=
  match c with
  | '{' => some .openBrace
  | '}' => some .closeBrace
  | '(' => some .openParen
  | ')' => some .closeParen
  | ':' => some .colon
  | ',' => some .comma
  | _ => none

/-- The lexeme that begins with `c`, where `cs` follows it. -/
def lexeme (c : Char) (cs : List Char) : Except Fault Lexeme :=
  match punctuation? c with
  | some kind => .ok ⟨kind, c.toString, 0⟩
  | none =>
    if c = '-' then
      if cs.head? = some '>' then .ok ⟨.arrow, "->", 1⟩ else .ok ⟨.dash, "-", 0⟩
    else if c = '"' then
      match quoted cs with
      | some (value, n) => .ok ⟨.string, String.ofList value, n⟩
      | none => .error .unterminatedString
    else if c.isDigit then
      let more := cs.takeWhile isDigitOrDot
      .ok ⟨.number, String.ofList (c :: more), more.length⟩
    else if isNameStart c then
      let more := cs.takeWhile isNamePart
      .ok ⟨wordKind (c :: more), String.ofList (c :: more), more.length⟩
    else .error (.unexpectedCharacter c)

/-- The tokens of a text whose first character stands at `here`. -/
def scanFrom (here : Location) : List Char → Except Complaint Tokens
  | [] => .ok ⟨[], here⟩
  | c :: cs =>
    match gap c cs with
    | some n => scanFrom (here.past (c :: cs.take n)) (cs.drop n)
    | none =>
      match lexeme c cs with
      | .error fault => .error ⟨fault, here⟩
      | .ok l =>
        match scanFrom (here.past (c :: cs.take l.following)) (cs.drop l.following) with
        | .error e => .error e
        | .ok rest => .ok { rest with toList := ⟨l.kind, l.value, here⟩ :: rest.toList }
termination_by cs => cs.length
decreasing_by all_goals simp only [List.length_drop, List.length_cons]; omega

def scan (source : String) : Except Complaint Tokens := scanFrom .start source.toList

end FiniteAutomata.Document
