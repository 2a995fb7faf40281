import FiniteAutomata.Document.Location

/-!
The tokens of a document, and everything that can be wrong with one. A complaint names its cause
and its place; `Fault.message` and `Complaint.message` give the wording.
-/
namespace FiniteAutomata.Document

namespace Token

inductive Kind
  | automaton
  | state
  | alphabet
  | trueWord
  | falseWord
  | epsilon
  | openBrace
  | closeBrace
  | openParen
  | closeParen
  | colon
  | comma
  | arrow
  | dash
  | identifier
  | string
  | number
  | finish
deriving DecidableEq, Repr

/-- The name of a kind in complaints and listings. -/
def Kind.name : Kind → String
  | .automaton => "AUTOMATON"
  | .state => "STATE"
  | .alphabet => "ALPHABET"
  | .trueWord => "TRUE"
  | .falseWord => "FALSE"
  | .epsilon => "EPSILON"
  | .openBrace => "LBRACE"
  | .closeBrace => "RBRACE"
  | .openParen => "LPAREN"
  | .closeParen => "RPAREN"
  | .colon => "COLON"
  | .comma => "COMMA"
  | .arrow => "ARROW"
  | .dash => "DASH"
  | .identifier => "IDENTIFIER"
  | .string => "STRING"
  | .number => "NUMBER"
  | .finish => "EOF"

end Token

/-- A token has the text it stands for, which for a string is the text without its quotes. -/
structure Token where
  kind : Token.Kind
  text : String
  location : Location
deriving DecidableEq, Repr

/-- What can be wrong with a document. -/
inductive Fault
  | unexpectedCharacter (c : Char)
  | unterminatedString
  | expected (wanted found : Token.Kind)
  | unexpectedToken
  | metadataValueExpected
  | symbolExpected
  | booleanExpected
  | unknownProperty (name : String)
  | invalidNumber (text : String)
  | declaredTwice (state : String)
  | undeclared (state : String)
deriving DecidableEq, Repr

def Fault.message : Fault → String
  | .unexpectedCharacter c => "Unexpected character '" ++ c.toString ++ "'"
  | .unterminatedString => "Unterminated string"
  | .expected wanted found => "Expected " ++ wanted.name ++ ", got " ++ found.name
  | .unexpectedToken => "Unexpected token"
  | .metadataValueExpected => "Expected string, number, or identifier for metadata value"
  | .symbolExpected => "Expected symbol (identifier, epsilon, or number)"
  | .booleanExpected => "Expected boolean (true or false)"
  | .unknownProperty name => "Unknown state property: " ++ name
  | .invalidNumber text => "Invalid number '" ++ text ++ "'"
  | .declaredTwice state => "State '" ++ state ++ "' declared twice"
  | .undeclared state => "State '" ++ state ++ "' not found"

/-- A fault and where it lies. -/
structure Complaint where
  fault : Fault
  location : Location
deriving DecidableEq, Repr

def Complaint.message (c : Complaint) : String :=
  "Line " ++ toString c.location.line ++ ", Column " ++ toString c.location.column ++ ": " ++
    c.fault.message

end FiniteAutomata.Document
