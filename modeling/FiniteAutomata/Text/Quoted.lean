import FiniteAutomata.Text.Visible

/-!
Texts between double quotes, with everything escaped that would not show or would end the text.
-/
namespace FiniteAutomata.Text

/-- The number of a character, in the hexadecimal digits that it needs. -/
def numbered (c : Char) : List Char :=
  ['\\', 'u', '{'] ++ Nat.toDigits 16 c.toNat ++ ['}']

def escaped (c : Char) : List Char :=
  match c with
  | '\x00' => ['\\', '0']
  | '\t' => ['\\', 't']
  | '\r' => ['\\', 'r']
  | '\n' => ['\\', 'n']
  | '\\' => ['\\', '\\']
  | '"' => ['\\', '"']
  | c => if isVisible c then [c] else numbered c

def quoted (s : String) : String := "\"" ++ String.ofList (s.toList.flatMap escaped) ++ "\""

end FiniteAutomata.Text
