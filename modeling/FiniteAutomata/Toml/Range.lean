import FiniteAutomata.Toml.Basic
import FiniteAutomata.Toml.Scalar

/-!
Whether the numbers of a value are in range. A text may write a number that is out of range, and
only who looks at the number is at a loss.
-/
namespace FiniteAutomata.Toml

mutual

/-- Whether every number in a value is in range. -/
def isInRange : Toml → Bool
  | .number text => isNumberInRange text.toList
  | .list elements => areInRange elements
  | .tables elements => areInRange elements
  | .table _ fields => fieldsAreInRange fields
  | _ => true

def areInRange : List Toml → Bool
  | [] => true
  | v :: vs => isInRange v && areInRange vs

def fieldsAreInRange : List (String × Toml) → Bool
  | [] => true
  | (_, v) :: fields => isInRange v && fieldsAreInRange fields

end

end FiniteAutomata.Toml
