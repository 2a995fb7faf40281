import FiniteAutomata.Json.Reading

/-!
Taking values of known kinds from what a text says. A record is written as an object or as the list
of its fields. Fields that the record does not know are passed over, and then only have to be JSON.
-/
namespace FiniteAutomata.Json

/-- What is wrong with a text: it ends too early, it is not JSON, or a value is not of the kind
that is wanted. -/
inductive Fault
  | ended
  | malformed
  | mismatch
deriving DecidableEq, Repr

/-- The fault of a text that breaks off in a value that is wanted. -/
def Halt.fault : Halt → Fault
  | .ended => .ended
  | .endedInNumber => .ended
  | .malformed => .malformed

/-- The fault of a text that breaks off in a value that is passed over. -/
def Halt.faultInPassing : Halt → Fault
  | .ended => .ended
  | .endedInNumber => .malformed
  | .malformed => .malformed

namespace Units

/-- The text of a string without unpaired surrogates. -/
def chars? : Units → Option (List Char)
  | [] => some []
  | none :: _ => none
  | some c :: rest => (chars? rest).map (c :: ·)

def text (units : Units) : Except Fault String :=
  match chars? units with
  | some cs => .ok (String.ofList cs)
  | none => .error .malformed

/-- The fault of a string that breaks off behind some units. -/
def faultBefore (units : Units) (halt : Halt) : Fault :=
  if (chars? units).isNone then .malformed else halt.fault

end Units

abbrev Decoder (α : Type) := Reading → Except Fault α

namespace Decoder

/-- What is wrong with a value that is not of the wanted kind. Words, numbers and strings are read
to their ends before they are refused. -/
def refusal : Reading → Fault
  | .broken halt => halt.fault
  | .brokenString units halt => Units.faultBefore units halt
  | .string units => if (Units.chars? units).isNone then .malformed else .mismatch
  | .number n => if n.toFloat?.isSome then .mismatch else .malformed
  | _ => .mismatch

def text : Decoder String
  | .string units => Units.text units
  | r => .error (refusal r)

def boolean : Decoder Bool
  | .bool value => .ok value
  | r => .error (refusal r)

/-- A number within the range of doubles. -/
def double : Decoder Float
  | .number n =>
    match n.toFloat? with
    | some x => .ok x
    | none => .error .malformed
  | r => .error (refusal r)

/-- A natural number of 64 bits, written without sign, point and power of ten. -/
def natural : Decoder Nat
  | .number n =>
    match n.natural? with
    | some value => .ok value
    | none => .error (refusal (.number n))
  | r => .error (refusal r)

def elements {α : Type} (decode : Decoder α) : Elements → Except Fault (List α)
  | .close => .ok []
  | .broken halt => .error halt.fault
  | .more v rest =>
    match decode v with
    | .error fault => .error fault
    | .ok a =>
      match elements decode rest with
      | .error fault => .error fault
      | .ok as => .ok (a :: as)

def list {α : Type} (decode : Decoder α) : Decoder (List α)
  | .list es => elements decode es
  | r => .error (refusal r)

mutual

/-- Passes over a value. Only where the text breaks off is there a fault. -/
def pass : Reading → Except Fault Unit
  | .broken halt => .error halt.faultInPassing
  | .brokenString _ halt => .error halt.faultInPassing
  | .list es => passElements es
  | .object fs => passFields fs
  | _ => .ok ()

def passElements : Elements → Except Fault Unit
  | .close => .ok ()
  | .broken halt => .error halt.faultInPassing
  | .more v rest =>
    match pass v with
    | .error fault => .error fault
    | .ok () => passElements rest

def passFields : Fields → Except Fault Unit
  | .close => .ok ()
  | .broken halt => .error halt.faultInPassing
  | .brokenKey _ halt => .error halt.faultInPassing
  | .more _ v rest =>
    match pass v with
    | .error fault => .error fault
    | .ok () => passFields rest

end

/-! ### Records -/

/-- A field of a record: its name, and how its value changes a draft of the record. -/
structure Member (δ : Type) where
  name : String
  decode : Decoder (δ → δ)

/-- A member whose value is put into a draft. -/
def member {α δ : Type} (name : String) (decode : Decoder α) (put : α → δ → δ) : Member δ :=
  ⟨name, fun r => (decode r).map put⟩

variable {δ : Type}

/-- The fields of an object, where the fields named in `seen` may not come again. -/
def readFields (members : List (Member δ)) (seen : List String) (draft : δ) :
    Fields → Except Fault δ
  | .close => .ok draft
  | .broken halt => .error halt.fault
  | .brokenKey units halt => .error (Units.faultBefore units halt)
  | .more key v rest =>
    match Units.text key with
    | .error fault => .error fault
    | .ok name =>
      match members.find? (·.name = name) with
      | none =>
        match pass v with
        | .error fault => .error fault
        | .ok () => readFields members seen draft rest
      | some m =>
        if name ∈ seen then .error .mismatch
        else
          match m.decode v with
          | .error fault => .error fault
          | .ok put => readFields members (name :: seen) (put draft) rest

/-- The fields of a record written as a list, which may break off early but not go on. -/
def readInOrder (draft : δ) : List (Member δ) → Elements → Except Fault δ
  | _, .close => .ok draft
  | _, .broken halt => .error halt.fault
  | [], .more _ _ => .error .malformed
  | m :: ms, .more v rest =>
    match m.decode v with
    | .error fault => .error fault
    | .ok put => readInOrder (put draft) ms rest

/-- A record: its members in order, the draft that nothing has been put into, and the record that a
draft makes if nothing is missing. -/
def record {α : Type} (members : List (Member δ)) (blank : δ) (complete? : δ → Option α) :
    Decoder α := fun r =>
  let drafted :=
    match r with
    | .object fs => readFields members [] blank fs
    | .list es => readInOrder blank members es
    | r => .error (refusal r)
  match drafted with
  | .error fault => .error fault
  | .ok draft =>
    match complete? draft with
    | some a => .ok a
    | none => .error .mismatch

end Decoder

/-- A value with nothing but blanks behind it. -/
def isFinished (rest : List Char) : Bool := (skipBlanks rest).isEmpty

end FiniteAutomata.Json
