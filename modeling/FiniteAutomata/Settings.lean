import FiniteAutomata.Session.Store
import FiniteAutomata.Toml.Range
import FiniteAutomata.Toml.Read

/-!
Settings, read from a TOML text in which everything may be left out. A section is a table, or the
list of its settings. Other tables and other keys are passed over, but the numbers in them must be
in range.
-/
namespace FiniteAutomata

/-- What is printed about a graph: text for the eye, JSON or DOT. -/
inductive Format
  | table
  | json
  | dot
deriving DecidableEq, Repr

namespace Format

def all : List Format := [.table, .json, .dot]

def name : Format → String
  | .table => "table"
  | .json => "json"
  | .dot => "dot"

def ofName? (name : String) : Option Format := all.find? (·.name = name)

end Format

structure Settings where
  defaultName : String
  format : Format
  logLevel : String
deriving DecidableEq, Repr

namespace Settings

def usual : Settings := ⟨Session.Store.usualName, .table, "info"⟩

def text? : Toml → Option String
  | .string s => some s
  | _ => none

/-- A format by its name, or by a table that has the name for its only key and nothing for it. -/
def format? : Toml → Option Format
  | .string s => Format.ofName? s
  | .table _ [(key, .table _ [])] => Format.ofName? key
  | .table _ [(key, .list [])] => Format.ofName? key
  | _ => none

/-- The fields of a table but for those with some keys. -/
def others (keys : List String) (fields : List (String × Toml)) : List (String × Toml) :=
  fields.filter fun (key, _) => key ∉ keys

/-- The setting of a section with a single one. A date has no settings, and what stands in a list
behind the setting does not matter. -/
def only? {α : Type} (key : String) (usual : α) (read? : Toml → Option α) : Toml → Option α
  | .table _ fields =>
    if Toml.fieldsAreInRange (others [key] fields) then
      match fields.lookup key with
      | some v => read? v
      | none => some usual
    else none
  | .list [] | .tables [] | .dateTime _ => some usual
  | .list (v :: _) | .tables (v :: _) => read? v
  | _ => none

/-- A section of a document. -/
def section? {α : Type} (fields : List (String × Toml)) (name key : String) (usual : α)
    (read? : Toml → Option α) : Option α :=
  match fields.lookup name with
  | some v => only? key usual read? v
  | none => some usual

def ofToml? : Toml → Option Settings
  | .table _ fields => do
    guard (Toml.fieldsAreInRange (others ["session", "output", "logging"] fields))
    let defaultName ← section? fields "session" "default_name" usual.defaultName text?
    let format ← section? fields "output" "format" usual.format format?
    let logLevel ← section? fields "logging" "level" usual.logLevel text?
    return ⟨defaultName, format, logLevel⟩
  | _ => none

/-- The settings that a text writes, if it is TOML and says nothing wrong about them. -/
def ofText? (source : String) : Option Settings := (Toml.ofText? source).bind ofToml?

end Settings

end FiniteAutomata
