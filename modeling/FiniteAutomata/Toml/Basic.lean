/-!
TOML documents as trees. A document is a row of statements; `ofStatements?` puts them together and
refuses what is defined twice. Whether a table may be extended depends on how it came about, so
every table remembers its origin.
-/
namespace FiniteAutomata

namespace Toml

/-- How a table came about: from a heading of its own, from the heading of a table below it, from a
key with dots, or between braces. -/
inductive Origin
  | heading
  | implied
  | dotted
  | inline
deriving DecidableEq, Repr

end Toml

/-- A value. Numbers, dates and times are kept as they are written. -/
inductive Toml
  | string (value : String)
  | boolean (value : Bool)
  | number (text : String)
  | dateTime (text : String)
  | list (elements : List Toml)
  | tables (elements : List Toml)
  | table (origin : Toml.Origin) (fields : List (String × Toml))

namespace Toml

/-- A heading of a table, a heading of one more table in a list, or a value for a key. -/
inductive Statement
  | heading (path : List String)
  | listHeading (path : List String)
  | assign (path : List String) (value : Toml)

/-- Gives a new value to a key, in the place of the old one if there is one. -/
def replaceField (key : String) (value : Toml) : List (String × Toml) → List (String × Toml)
  | [] => [(key, value)]
  | (k, v) :: fields =>
    if k = key then (k, value) :: fields else (k, v) :: replaceField key value fields

/-- Changes the last element of a list. -/
def mapLast? (f : Toml → Option Toml) : List Toml → Option (List Toml)
  | [] => none
  | [v] => (f v).map ([·])
  | v :: vs => (mapLast? f vs).map (v :: ·)

/-- Changes the table that a heading's path leads to. Tables on the way come about as needed, and in
a list of tables the way goes through the last. -/
def within? (f : Toml → Option Toml) : List String → Toml → Option Toml
  | [], t => f t
  | key :: keys, .table origin fields =>
    let found :=
      match fields.lookup key with
      | none => within? f keys (.table .implied [])
      | some (.table .inline _) => none
      | some (.table o fs) => within? f keys (.table o fs)
      | some (.tables ts) => (mapLast? (within? f keys) ts).map .tables
      | some _ => none
    found.map fun v => .table origin (replaceField key v fields)
  | _ :: _, _ => none

/-- Adds a table with a heading of its own. -/
def addTable? (key : String) : Toml → Option Toml
  | .table origin fields =>
    match fields.lookup key with
    | none => some (.table origin (replaceField key (.table .heading []) fields))
    | some (.table .implied fs) =>
      some (.table origin (replaceField key (.table .heading fs) fields))
    | some _ => none
  | _ => none

/-- Adds a table to a list of tables. -/
def addToTables? (key : String) : Toml → Option Toml
  | .table origin fields =>
    match fields.lookup key with
    | none => some (.table origin (replaceField key (.tables [.table .heading []]) fields))
    | some (.tables ts) =>
      some (.table origin (replaceField key (.tables (ts ++ [.table .heading []])) fields))
    | some _ => none
  | _ => none

/-- Gives a value to a key in a table. The tables that a key with dots goes through must not have a
heading or braces, and the last one must come from such a key. -/
def assign? (value : Toml) (below : Bool) : List String → Toml → Option Toml
  | [], _ => none
  | [key], .table origin fields =>
    if below && origin ≠ .dotted then none
    else if (fields.lookup key).isSome then none
    else some (.table origin (fields ++ [(key, value)]))
  | key :: keys, .table origin fields =>
    let found :=
      match fields.lookup key with
      | none => assign? value true keys (.table .dotted [])
      | some (.table .heading _) | some (.table .inline _) => none
      | some (.table o fs) => assign? value true keys (.table o fs)
      | some (.tables ts) => (mapLast? (assign? value true keys) ts).map .tables
      | some _ => none
    found.map fun v => .table origin (replaceField key v fields)
  | _ :: _, _ => none

/-- Puts statements into a tree, where `here` is the path of the last heading. -/
def addStatements? (here : List String) (tree : Toml) : List Statement → Option Toml
  | [] => some tree
  | .heading path :: rest =>
    match path.getLast? with
    | none => none
    | some key =>
      match within? (addTable? key) path.dropLast tree with
      | none => none
      | some tree => addStatements? path tree rest
  | .listHeading path :: rest =>
    match path.getLast? with
    | none => none
    | some key =>
      match within? (addToTables? key) path.dropLast tree with
      | none => none
      | some tree => addStatements? path tree rest
  | .assign path value :: rest =>
    match within? (assign? value false path) here tree with
    | none => none
    | some tree => addStatements? here tree rest

def ofStatements? (statements : List Statement) : Option Toml :=
  addStatements? [] (.table .heading []) statements

/-- A table between braces. -/
def inlineTable? (assignments : List (List String × Toml)) : Option Toml :=
  assignments.foldlM (fun t (path, value) => assign? value false path t) (.table .inline [])

end Toml

end FiniteAutomata
