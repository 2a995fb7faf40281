/-!
Files as a program sees them: what a path leads to, and what can go wrong on reading it. `Files` is
any store of files, on a disk or in memory; `Files.Tree` is one in memory.
-/
namespace FiniteAutomata

namespace Files

/-- Why a file cannot be read. -/
inductive Fault
  | missing
  | notDirectory
  | directory
  | nameTooLong
  | nullCharacter
  | notText
  | other (reason : String)
deriving DecidableEq, Repr

def Fault.message : Fault → String
  | .missing => "No such file or directory (os error 2)"
  | .notDirectory => "Not a directory (os error 20)"
  | .directory => "Is a directory (os error 21)"
  | .nameTooLong => "File name too long (os error 36)"
  | .nullCharacter => "file name contained an unexpected NUL byte"
  | .notText => "stream did not contain valid UTF-8"
  | .other reason => reason

end Files

/-- Ways to look up files, in a setting where looking may have effects. -/
structure Files (m : Type → Type) where
  /-- The text of a file. -/
  read : String → m (Except Files.Fault String)
  /-- Whether a path leads to anything. -/
  isThere : String → m Bool
  /-- The path of the user's own directory. -/
  home : Option String

namespace Files

/-- The parts of a path between its slashes, without empty ones and those that stay in place. -/
def parts (path : String) : List String :=
  (path.splitOn "/").filter fun part => part ≠ "" && part ≠ "."

/-- The text behind the last dot of a file's name, unless nothing stands before that dot. -/
def extension? (path : String) : Option String :=
  match (parts path).getLast? with
  | none => none
  | some name =>
    let behind := (name.toList.reverse.takeWhile (· ≠ '.')).reverse
    if name = ".." ∨ name.length ≤ behind.length + 1 then none else some (String.ofList behind)

/-- Directories and files below a root, each given by the parts that lead to it. Directories on the
way to a file need not be given. -/
structure Tree where
  directories : List (List String)
  files : List (List String × ByteArray)
  /-- Where paths begin that do not begin with a slash. -/
  here : List String
  home : List String

namespace Tree

inductive Node
  | file (content : ByteArray)
  | directory

/-- What stands at a place. -/
def node? (t : Tree) (place : List String) : Option Node :=
  match t.files.find? (·.1 = place) with
  | some (_, content) => some (.file content)
  | none =>
    let below (other : List String) := place.isPrefixOf other
    if place.isEmpty || t.directories.any below || t.files.any (below ·.1) then some .directory
    else none

/-- Follows the parts of a path. Two dots lead back up. -/
def follow (t : Tree) (place : List String) : List String → Except Fault (List String)
  | [] => .ok place
  | part :: rest =>
    match t.node? place with
    | none => .error .missing
    | some (.file _) => .error .notDirectory
    | some .directory =>
      if part = ".." then t.follow place.dropLast rest
      else if part.utf8ByteSize > 255 then .error .nameTooLong
      else t.follow (place ++ [part]) rest

/-- What a path leads to. A path that ends in a slash has to lead to a directory. -/
def resolve (t : Tree) (path : String) : Except Fault Node :=
  if path.contains '\x00' then .error .nullCharacter
  else if path = "" then .error .missing
  else if path.utf8ByteSize ≥ 4096 then .error .nameTooLong
  else
    match t.follow (if path.startsWith "/" then [] else t.here) (parts path) with
    | .error fault => .error fault
    | .ok place =>
      match t.node? place with
      | none => .error .missing
      | some .directory => .ok .directory
      | some (.file content) =>
        if path.endsWith "/" || path.endsWith "/." then .error .notDirectory
        else .ok (.file content)

def readText (t : Tree) (path : String) : Except Fault String :=
  match t.resolve path with
  | .error fault => .error fault
  | .ok .directory => .error .directory
  | .ok (.file content) =>
    match String.fromUTF8? content with
    | some text => .ok text
    | none => .error .notText

def toFiles (t : Tree) : Files Id where
  read path := t.readText path
  isThere path := (t.resolve path).isOk
  home := some ("/" ++ "/".intercalate t.home)

end Tree

end Files

end FiniteAutomata
