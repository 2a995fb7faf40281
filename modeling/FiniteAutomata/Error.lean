import FiniteAutomata.Document.Token
import FiniteAutomata.Files
import FiniteAutomata.Graph.Basic
import FiniteAutomata.Session.Token
import FiniteAutomata.Snapshot.Text
import FiniteAutomata.Text.Quoted

/-!
Everything that can go wrong, by cause, and its wording.
-/
namespace FiniteAutomata

inductive Error
  | file (fault : Files.Fault)
  | unknownSession (token : Session.Token)
  | unknownState (id : StateId)
  | unknownEndpoint (id : StateId)
  | document (complaint : Document.Complaint)
  | duplicateState (id : StateId)
  | snapshotText (fault : Snapshot.TextFault)
  | settingsFile (path : String) (fault : Files.Fault)
  | settings
  | tableAsDot
deriving DecidableEq, Repr

namespace Error

def ofGraph : Graph.Fault → Error
  | .unknownState id => .unknownState id
  | .unknownEndpoint id => .unknownEndpoint id

def ofSnapshot : Snapshot.Fault → Error
  | .duplicateState id => .duplicateState id
  | .unknownEndpoint id => .unknownEndpoint id

/-- Whether the error says that something named is not there. -/
def isNotFound : Error → Bool
  | .unknownSession _ | .unknownState _ => true
  | _ => false

def endpointMessage (id : StateId) : String :=
  "Invalid transition endpoint: state " ++ id.text ++ " is not part of this automaton"

def duplicateMessage (id : StateId) : String := "Snapshot error: duplicate state id " ++ id.text

/-- How an error is worded. If JSON cannot be read or settings are refused, only the kind of error
is told. Whoever read the text adds in words of its own what is wrong with it, and these words are
left out here. -/
def message : Error → String
  | .file fault => "IO error: " ++ fault.message
  | .unknownSession token => "Session not found: " ++ token.toText
  | .unknownState id => "Not found: state " ++ id.text
  | .unknownEndpoint id => endpointMessage id
  | .document complaint => complaint.message
  | .duplicateState id => duplicateMessage id
  | .snapshotText (.unreadable _) => "JSON error"
  | .snapshotText (.rejected (.duplicateState id)) => "JSON error: " ++ duplicateMessage id
  | .snapshotText (.rejected (.unknownEndpoint id)) => "JSON error: " ++ endpointMessage id
  | .settingsFile path fault =>
    "Configuration error: Failed to read config file " ++ Text.quoted path ++ ": " ++ fault.message
  | .settings => "Configuration error"
  | .tableAsDot => "DOT output is only available for the analyze command"

end Error

end FiniteAutomata
