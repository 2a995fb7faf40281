import FiniteAutomata.Document.Construction
import FiniteAutomata.Document.Parse
import FiniteAutomata.Error
import FiniteAutomata.Snapshot.Text

/-!
Where graphs come from: a document, a saved graph, a snapshot, or nothing but a name.
-/
namespace FiniteAutomata

namespace Graph

/-- Loads a graph from the text of a document. -/
def ofDocumentText (source : String) (supply : Supply) : Attempt Document.Complaint Graph :=
  match Document.parse source with
  | .ok d => d.toGraph supply
  | .error e => ⟨.error e, supply⟩

end Graph

inductive Source
  | document (text : String)
  | saved (text : String)
  | snapshot (text : String)
  | named (name : String)
  | unnamed

/-- Loads a graph. -/
def Source.load (s : Source) (supply : Supply) : Attempt Error Graph :=
  match s with
  | .document text =>
    let made := Graph.ofDocumentText text supply
    ⟨made.outcome.mapError .document, made.supply⟩
  | .saved text =>
    let made := Graph.ofSnapshotText text supply
    ⟨made.outcome.mapError .snapshotText, made.supply⟩
  | .snapshot text =>
    match Snapshot.ofText text with
    | .error fault => ⟨.error (.snapshotText (.unreadable fault)), supply⟩
    | .ok s =>
      let made := s.toGraph supply
      ⟨made.outcome.mapError .ofSnapshot, made.supply⟩
  | .named name => ⟨.ok (.named name), supply⟩
  | .unnamed => ⟨.ok .unnamed, supply⟩

end FiniteAutomata
