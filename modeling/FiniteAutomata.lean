import FiniteAutomata.Analysis.Dot
import FiniteAutomata.Analysis.Written
import FiniteAutomata.CommandLine.Run
import FiniteAutomata.Main
import FiniteAutomata.Proofs.Document.Derivation
import FiniteAutomata.Proofs.Language.Shape
import FiniteAutomata.Proofs.Session.Freshness
import FiniteAutomata.Proofs.Session.Separation
import FiniteAutomata.Proofs.Snapshot.SavedText
import FiniteAutomata.Session.Command
import FiniteAutomata.Proofs.Renaming.Edit
import FiniteAutomata.Proofs.Renaming.Load
import FiniteAutomata.Proofs.Renaming.View
import FiniteAutomata.Proofs.Session.Simulation
import FiniteAutomata.Proofs.Session.Independence
import FiniteAutomata.Proofs.Session.Ledger
import FiniteAutomata.Proofs.Session.Mapping
import FiniteAutomata.Proofs.Language.Determinism
import FiniteAutomata.Proofs.Mirror.Isomorphism
import FiniteAutomata.Proofs.Graph.Drawing
import FiniteAutomata.Proofs.Document.Writing
import FiniteAutomata.Proofs.Document.Loading
import FiniteAutomata.Proofs.Placement.Run
import FiniteAutomata.Proofs.Language.Counting
import FiniteAutomata.Proofs.Language.Cleaning
import FiniteAutomata.Proofs.Graph.Initial
import FiniteAutomata.Proofs.Document.Interleaving
import FiniteAutomata.Proofs.Language.Tabulation
import FiniteAutomata.Proofs.Language.Walk
import FiniteAutomata.Proofs.Graph.Removal
import FiniteAutomata.Proofs.Snapshot.Loading
import FiniteAutomata.Proofs.Graph.Undoing
import FiniteAutomata.Proofs.Graph.Naming
import FiniteAutomata.Proofs.Spelling.View
import FiniteAutomata.Proofs.Spelling.Expression
import FiniteAutomata.Proofs.Language.Legibility
import FiniteAutomata.Proofs.Document.Inscription
import FiniteAutomata.Proofs.CommandLine.Agreement
import FiniteAutomata.Proofs.Document.Continuation
import FiniteAutomata.Proofs.Document.Expectation
import FiniteAutomata.Proofs.Document.FirstImpossible
import FiniteAutomata.Proofs.Table.Alignment
import FiniteAutomata.Proofs.Graph.Hitting
import FiniteAutomata.Proofs.Graph.Agreement
import FiniteAutomata.Proofs.Housing.Consistency
