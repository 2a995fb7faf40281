import FiniteAutomata.Document.Grammar
import FiniteAutomata.Document.Scan

/-!
From a text to the document it writes.
-/
namespace FiniteAutomata.Document

def ofTokens (ts : Tokens) : Except Complaint Document :=
  (Grammar.document ts.finish ts.toList).map (·.1)

def parse (source : String) : Except Complaint Document :=
  match scan source with
  | .ok ts => ofTokens ts
  | .error e => .error e

end FiniteAutomata.Document
