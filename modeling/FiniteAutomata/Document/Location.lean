/-!
Places in a document, counted in lines and columns from one. A line ends behind its newline.
-/
namespace FiniteAutomata.Document

structure Location where
  line : Nat
  column : Nat
deriving DecidableEq, Repr

namespace Location

def start : Location := ⟨1, 1⟩

/-- The place behind a character. -/
def next (here : Location) (c : Char) : Location :=
  if c = '\n' then ⟨here.line + 1, 1⟩ else ⟨here.line, here.column + 1⟩

/-- The place behind a text. -/
def past (here : Location) (cs : List Char) : Location := cs.foldl next here

@[simp]
theorem past_nil (here : Location) : here.past [] = here := rfl

@[simp]
theorem past_cons (here : Location) (c : Char) (cs : List Char) :
    here.past (c :: cs) = (here.next c).past cs := rfl

@[simp]
theorem past_append (here : Location) (cs ds : List Char) :
    here.past (cs ++ ds) = (here.past cs).past ds := List.foldl_append ..

end Location

end FiniteAutomata.Document
