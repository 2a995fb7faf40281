import FiniteAutomata.Decimal.Basic
import FiniteAutomata.Document.Basic
import FiniteAutomata.Document.Token

/-!
The grammar of documents. For each kind of phrase there is a relation between the tokens that make
the phrase and what the phrase says; `Document.Derived` is the one for whole documents, up to and
with the token that stands for the end.
-/
namespace FiniteAutomata.Document

/-! ### Symbols -/

inductive SymbolPhrase : Token → String → Prop
  | word {t : Token} (h : t.kind = .identifier) : SymbolPhrase t t.text
  | number {t : Token} (h : t.kind = .number) : SymbolPhrase t t.text
  | epsilon {t : Token} (h : t.kind = .epsilon) : SymbolPhrase t "ε"

/-- Symbols with commas between them. -/
inductive SymbolsPhrase : List Token → List String → Prop
  | last {t : Token} {symbol : String} (h : SymbolPhrase t symbol) : SymbolsPhrase [t] [symbol]
  | more {t comma : Token} {symbol : String} {ts : List Token} {symbols : List String}
      (h : SymbolPhrase t symbol) (hcomma : comma.kind = .comma)
      (hmore : SymbolsPhrase ts symbols) : SymbolsPhrase (t :: comma :: ts) (symbol :: symbols)

/-! ### Properties of states -/

inductive BooleanPhrase : Token → Bool → Prop
  | yes {t : Token} (h : t.kind = .trueWord) : BooleanPhrase t true
  | no {t : Token} (h : t.kind = .falseWord) : BooleanPhrase t false

/-- The double that digits with at most one point among them write. -/
def numberValue (text : String) : Float :=
  let whole := text.toList.takeWhile (· ≠ '.')
  let fraction := (text.toList.dropWhile (· ≠ '.')).drop 1
  (Decimal.ofDigits false whole fraction 0).toFloat

inductive CoordinatePhrase : Token → Float → Prop
  | number {t : Token} (h : t.kind = .number) (hpoints : t.text.toList.count '.' ≤ 1) :
      CoordinatePhrase t (numberValue t.text)

inductive PropertyPhrase : List Token → Property → Prop
  | initial {name colon t : Token} {value : Bool} (hname : name.kind = .identifier)
      (htext : name.text = "initial") (hcolon : colon.kind = .colon) (h : BooleanPhrase t value) :
      PropertyPhrase [name, colon, t] (.initial value)
  | accepting {name colon t : Token} {value : Bool} (hname : name.kind = .identifier)
      (htext : name.text = "accepting") (hcolon : colon.kind = .colon)
      (h : BooleanPhrase t value) : PropertyPhrase [name, colon, t] (.accepting value)
  | position {name colon opened tx comma ty closed : Token} {x y : Float}
      (hname : name.kind = .identifier) (htext : name.text = "position")
      (hcolon : colon.kind = .colon) (hopened : opened.kind = .openParen)
      (hx : CoordinatePhrase tx x) (hcomma : comma.kind = .comma) (hy : CoordinatePhrase ty y)
      (hclosed : closed.kind = .closeParen) :
      PropertyPhrase [name, colon, opened, tx, comma, ty, closed] (.position ⟨x, y⟩)
  | label {name colon t : Token} (hname : name.kind = .identifier) (htext : name.text = "label")
      (hcolon : colon.kind = .colon) (h : t.kind = .string) :
      PropertyPhrase [name, colon, t] (.label t.text)

/-! ### Items -/

/-- Phrases of one kind, one after the other. -/
inductive Row {α : Type} (Phrase : List Token → α → Prop) : List Token → List α → Prop
  | nil : Row Phrase [] []
  | cons {ts us : List Token} {a : α} {as : List α} (h : Phrase ts a) (hrest : Row Phrase us as) :
      Row Phrase (ts ++ us) (a :: as)

namespace Property

def initial? : Property → Option Bool
  | .initial value => some value
  | _ => none

def accepting? : Property → Option Bool
  | .accepting value => some value
  | _ => none

def position? : Property → Option Point
  | .position value => some value
  | _ => none

def label? : Property → Option String
  | .label value => some value
  | _ => none

end Property

/-- What is said last on a property, if anything is. -/
def lastSaid {α : Type} (on? : Property → Option α) (said : List Property) : Option α :=
  (said.filterMap on?).getLast?

/-- The declaration of a state of which these properties are said. Flags that nothing is said of are
not set. -/
def declared (id : String) (said : List Property) (location : Location) : StateDecl where
  id
  initial := (lastSaid Property.initial? said).getD false
  accepting := (lastSaid Property.accepting? said).getD false
  position := lastSaid Property.position? said
  label := lastSaid Property.label? said
  location

inductive MetadataValuePhrase : Token → String → Prop
  | string {t : Token} (h : t.kind = .string) : MetadataValuePhrase t t.text
  | number {t : Token} (h : t.kind = .number) : MetadataValuePhrase t t.text
  | word {t : Token} (h : t.kind = .identifier) : MetadataValuePhrase t t.text

inductive ItemPhrase : List Token → Item → Prop
  | metadata {key colon t : Token} {value : String} (hkey : key.kind = .identifier)
      (hcolon : colon.kind = .colon) (h : MetadataValuePhrase t value) :
      ItemPhrase [key, colon, t] (.metadata key.text value)
  | alphabet {head colon : Token} {ts : List Token} {symbols : List String}
      (hhead : head.kind = .alphabet) (hcolon : colon.kind = .colon)
      (h : SymbolsPhrase ts symbols) : ItemPhrase (head :: colon :: ts) (.alphabet symbols)
  | state {head id opened closed : Token} {ts : List Token} {said : List Property}
      (hhead : head.kind = .state) (hid : id.kind = .identifier)
      (hopened : opened.kind = .openBrace) (hsaid : Row PropertyPhrase ts said)
      (hclosed : closed.kind = .closeBrace) :
      ItemPhrase (head :: id :: opened :: (ts ++ [closed]))
        (.state (declared id.text said head.location))
  | transition {source dash arrow target : Token} {ts : List Token} {symbols : List String}
      (hsource : source.kind = .identifier) (hdash : dash.kind = .dash)
      (h : SymbolsPhrase ts symbols) (harrow : arrow.kind = .arrow)
      (htarget : target.kind = .identifier) :
      ItemPhrase (source :: dash :: (ts ++ [arrow, target]))
        (.transition ⟨source.text, target.text, symbols, source.location⟩)

/-! ### Documents -/

namespace Item

def metadata? : Item → Option (String × String)
  | .metadata key value => some (key, value)
  | _ => none

/-- The symbols that an item declares. -/
def symbols : Item → List String
  | .alphabet symbols => symbols
  | _ => []

def state? : Item → Option StateDecl
  | .state decl => some decl
  | _ => none

def transition? : Item → Option TransitionDecl
  | .transition decl => some decl
  | _ => none

end Item

inductive Derived : List Token → Document → Prop
  | document {head name opened closed finish : Token} {ts : List Token} {items : List Item}
      (hhead : head.kind = .automaton) (hname : name.kind = .string)
      (hopened : opened.kind = .openBrace) (hitems : Row ItemPhrase ts items)
      (hclosed : closed.kind = .closeBrace) (hfinish : finish.kind = .finish) :
      Derived (head :: name :: opened :: (ts ++ [closed, finish]))
        { name := name.text
          metadata := items.filterMap Item.metadata?
          alphabet := items.flatMap Item.symbols
          states := items.filterMap Item.state?
          transitions := items.filterMap Item.transition? }

end FiniteAutomata.Document
