import FiniteAutomata.Decimal.Basic
import FiniteAutomata.Document.Basic
import FiniteAutomata.Document.Rule

/-!
The grammar of documents, one rule for each phrase. `finish` is the place where the text ends, of
which a rule complains when it runs out of tokens. Rows of properties and of items end because
every rule in them takes a token.
-/
namespace FiniteAutomata.Document.Grammar

open Rule

/-- The symbol that a token stands for. -/
def symbolOf? (t : Token) : Option String :=
  match t.kind with
  | .identifier | .number => some t.text
  | .epsilon => some "ε"
  | _ => none

def symbol (finish : Location) : Rule String := meaning finish .symbolExpected symbolOf?

/-- One symbol, or several with commas between them. -/
def symbols (finish : Location) : Rule (List String)
  | [] => .error ⟨.symbolExpected, finish⟩
  | t :: ts =>
    match symbolOf? t with
    | none => .error ⟨.symbolExpected, t.location⟩
    | some symbol =>
      match ts with
      | [] => .ok ([symbol], [])
      | c :: rest =>
        if c.kind = .comma then
          match symbols finish rest with
          | .ok (more, rest) => .ok (symbol :: more, rest)
          | .error e => .error e
        else .ok ([symbol], c :: rest)

def booleanOf? (t : Token) : Option Bool :=
  match t.kind with
  | .trueWord => some true
  | .falseWord => some false
  | _ => none

def boolean (finish : Location) : Rule Bool := meaning finish .booleanExpected booleanOf?

def coordinate (finish : Location) : Rule Float := do
  let t ← expect finish .number
  match Decimal.ofText? t.text with
  | some d => pure d.toFloat
  | none => throw ⟨.invalidNumber t.text, t.location⟩

def position (finish : Location) : Rule Point := do
  let _ ← expect finish .openParen
  let x ← coordinate finish
  let _ ← expect finish .comma
  let y ← coordinate finish
  let _ ← expect finish .closeParen
  pure ⟨x, y⟩

/-- The value of the property that a token names. -/
def propertyValue (finish : Location) (name : Token) : Rule Property :=
  match name.text with
  | "initial" => .initial <$> boolean finish
  | "accepting" => .accepting <$> boolean finish
  | "position" => .position <$> position finish
  | "label" => (.label ·.text) <$> expect finish .string
  | other => throw ⟨.unknownProperty other, name.location⟩

def property (finish : Location) : Rule Property := do
  let name ← expect finish .identifier
  let _ ← expect finish .colon
  propertyValue finish name

theorem consumes_symbols (finish : Location) : (symbols finish).Consumes where
  shorter {ts rest ss} h := by
    fun_induction symbols finish ts generalizing ss rest with
    | case1 => cases h
    | case2 => cases h
    | case3 => cases h; exact Nat.lt_succ_self _
    | case4 t symbol ht c us hc more us' hrec ih =>
      cases h
      have := ih hrec
      simp only [List.length_cons]
      omega
    | case5 => cases h
    | case6 => cases h; exact Nat.lt_succ_self _

theorem consumes_coordinate (finish : Location) : (coordinate finish).Consumes := by
  refine (consumes_expect ..).bind fun t => ?_
  split
  · exact keeps_pure _
  · exact keeps_throw _

theorem consumes_position (finish : Location) : (position finish).Consumes :=
  (consumes_expect ..).bind fun _ => ((consumes_coordinate ..).bind fun _ =>
    ((consumes_expect ..).bind fun _ => ((consumes_coordinate ..).bind fun _ =>
      ((consumes_expect ..).bind fun _ => keeps_pure _).keeps).keeps).keeps).keeps

theorem keeps_propertyValue (finish : Location) (name : Token) :
    (propertyValue finish name).Keeps := by
  unfold propertyValue
  split
  · exact ((consumes_meaning ..).map _).keeps
  · exact ((consumes_meaning ..).map _).keeps
  · exact ((consumes_position ..).map _).keeps
  · exact ((consumes_expect ..).map _).keeps
  · exact keeps_throw _

theorem consumes_property (finish : Location) : (property finish).Consumes :=
  (consumes_expect ..).bind fun name => ((consumes_expect ..).bind fun _ =>
    keeps_propertyValue finish name).keeps

/-- Properties up to a closing brace, which is taken too. -/
def propertiesIn (finish : Location) (ts : List Token) :
    Except Complaint (List Property × List Token) :=
  if headKind ts = .closeBrace then .ok ([], ts.tail)
  else
    match _h : property finish ts with
    | .error e => .error e
    | .ok (p, rest) =>
      match propertiesIn finish rest with
      | .error e => .error e
      | .ok (ps, rest) => .ok (p :: ps, rest)
termination_by ts.length
decreasing_by exact (consumes_property finish).shorter _h

def properties (finish : Location) : Rule (List Property) := propertiesIn finish

theorem keeps_properties (finish : Location) : (properties finish).Keeps where
  notLonger {ts rest ps} h := by
    change propertiesIn finish ts = _ at h
    fun_induction propertiesIn finish ts generalizing ps rest with
    | case1 ts hts => cases h; simp
    | case2 => cases h
    | case3 => cases h
    | case4 ts hts p us hp qs us' hrec ih =>
      cases h
      have := ih hrec
      have := (consumes_property finish).shorter hp
      omega

def stateDecl (finish : Location) : Rule StateDecl := do
  let start ← expect finish .state
  let id ← expect finish .identifier
  let _ ← expect finish .openBrace
  let said ← properties finish
  pure (said.foldl StateDecl.set (.bare id.text start.location))

def transitionDecl (finish : Location) : Rule TransitionDecl := do
  let source ← expect finish .identifier
  let _ ← expect finish .dash
  let read ← symbols finish
  let _ ← expect finish .arrow
  let target ← expect finish .identifier
  pure ⟨source.text, target.text, read, source.location⟩

def metadataValueOf? (t : Token) : Option String :=
  match t.kind with
  | .string | .number | .identifier => some t.text
  | _ => none

def metadata (finish : Location) : Rule (String × String) := do
  let key ← expect finish .identifier
  let _ ← expect finish .colon
  let value ← meaning finish .metadataValueExpected metadataValueOf?
  pure (key.text, value)

def alphabet (finish : Location) : Rule (List String) := do
  let _ ← expect finish .alphabet
  let _ ← expect finish .colon
  symbols finish

/-- The rule for an item that begins with tokens of these two kinds. A name with a colon behind it
is a remark, any other name begins a transition. -/
def itemOf (finish : Location) (head second : Token.Kind) : Rule Item :=
  match head with
  | .identifier =>
    if second = .colon then (fun (key, value) => .metadata key value) <$> metadata finish
    else .transition <$> transitionDecl finish
  | .alphabet => .alphabet <$> alphabet finish
  | .state => .state <$> stateDecl finish
  | _ => complain finish .unexpectedToken

def item (finish : Location) : Rule Item :=
  fun ts => itemOf finish (headKind ts) (headKind ts.tail) ts

theorem consumes_stateDecl (finish : Location) : (stateDecl finish).Consumes :=
  (consumes_expect ..).bind fun _ => ((consumes_expect ..).bind fun _ =>
    ((consumes_expect ..).bind fun _ => (keeps_properties ..).bind fun _ =>
      keeps_pure _).keeps).keeps

theorem consumes_transitionDecl (finish : Location) : (transitionDecl finish).Consumes :=
  (consumes_expect ..).bind fun _ => ((consumes_expect ..).bind fun _ =>
    ((consumes_symbols ..).bind fun _ => ((consumes_expect ..).bind fun _ =>
      ((consumes_expect ..).bind fun _ => keeps_pure _).keeps).keeps).keeps).keeps

theorem consumes_metadata (finish : Location) : (metadata finish).Consumes :=
  (consumes_expect ..).bind fun _ => ((consumes_expect ..).bind fun _ =>
    ((consumes_meaning ..).bind fun _ => keeps_pure _).keeps).keeps

theorem consumes_alphabet (finish : Location) : (alphabet finish).Consumes :=
  (consumes_expect ..).bind fun _ => ((consumes_expect ..).bind fun _ =>
    (consumes_symbols ..).keeps).keeps

theorem consumes_itemOf (finish : Location) (head second : Token.Kind) :
    (itemOf finish head second).Consumes := by
  unfold itemOf
  split
  · split
    · exact (consumes_metadata ..).map _
    · exact (consumes_transitionDecl ..).map _
  · exact (consumes_alphabet ..).map _
  · exact (consumes_stateDecl ..).map _
  · exact consumes_complain ..

/-- Items up to a closing brace, which is taken too. -/
def itemsIn (finish : Location) (ts : List Token) : Except Complaint (List Item × List Token) :=
  if headKind ts = .closeBrace then .ok ([], ts.tail)
  else
    match _h : item finish ts with
    | .error e => .error e
    | .ok (i, rest) =>
      match itemsIn finish rest with
      | .error e => .error e
      | .ok (more, rest) => .ok (i :: more, rest)
termination_by ts.length
decreasing_by exact (consumes_itemOf ..).shorter _h

def items (finish : Location) : Rule (List Item) := itemsIn finish

/-- A whole document, which nothing may follow. -/
def document (finish : Location) : Rule Document := do
  let _ ← expect finish .automaton
  let name ← expect finish .string
  let _ ← expect finish .openBrace
  let found ← items finish
  match ← get with
  | [] => pure (ofItems name.text found)
  | t :: _ => throw ⟨.expected .finish t.kind, t.location⟩

end FiniteAutomata.Document.Grammar
