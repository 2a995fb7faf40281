import FiniteAutomata.Proofs.Document.Derivation
import FiniteAutomata.Proofs.Document.Writing

/-!
What the rules still wait for. Between two tokens the rules of a document amount to a stack of
`Want`s. A token is taken by the topmost want, which leaves what it wants in its turn, and tokens
are read as far as each of them is wanted (`halt`). Every rule reads as its wants do
(`Traces`), and where it complains, the place is that of the first token that is not wanted
(`Blames`), with one exception: whether a property is known is only looked at behind its colon.
-/
namespace FiniteAutomata.Document

/-! ### Some lexemes -/

namespace Spelling

def openBrace : Spelling := .mark ('{', .openBrace) (by decide)

def closeBrace : Spelling := .mark ('}', .closeBrace) (by decide)

def openParen : Spelling := .mark ('(', .openParen) (by decide)

def closeParen : Spelling := .mark (')', .closeParen) (by decide)

def colon : Spelling := .mark (':', .colon) (by decide)

def comma : Spelling := .mark (',', .comma) (by decide)

def automaton : Spelling :=
  .keyword ("automaton", .automaton) (by decide) "automaton".toList (by decide)

def trueWord : Spelling := .keyword ("true", .trueWord) (by decide) "true".toList (by decide)

/-- The identifier `q`. -/
def name : Spelling := .identifier 'q' [] (by decide) nofun (by decide)

/-- The identifier `initial`. -/
def initialName : Spelling :=
  .identifier 'i' "nitial".toList (by decide) (List.all_eq_true.mp (by decide)) (by decide)

def zero : Spelling := .number '0' [] (by decide) nofun

def emptyString : Spelling := .string []

end Spelling

/-! ### Wants -/

/-- What a rule waits for: a token of one kind, a token that has a meaning, or what comes next in a
row of symbols, of properties or of items. -/
inductive Want
  | like (s : Spelling)
  | value
  | symbol
  | boolean
  | coordinate
  /-- What makes a remark or a transition of the name before it. -/
  | tail
  /-- Another symbol of a transition, or its arrow. -/
  | arrow
  /-- Another symbol of a declared alphabet, or what comes after it. -/
  | letters
  | properties
  | items

namespace Want

/-- What is wanted of a property behind its colon. -/
def ofProperty (name : String) : Option (List Want) :=
  match name with
  | "initial" => some [.boolean]
  | "accepting" => some [.boolean]
  | "position" =>
    some [.like .openParen, .coordinate, .like .comma, .coordinate, .like .closeParen]
  | "label" => some [.like .emptyString]
  | _ => none

def ofItem (t : Token) : Option (List Want) :=
  match t.kind with
  | .closeBrace => some []
  | .identifier => some [.tail, .items]
  | .alphabet => some [.like .colon, .symbol, .letters]
  | .state => some [.like .name, .like .openBrace, .properties, .items]
  | _ => none

/-- What is wanted in the place of a want behind a token that it takes. -/
def after (t : Token) : Want → Option (List Want)
  | .like s => if t.kind = s.kind then some [] else none
  | .value => (Grammar.metadataValueOf? t).map fun _ => []
  | .symbol => (Grammar.symbolOf? t).map fun _ => []
  | .boolean => (Grammar.booleanOf? t).map fun _ => []
  | .coordinate => if t.kind = .number then (Decimal.ofText? t.text).map fun _ => [] else none
  | .tail =>
    match t.kind with
    | .colon => some [.value]
    | .dash => some [.symbol, .arrow]
    | _ => none
  | .arrow =>
    match t.kind with
    | .comma => some [.symbol, .arrow]
    | .arrow => some [.like .name]
    | _ => none
  | .letters => if t.kind = .comma then some [.symbol, .letters] else ofItem t
  | .properties =>
    match t.kind with
    | .closeBrace => some []
    | .identifier => (ofProperty t.text).map fun ws => .like .colon :: (ws ++ [.properties])
    | _ => none
  | .items => ofItem t

/-- Lexemes that a want can end with. -/
def fill : Want → List Spelling
  | .like s => [s]
  | .value => [.emptyString]
  | .symbol => [.name]
  | .boolean => [.trueWord]
  | .coordinate => [.zero]
  | .tail => [.colon, .emptyString]
  | .arrow => [.arrow, .name]
  | .letters => [.closeBrace]
  | .properties => [.closeBrace]
  | .items => [.closeBrace]

/-- What a want comes to where nothing is taken for it: there is no other declared symbol then. -/
def settled : Want → Want
  | .letters => .items
  | w => w

end Want

/-- A stack of wants behind a token. -/
def advance (t : Token) : List Want → Option (List Want)
  | [] => none
  | w :: s => (w.after t).map (· ++ s)

/-- Reads tokens as long as they are wanted: what is wanted in the end, and what is not read. -/
def halt (s : List Want) : List Token → List Want × List Token
  | [] => (s.map Want.settled, [])
  | t :: ts =>
    match advance t s with
    | some s' => halt s' ts
    | none => (s.map Want.settled, t :: ts)

/-- What a document waits for. -/
def Want.document : List Want :=
  [.like .automaton, .like .emptyString, .like .openBrace, .items]

section Halt

variable {s s' more : List Want} {w : Want} {t : Token} {ts us : List Token}

theorem halt_cons (h : w.after t = some more) (s : List Want) (ts : List Token) :
    halt (w :: s) (t :: ts) = halt (more ++ s) ts := by
  rw [halt, advance, h]
  rfl

theorem halt_cons_none (h : w.after t = none) (s : List Want) (ts : List Token) :
    halt (w :: s) (t :: ts) = ((w :: s).map Want.settled, t :: ts) := by
  rw [halt, advance, h]
  rfl

/-- Where no comma comes, only what comes after the declared symbols is waited for. -/
theorem halt_letters (h : headKind ts ≠ .comma) (s : List Want) :
    halt (.letters :: s) ts = halt (.items :: s) ts := by
  cases ts with
  | nil => rfl
  | cons t ts =>
    have hafter : Want.letters.after t = Want.items.after t := if_neg h
    rw [halt, halt, advance, advance, hafter]
    rfl

end Halt

/-! ### Complaints -/

/-- The head of the tokens, or the token that stands for the end. -/
def nextToken (finish : Location) (ts : List Token) : Token := ts.headD ⟨.finish, "", finish⟩

/-- The kind and the text of the token that a fault quotes. -/
def Fault.quoted? : Fault → Option (Token.Kind × String)
  | .unknownProperty name => some (.identifier, name)
  | .invalidNumber text => some (.number, text)
  | _ => none

/-- A complaint lies at the first token that is not wanted, and quotes no other. Only where a name
is no property, a missing colon behind it comes first. -/
inductive Blames (finish : Location) : Complaint → List Want × List Token → Prop
  | here {c : Complaint} {s : List Want} {rest : List Token} (hopen : s ≠ [] ∨ rest ≠ [])
      (hlocation : c.location = (nextToken finish rest).location)
      (hquoted : ∀ reading, c.fault.quoted? = some reading →
        (nextToken finish rest).reading = reading) : Blames finish c (s, rest)
  | colon {s : List Want} {name : Token} {rest : List Token} (hname : name.kind = .identifier)
      (htext : Want.ofProperty name.text = none) :
      Blames finish
        ⟨.expected .colon (nextToken finish rest).kind, (nextToken finish rest).location⟩
        (.properties :: s, name :: rest)

namespace Blames

variable {finish : Location} {c : Complaint} {w : Want} {s : List Want}

/-- A complaint that quotes nothing. -/
theorem unquoted {rest : List Token} (hfault : c.fault.quoted? = none)
    (hlocation : c.location = (nextToken finish rest).location) :
    Blames finish c (w :: s, rest) := by
  refine .here (.inl (List.cons_ne_nil _ _)) hlocation fun reading h => ?_
  rw [hfault] at h
  cases h

/-- A complaint that quotes the token where it lies. -/
theorem quoted {t : Token} {rest : List Token} (hfault : c.fault.quoted? = some t.reading)
    (hlocation : c.location = t.location) : Blames finish c (w :: s, t :: rest) :=
  .here (.inl (List.cons_ne_nil _ _)) hlocation fun _ h => Option.some.inj (hfault.symm.trans h)

end Blames

namespace Rule

variable {α β : Type} {r : Rule α} {f : α → Rule β} {ts : List Token}

theorem bind_of_ok {a : α} {rest : List Token} (h : r ts = .ok (a, rest)) :
    (r >>= f) ts = f a rest := by
  change (r ts >>= fun (p : α × List Token) => f p.1 p.2) = _
  rw [h]
  rfl

theorem bind_eq_error {c : Complaint} (h : (r >>= f) ts = .error c) :
    r ts = .error c ∨ ∃ a us, r ts = .ok (a, us) ∧ f a us = .error c := by
  cases hr : r ts with
  | error e =>
    change (r ts >>= fun (p : α × List Token) => f p.1 p.2) = _ at h
    rw [hr] at h
    cases h
    exact .inl rfl
  | ok p => exact .inr ⟨p.1, p.2, rfl, (bind_of_ok hr).symm.trans h⟩

theorem bind_of_error {c : Complaint} (h : r ts = .error c) : (r >>= f) ts = .error c := by
  change (r ts >>= fun (p : α × List Token) => f p.1 p.2) = _
  rw [h]
  rfl

end Rule

theorem expect_eq_error {finish : Location} {kind : Token.Kind} {ts : List Token} {c : Complaint}
    (h : expect finish kind ts = .error c) :
    c = ⟨.expected kind (nextToken finish ts).kind, (nextToken finish ts).location⟩ := by
  cases ts with
  | nil =>
    cases h
    rfl
  | cons t ts =>
    rw [expect] at h
    split at h
    · cases h
    · cases h
      rfl

/-- Whatever is no property is complained about where its name stands. -/
theorem Grammar.propertyValue_of_unknown {name : Token} (h : Want.ofProperty name.text = none)
    (finish : Location) (ts : List Token) :
    propertyValue finish name ts = .error ⟨.unknownProperty name.text, name.location⟩ := by
  generalize hrule : propertyValue finish name = r
  unfold propertyValue at hrule
  split at hrule <;> subst hrule
  case h_5 => rfl
  all_goals
    rename_i htext
    rw [htext] at h
    cases h

/-- On some tokens a rule reads what is wanted up to `s'`, or complains about the first token that
is not wanted. -/
structure Traces {α : Type} (finish : Location) (r : Rule α) (s s' : List Want)
    (ts : List Token) : Prop where
  ok : ∀ {a rest}, r ts = .ok (a, rest) → halt s ts = halt s' rest
  error : ∀ {c}, r ts = .error c → Blames finish c (halt s ts)

namespace Traces

variable {α β : Type} {finish : Location} {r : Rule α} {s s' s'' : List Want} {w : Want}
  {ts : List Token}

theorem of_ok {a : α} {rest : List Token} (h : r ts = .ok (a, rest))
    (hhalt : halt s ts = halt s' rest) : Traces finish r s s' ts where
  ok h' := by
    cases h.symm.trans h'
    exact hhalt
  error h' := by cases h.symm.trans h'

theorem of_error {c : Complaint} (h : r ts = .error c) (hblames : Blames finish c (halt s ts)) :
    Traces finish r s s' ts where
  ok h' := by cases h.symm.trans h'
  error h' := by
    cases h.symm.trans h'
    exact hblames

theorem bind {f : α → Rule β} (hr : Traces finish r s s' ts)
    (hf : ∀ a rest, r ts = .ok (a, rest) → Traces finish (f a) s' s'' rest) :
    Traces finish (r >>= f) s s'' ts where
  ok h := by
    obtain ⟨a, us, ha, hb⟩ := Rule.bind_eq_ok h
    rw [hr.ok ha, (hf a us ha).ok hb]
  error h := by
    rcases Rule.bind_eq_error h with ha | ⟨a, us, ha, hb⟩
    · exact hr.error ha
    · rw [hr.ok ha]
      exact (hf a us ha).error hb

theorem pure (a : α) : Traces finish (Pure.pure a : Rule α) s s ts := of_ok rfl rfl

theorem map (hr : Traces finish r s s' ts) (f : α → β) : Traces finish (f <$> r) s s' ts :=
  hr.bind fun a _ _ => pure (f a)

/-- A rule that has taken its first tokens goes on with the others. -/
theorem bind_of_ok {f : α → Rule β} {a : α} {rest : List Token} (h : r ts = .ok (a, rest))
    (hhalt : halt s ts = halt s' rest) (hf : Traces finish (f a) s' s'' rest) :
    Traces finish (r >>= f) s s'' ts :=
  (of_ok h hhalt).bind fun a' rest' h' => by
    cases h.symm.trans h'
    exact hf

theorem bind_of_error {f : α → Rule β} {c : Complaint} (h : r ts = .error c)
    (hblames : Blames finish c (halt s ts)) : Traces finish (r >>= f) s s' ts := by
  have hr : Traces finish r s s' ts := of_error h hblames
  exact hr.bind fun _ _ h' => by cases h.symm.trans h'

/-- A want that takes the tokens of one kind, at least if they come next. -/
theorem expect {kind : Token.Kind} (more : List Want)
    (hyes : ∀ t ∈ ts.head?, t.kind = kind → w.after t = some more)
    (hno : ∀ t ∈ ts.head?, t.kind ≠ kind → w.after t = none) :
    Traces finish (Document.expect finish kind) (w :: s) (more ++ s) ts := by
  cases ts with
  | nil => exact of_error rfl (.unquoted rfl rfl)
  | cons t ts =>
    by_cases hkind : t.kind = kind
    · exact of_ok (if_pos hkind) (halt_cons (hyes t rfl hkind) s ts)
    · refine of_error (if_neg hkind) ?_
      rw [halt_cons_none (hno t rfl hkind)]
      exact .unquoted rfl rfl

theorem like (sp : Spelling) :
    Traces finish (Document.expect finish sp.kind) (.like sp :: s) s ts :=
  expect (w := .like sp) [] (fun _ _ ht => if_pos ht) fun _ _ ht => if_neg ht

/-- A want that takes the tokens with a meaning. -/
theorem meaning {of? : Token → Option α} {fault : Fault}
    (hw : ∀ t, w.after t = (of? t).map fun _ => []) (hfault : fault.quoted? = none) :
    Traces finish (Document.meaning finish fault of?) (w :: s) s ts := by
  cases ts with
  | nil => exact of_error rfl (.unquoted hfault rfl)
  | cons t ts =>
    have hafter := hw t
    cases hof : of? t with
    | some a =>
      rw [hof] at hafter
      exact of_ok (by rw [Document.meaning, hof]) (halt_cons hafter s ts)
    | none =>
      rw [hof] at hafter
      refine of_error (by rw [Document.meaning, hof]) ?_
      rw [halt_cons_none hafter]
      exact .unquoted hfault rfl

/-! ### Properties -/

theorem boolean : Traces finish (Grammar.boolean finish) (.boolean :: s) s ts :=
  meaning (fun _ => rfl) rfl

theorem coordinate : Traces finish (Grammar.coordinate finish) (.coordinate :: s) s ts := by
  cases ts with
  | nil => exact of_error rfl (.unquoted rfl rfl)
  | cons t ts =>
    by_cases hkind : t.kind = .number
    · have hafter : Want.coordinate.after t = (Decimal.ofText? t.text).map fun _ => [] :=
        if_pos hkind
      have htaken : Document.expect finish .number (t :: ts) = .ok (t, ts) := if_pos hkind
      cases hvalue : Decimal.ofText? t.text with
      | some d =>
        rw [hvalue] at hafter
        refine bind_of_ok htaken (halt_cons hafter s ts) ?_
        rw [hvalue]
        exact pure _
      | none =>
        rw [hvalue] at hafter
        have hrule : Grammar.coordinate finish (t :: ts) =
            .error ⟨.invalidNumber t.text, t.location⟩ := by
          rw [Grammar.coordinate, Rule.bind_of_ok htaken, hvalue]
          rfl
        refine of_error hrule ?_
        rw [halt_cons_none hafter]
        exact .quoted (congrArg (fun kind => some (kind, t.text)) hkind.symm) rfl
    · have hafter : Want.coordinate.after t = none := if_neg hkind
      refine bind_of_error (if_neg hkind) ?_
      rw [halt_cons_none hafter]
      exact .unquoted rfl rfl

theorem position :
    Traces finish (Grammar.position finish)
      (.like .openParen :: .coordinate :: .like .comma :: .coordinate :: .like .closeParen :: s) s
      ts := by
  unfold Grammar.position
  exact (like .openParen).bind fun _ _ _ => coordinate.bind fun _ _ _ =>
    (like .comma).bind fun _ _ _ => coordinate.bind fun _ _ _ =>
      (like .closeParen).bind fun _ _ _ => pure _

theorem propertyValue {name : Token} {ws : List Want} (hws : Want.ofProperty name.text = some ws) :
    Traces finish (Grammar.propertyValue finish name) (ws ++ s) s ts := by
  rw [Grammar.propertyValue]
  split
  case h_5 =>
    unfold Want.ofProperty at hws
    split at hws <;> simp_all
  all_goals
    rename_i htext
    rw [htext] at hws
    cases hws
  · exact boolean.map _
  · exact boolean.map _
  · exact position.map _
  · exact (like .emptyString).map _

theorem after_properties {name : Token} (hname : name.kind = .identifier) :
    Want.properties.after name =
      (Want.ofProperty name.text).map fun ws => .like .colon :: (ws ++ [.properties]) := by
  rw [Want.after, hname]

/-- A name that is no property is blamed at once, or for the missing colon behind it. -/
theorem property_of_unknown {name : Token} (hname : name.kind = .identifier)
    (hws : Want.ofProperty name.text = none) :
    Traces finish (Grammar.property finish) (.properties :: s) s' (name :: ts) := by
  have htaken : Document.expect finish .identifier (name :: ts) = .ok (name, ts) := if_pos hname
  have hafter : Want.properties.after name = none := by
    rw [after_properties hname, hws, Option.map_none]
  cases hcolon : Document.expect finish .colon ts with
  | ok taken =>
    obtain ⟨colon, us⟩ := taken
    have hrule : Grammar.property finish (name :: ts) =
        .error ⟨.unknownProperty name.text, name.location⟩ := by
      rw [Grammar.property, Rule.bind_of_ok htaken, Rule.bind_of_ok hcolon,
        Grammar.propertyValue_of_unknown hws]
    refine of_error hrule ?_
    rw [halt_cons_none hafter]
    exact .quoted (congrArg (fun kind => some (kind, name.text)) hname.symm) rfl
  | error c =>
    have hrule : Grammar.property finish (name :: ts) = .error c := by
      rw [Grammar.property, Rule.bind_of_ok htaken, Rule.bind_of_error hcolon]
    refine of_error hrule ?_
    rw [halt_cons_none hafter, expect_eq_error hcolon]
    exact .colon hname hws

theorem property (hts : headKind ts ≠ .closeBrace) :
    Traces finish (Grammar.property finish) (.properties :: s) (.properties :: s) ts := by
  cases ts with
  | nil => exact of_error rfl (.unquoted rfl rfl)
  | cons name ts =>
    by_cases hname : name.kind = .identifier
    · cases hws : Want.ofProperty name.text with
      | some ws =>
        have hafter := after_properties hname
        rw [hws] at hafter
        unfold Grammar.property
        refine bind_of_ok (if_pos hname) (halt_cons hafter s ts) ?_
        rw [List.cons_append, List.append_assoc]
        exact (like .colon).bind fun _ _ _ => propertyValue hws
      | none => exact property_of_unknown hname hws
    · have hafter : Want.properties.after name = none := by
        rw [Want.after]
        split
        · exact absurd ‹_› hts
        · exact absurd ‹_› hname
        · rfl
      unfold Grammar.property
      refine bind_of_error (if_neg hname) ?_
      rw [halt_cons_none hafter]
      exact .unquoted rfl rfl

/-! ### Items -/

theorem after_symbol {t : Token} {symbol : String} (h : Grammar.symbolOf? t = some symbol) :
    Want.symbol.after t = some [] := by
  rw [Want.after, h]
  rfl

/-- A symbol and a comma leave what was wanted before them. -/
theorem halt_symbol_comma {t comma : Token} {symbol : String}
    (h : Grammar.symbolOf? t = some symbol) (hcomma : w.after comma = some [.symbol, w])
    (rest : List Token) :
    halt (.symbol :: w :: s) (t :: comma :: rest) = halt (.symbol :: w :: s) rest := by
  rw [halt_cons (after_symbol h), List.nil_append, halt_cons hcomma]
  rfl

/-- Symbols are followed by a want that takes a comma for another one. -/
theorem symbols (hw : ∀ t, t.kind = .comma → w.after t = some [.symbol, w]) :
    Traces finish (Grammar.symbols finish) (.symbol :: w :: s) (w :: s) ts := by
  fun_induction Grammar.symbols finish ts with
  | case1 => exact of_error rfl (.unquoted rfl rfl)
  | case2 t ts hnone =>
    have hafter : Want.symbol.after t = none := by rw [Want.after, hnone]; rfl
    refine of_error (by rw [Grammar.symbols, hnone]) ?_
    rw [halt_cons_none hafter]
    exact .unquoted rfl rfl
  | case3 t symbol hsymbol =>
    exact of_ok (by rw [Grammar.symbols, hsymbol]) (halt_cons (after_symbol hsymbol) _ _)
  | case4 t symbol hsymbol comma rest hcomma more rest' hmore ih =>
    have hrule : Grammar.symbols finish (t :: comma :: rest) = .ok (symbol :: more, rest') := by
      simp only [Grammar.symbols, hsymbol, hcomma, if_true, hmore]
    exact of_ok hrule ((halt_symbol_comma hsymbol (hw comma hcomma) rest).trans (ih.ok hmore))
  | case5 t symbol hsymbol comma rest hcomma c hmore ih =>
    have hrule : Grammar.symbols finish (t :: comma :: rest) = .error c := by
      simp only [Grammar.symbols, hsymbol, hcomma, if_true, hmore]
    refine of_error hrule ?_
    rw [halt_symbol_comma hsymbol (hw comma hcomma) rest]
    exact ih.error hmore
  | case6 t symbol hsymbol other rest hother =>
    have hrule : Grammar.symbols finish (t :: other :: rest) = .ok ([symbol], other :: rest) := by
      simp only [Grammar.symbols, hsymbol, if_neg hother]
    exact of_ok hrule (halt_cons (after_symbol hsymbol) _ _)

/-- Two rules that do the same on some tokens read the same of them. -/
theorem congr {r' : Rule α} (h : r ts = r' ts) (hr : Traces finish r' s s' ts) :
    Traces finish r s s' ts :=
  ⟨fun h' => hr.ok (h.symm.trans h'), fun h' => hr.error (h.symm.trans h')⟩

theorem metadata {key : Token} (hkey : key.kind = .identifier) (hts : headKind ts = .colon) :
    Traces finish (Grammar.metadata finish) (.items :: s) (.items :: s) (key :: ts) := by
  have hafter : Want.items.after key = some [.tail, .items] := by rw [Want.after, Want.ofItem, hkey]
  unfold Grammar.metadata
  refine bind_of_ok (if_pos hkey) (halt_cons hafter s ts) ?_
  refine (expect [.value] ?_ ?_).bind fun _ _ _ => ?_
  · intro t _ hcolon
    rw [Want.after, hcolon]
  · intro t ht hother
    obtain ⟨us, rfl⟩ := List.head?_eq_some_iff.mp ht
    exact absurd hts hother
  · exact (meaning (fun _ => rfl) rfl).bind fun _ _ _ => pure _

theorem transitionDecl {source : Token} (hsource : source.kind = .identifier)
    (hts : headKind ts ≠ .colon) :
    Traces finish (Grammar.transitionDecl finish) (.items :: s) (.items :: s) (source :: ts) := by
  have hafter : Want.items.after source = some [.tail, .items] := by
    rw [Want.after, Want.ofItem, hsource]
  unfold Grammar.transitionDecl
  refine bind_of_ok (if_pos hsource) (halt_cons hafter s ts) ?_
  refine (expect [.symbol, .arrow] ?_ ?_).bind fun _ _ _ => ?_
  · intro t _ hdash
    rw [Want.after, hdash]
  · intro t ht hother
    obtain ⟨us, rfl⟩ := List.head?_eq_some_iff.mp ht
    rw [Want.after]
    split
    · exact absurd ‹_› hts
    · exact absurd ‹_› hother
    · rfl
  refine (symbols fun t hcomma => by rw [Want.after, hcomma]).bind fun read rest hread => ?_
  obtain ⟨-, -, -, hend⟩ := Grammar.symbols_eq_ok_iff.mp hread
  refine (expect [.like .name] ?_ ?_).bind fun _ _ _ => (like .name).bind fun _ _ _ => pure _
  · intro t _ harrow
    rw [Want.after, harrow]
  · intro t ht hother
    obtain ⟨us, rfl⟩ := List.head?_eq_some_iff.mp ht
    rw [Want.after]
    split
    · exact absurd ‹_› hend
    · exact absurd ‹_› hother
    · rfl

theorem alphabet {head : Token} (hhead : head.kind = .alphabet) :
    Traces finish (Grammar.alphabet finish) (.items :: s) (.items :: s) (head :: ts) := by
  have hafter : Want.items.after head = some [.like .colon, .symbol, .letters] := by
    rw [Want.after, Want.ofItem, hhead]
  have hcomma : ∀ t : Token, t.kind = .comma → Want.letters.after t = some [.symbol, .letters] :=
    fun t ht => if_pos ht
  unfold Grammar.alphabet
  refine bind_of_ok (if_pos hhead) (halt_cons hafter s ts) ((like .colon).bind fun _ us _ => ?_)
  refine ⟨fun h => ?_, fun h => (symbols hcomma).error h⟩
  obtain ⟨-, -, -, hend⟩ := Grammar.symbols_eq_ok_iff.mp h
  rw [← halt_letters hend]
  exact (symbols hcomma).ok h

/-! ### Rows -/

theorem row {row : Rule (List α)} (hrow : Grammar.IsRow r row) (hconsumes : r.Consumes)
    (hclose : ∀ t : Token, t.kind = .closeBrace → w.after t = some [])
    (hr : ∀ ts, headKind ts ≠ .closeBrace → Traces finish r (w :: s) (w :: s) ts) :
    Traces finish row (w :: s) s ts := by
  -- each phrase of the row shortens what is left of it
  induction hlength : ts.length using Nat.strong_induction_on generalizing ts with
  | _ n ih =>
  by_cases hclosed : headKind ts = .closeBrace
  · cases ts with
    | nil => cases hclosed
    | cons t us =>
      have hend : row (t :: us) = .ok ([], us) := by
        rw [hrow, if_pos hclosed]
        rfl
      exact of_ok hend (halt_cons (hclose t hclosed) s us)
  · have hphrase := hr ts hclosed
    cases hrule : r ts with
    | error c => exact of_error (by rw [hrow, if_neg hclosed, hrule]) (hphrase.error hrule)
    | ok p =>
      obtain ⟨a, rest⟩ := p
      have hrest := ih rest.length (hlength ▸ hconsumes.shorter hrule) rfl
      have hhalt := hphrase.ok hrule
      cases hmore : row rest with
      | error c =>
        have hfailed : row ts = .error c := by
          rw [hrow, if_neg hclosed, hrule]
          simp only [hmore]
        exact of_error hfailed (hhalt ▸ hrest.error hmore)
      | ok q =>
        have hdone : row ts = .ok (a :: q.1, q.2) := by
          rw [hrow, if_neg hclosed, hrule]
          simp only [hmore]
        exact of_ok hdone (hhalt.trans (hrest.ok hmore))

theorem stateDecl {head : Token} (hhead : head.kind = .state) :
    Traces finish (Grammar.stateDecl finish) (.items :: s) (.items :: s) (head :: ts) := by
  have hafter : Want.items.after head =
      some [.like .name, .like .openBrace, .properties, .items] := by
    rw [Want.after, Want.ofItem, hhead]
  have hproperties {us : List Token} :
      Traces finish (Grammar.properties finish) (.properties :: .items :: s) (.items :: s) us :=
    row Grammar.isRow_propertiesIn (Grammar.consumes_property finish)
      (fun t ht => by rw [Want.after, ht]) fun _ => property
  unfold Grammar.stateDecl
  exact bind_of_ok (if_pos hhead) (halt_cons hafter s ts) <| (like .name).bind fun _ _ _ =>
    (like .openBrace).bind fun _ _ _ => hproperties.bind fun _ _ _ => pure _

theorem item (hts : headKind ts ≠ .closeBrace) :
    Traces finish (Grammar.item finish) (.items :: s) (.items :: s) ts := by
  cases ts with
  | nil => exact of_error rfl (.unquoted rfl rfl)
  | cons t us =>
    have hitem : Grammar.item finish (t :: us) =
        Grammar.itemOf finish t.kind (headKind us) (t :: us) := rfl
    refine congr hitem ?_
    unfold Grammar.itemOf
    split
    · rename_i hname
      split
      · exact (metadata hname ‹_›).map _
      · exact (transitionDecl hname ‹_›).map _
    · rename_i hhead
      exact (alphabet hhead).map _
    · rename_i hhead
      exact (stateDecl hhead).map _
    · have hafter : Want.items.after t = none := by
        rw [Want.after, Want.ofItem]
        split <;> simp_all [headKind]
      refine of_error (c := ⟨.unexpectedToken, t.location⟩) rfl ?_
      rw [halt_cons_none hafter]
      exact .unquoted rfl rfl

end Traces

/-! ### Documents -/

theorem traces_document {finish : Location} {ts : List Token} :
    Traces finish (Grammar.document finish) Want.document [] ts := by
  have hitems {us : List Token} : Traces finish (Grammar.items finish) [.items] [] us :=
    Traces.row Grammar.isRow_itemsIn ⟨fun h => (Grammar.consumes_itemOf finish _ _).shorter h⟩
      (fun t ht => by rw [Want.after, Want.ofItem, ht]) fun _ => Traces.item
  unfold Grammar.document
  refine (Traces.like .automaton).bind fun _ _ _ => (Traces.like .emptyString).bind fun _ _ _ =>
    (Traces.like .openBrace).bind fun _ _ _ => hitems.bind fun _ rest _ => ?_
  cases rest with
  | nil => exact Traces.of_ok rfl rfl
  | cons t us =>
    exact Traces.of_error (c := ⟨.expected .finish t.kind, t.location⟩) rfl
      (.here (.inr (List.cons_ne_nil _ _)) rfl fun _ h => by cases h)

theorem rest_of_document {finish : Location} {ts rest : List Token} {d : Document}
    (h : Grammar.document finish ts = .ok (d, rest)) : rest = [] := by
  obtain ⟨_, _, -, h⟩ := Rule.bind_eq_ok h
  obtain ⟨_, _, -, h⟩ := Rule.bind_eq_ok h
  obtain ⟨_, _, -, h⟩ := Rule.bind_eq_ok h
  obtain ⟨_, us, -, h⟩ := Rule.bind_eq_ok h
  obtain ⟨_, _, hseen, h⟩ := Rule.bind_eq_ok h
  cases hseen
  cases us with
  | nil =>
    cases h
    rfl
  | cons => cases h

/-- The tokens that make a document are those that are wanted, and no others. -/
theorem exists_ofTokens_iff {ts : Tokens} :
    (∃ d, ofTokens ts = .ok d) ↔ halt Want.document ts.toList = ([], []) := by
  cases hdocument : Grammar.document ts.finish ts.toList with
  | ok p =>
    obtain ⟨d, rest⟩ := p
    obtain rfl := rest_of_document hdocument
    exact iff_of_true ⟨d, by rw [ofTokens, hdocument]; rfl⟩ (traces_document.ok hdocument)
  | error c =>
    have hblames := traces_document.error hdocument
    refine iff_of_false ?_ fun hhalt => ?_
    · rintro ⟨d, hd⟩
      rw [ofTokens, hdocument] at hd
      cases hd
    · rw [hhalt] at hblames
      cases hblames with
      | here hopen => simp at hopen

theorem blames_of_ofTokens {ts : Tokens} {c : Complaint} (h : ofTokens ts = .error c) :
    Blames ts.finish c (halt Want.document ts.toList) := by
  cases hdocument : Grammar.document ts.finish ts.toList with
  | ok p =>
    rw [ofTokens, hdocument] at h
    cases h
  | error c' =>
    rw [ofTokens, hdocument] at h
    cases h
    exact traces_document.error hdocument

end FiniteAutomata.Document
