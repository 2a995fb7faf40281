import FiniteAutomata.Proofs.Document.Parsing

/-!
Rows of phrases, and the documents they make. The rule for a row takes phrases as long as no brace
closes the row. A phrase may end in a row of symbols, which goes on behind a comma; no phrase
begins with one, so that a phrase in a row never runs into the next.
-/
namespace FiniteAutomata.Document

namespace Grammar

variable {α : Type} {finish : Location} {ts rest : List Token}

/-! ### Rows -/

/-- A rule that takes the phrases of a kind, at least where no comma is behind the phrase, and
phrases that begin with neither a closing brace nor a comma. -/
structure Takes (rule : Rule α) (Phrase : List Token → α → Prop) : Prop where
  sound {ts rest : List Token} {a : α} (hts : ∀ t ∈ ts, Written t) :
    rule ts = .ok (a, rest) → ∃ used, ts = used ++ rest ∧ Phrase used a
  complete {used rest : List Token} {a : α} (hts : ∀ t ∈ used ++ rest, Written t) :
    Phrase used a → headKind rest ≠ .comma → rule (used ++ rest) = .ok (a, rest)
  begins {used : List Token} {a : α} :
    Phrase used a → ∃ t more, used = t :: more ∧ t.kind ≠ .closeBrace ∧ t.kind ≠ .comma

/-- What `propertiesIn` and `itemsIn` have in common. -/
def IsRow (rule : Rule α) (row : Rule (List α)) : Prop :=
  ∀ ts, row ts =
    if headKind ts = .closeBrace then .ok ([], ts.tail)
    else
      match rule ts with
      | .error e => .error e
      | .ok (a, rest) =>
        match row rest with
        | .error e => .error e
        | .ok (as, rest) => .ok (a :: as, rest)

theorem isRow_propertiesIn : IsRow (property finish) (propertiesIn finish) := by
  intro ts
  rw [propertiesIn]
  refine if_congr Iff.rfl rfl ?_
  split
  · rename_i h
    rw [h]
  · rename_i p more h
    simp only [h]
    cases propertiesIn finish more <;> rfl

theorem isRow_itemsIn : IsRow (item finish) (itemsIn finish) := by
  intro ts
  rw [itemsIn]
  refine if_congr Iff.rfl rfl ?_
  split
  · rename_i h
    rw [h]
  · rename_i i more h
    simp only [h]
    cases itemsIn finish more <;> rfl

section Rows

variable {rule : Rule α} {row : Rule (List α)} {Phrase : List Token → α → Prop} {as : List α}

theorem exists_of_row_eq_ok (hrule : Takes rule Phrase) (hrow : IsRow rule row)
    (hts : ∀ t ∈ ts, Written t) (h : row ts = .ok (as, rest)) :
    ∃ used closed, ts = used ++ closed :: rest ∧ Row Phrase used as ∧
      closed.kind = .closeBrace := by
  -- each phrase shortens what is left of the row
  induction hlength : ts.length using Nat.strong_induction_on generalizing ts as with
  | _ n ih =>
  rw [hrow] at h
  split at h
  · rename_i hclosed
    cases ts with
    | nil => cases hclosed
    | cons t us =>
      cases h
      exact ⟨[], t, rfl, .nil, hclosed⟩
  · split at h
    · cases h
    rename_i a us ha
    split at h
    · cases h
    rename_i more us' hmore
    cases h
    obtain ⟨first, rfl, hfirst⟩ := hrule.sound hts ha
    obtain ⟨t, tail, rfl, -⟩ := hrule.begins hfirst
    have hshorter : us.length < n := by
      rw [← hlength, List.length_append, List.length_cons]
      omega
    obtain ⟨used, closed, rfl, hused, hclosed⟩ :=
      ih us.length hshorter (fun t ht => hts t (List.mem_append_right _ ht)) hmore rfl
    exact ⟨(t :: tail) ++ used, closed, (List.append_assoc ..).symm, .cons hfirst hused, hclosed⟩

/-- What follows a phrase in a row is another phrase or the brace that closes the row. -/
theorem headKind_row_ne_comma (hrule : Takes rule Phrase) {used : List Token} {closed : Token}
    (hused : Row Phrase used as) (hclosed : closed.kind = .closeBrace) :
    headKind (used ++ closed :: rest) ≠ .comma := by
  cases hused with
  | nil =>
    change closed.kind ≠ .comma
    rw [hclosed]
    decide
  | cons hnext _ =>
    obtain ⟨t, tail, rfl, -, hcomma⟩ := hrule.begins hnext
    exact hcomma

theorem row_eq_ok (hrule : Takes rule Phrase) (hrow : IsRow rule row) {used : List Token}
    {closed : Token} (hused : Row Phrase used as) (hclosed : closed.kind = .closeBrace)
    (hts : ∀ t ∈ used ++ closed :: rest, Written t) :
    row (used ++ closed :: rest) = .ok (as, rest) := by
  induction hused with
  | nil =>
    rw [hrow]
    exact if_pos hclosed
  | @cons first used a as hfirst hused ih =>
    obtain ⟨t, tail, rfl, hbrace, -⟩ := hrule.begins hfirst
    rw [List.append_assoc] at hts ⊢
    have hmore := ih fun t ht => hts t (List.mem_append_right _ ht)
    have hhead : headKind ((t :: tail) ++ (used ++ closed :: rest)) ≠ .closeBrace := hbrace
    have hnocomma : headKind (used ++ closed :: rest) ≠ .comma :=
      headKind_row_ne_comma hrule hused hclosed
    rw [hrow, if_neg hhead, hrule.complete hts hfirst hnocomma]
    simp only [hmore]

theorem row_eq_ok_iff (hrule : Takes rule Phrase) (hrow : IsRow rule row)
    (hts : ∀ t ∈ ts, Written t) :
    row ts = .ok (as, rest) ↔
      ∃ used closed, ts = used ++ closed :: rest ∧ Row Phrase used as ∧
        closed.kind = .closeBrace := by
  constructor
  · exact exists_of_row_eq_ok hrule hrow hts
  · rintro ⟨used, closed, rfl, hused, hclosed⟩
    exact row_eq_ok hrule hrow hused hclosed hts

end Rows

/-! ### States -/

theorem takes_property : Takes (property finish) PropertyPhrase where
  sound hts h := (property_eq_ok_iff hts).mp h
  complete hts hphrase _ := (property_eq_ok_iff hts).mpr ⟨_, rfl, hphrase⟩
  begins hphrase := by
    cases hphrase <;> rename_i hname _ _ <;> exact ⟨_, _, rfl, by simp [*]⟩

theorem lastSaid_cons (on? : Property → Option α) (p : Property) (said : List Property) :
    lastSaid on? (p :: said) = (lastSaid on? said).or (on? p) := by
  rw [lastSaid, lastSaid, List.filterMap_cons]
  cases on? p with
  | none => simp
  | some a =>
    rw [List.getLast?_cons]
    cases (said.filterMap on?).getLast? <;> rfl

theorem foldl_set (s : StateDecl) (said : List Property) :
    said.foldl StateDecl.set s =
      { id := s.id
        initial := (lastSaid Property.initial? said).getD s.initial
        accepting := (lastSaid Property.accepting? said).getD s.accepting
        position := (lastSaid Property.position? said).or s.position
        label := (lastSaid Property.label? said).or s.label
        location := s.location } := by
  induction said generalizing s with
  | nil => rfl
  | cons p said ih =>
    rw [List.foldl_cons, ih]
    simp only [lastSaid_cons]
    cases p <;>
      simp only [StateDecl.set, Property.initial?, Property.accepting?, Property.position?,
        Property.label?, Option.or_none, Option.or_some, Option.some_or,
        Option.getD_some]

theorem foldl_set_bare (id : String) (location : Location) (said : List Property) :
    said.foldl StateDecl.set (.bare id location) = declared id said location := by
  simp [foldl_set, StateDecl.bare, declared]

theorem stateDecl_eq_ok_iff {decl : StateDecl} (hts : ∀ t ∈ ts, Written t) :
    stateDecl finish ts = .ok (decl, rest) ↔
      ∃ head id opened used said closed, ts = head :: id :: opened :: (used ++ closed :: rest) ∧
        head.kind = .state ∧ id.kind = .identifier ∧ opened.kind = .openBrace ∧
        Row PropertyPhrase used said ∧ closed.kind = .closeBrace ∧
        declared id.text said head.location = decl := by
  simp only [stateDecl, properties, Rule.bind_eq_ok_iff, Rule.pure_eq_ok_iff, expect_eq_ok_iff,
    foldl_set_bare]
  constructor
  · rintro ⟨head, us, ⟨rfl, hhead⟩, id, us, ⟨rfl, hid⟩, opened, us, ⟨rfl, hopened⟩, said, us, hsaid,
      rfl, rfl⟩
    obtain ⟨used, closed, rfl, hused, hclosed⟩ :=
      (row_eq_ok_iff takes_property isRow_propertiesIn (by simp_all)).mp hsaid
    exact ⟨head, id, opened, used, said, closed, rfl, hhead, hid, hopened, hused, hclosed, rfl⟩
  · rintro ⟨head, id, opened, used, said, closed, rfl, hhead, hid, hopened, hused, hclosed, rfl⟩
    exact ⟨head, _, ⟨rfl, hhead⟩, id, _, ⟨rfl, hid⟩, opened, _, ⟨rfl, hopened⟩, said, rest,
      (row_eq_ok_iff takes_property isRow_propertiesIn (by simp_all)).mpr
        ⟨used, closed, rfl, hused, hclosed⟩, rfl, rfl⟩

/-! ### Other items -/

theorem transitionDecl_eq_ok_iff {decl : TransitionDecl} :
    transitionDecl finish ts = .ok (decl, rest) ↔
      ∃ source dash used symbols arrow target,
        ts = source :: dash :: (used ++ arrow :: target :: rest) ∧
        source.kind = .identifier ∧ dash.kind = .dash ∧ SymbolsPhrase used symbols ∧
        arrow.kind = .arrow ∧ target.kind = .identifier ∧
        ⟨source.text, target.text, symbols, source.location⟩ = decl := by
  simp only [transitionDecl, Rule.bind_eq_ok_iff, Rule.pure_eq_ok_iff, expect_eq_ok_iff,
    symbols_eq_ok_iff]
  constructor
  · rintro ⟨source, us, ⟨rfl, hsource⟩, dash, us, ⟨rfl, hdash⟩, symbols, us,
      ⟨used, rfl, hused, -⟩, arrow, us, ⟨rfl, harrow⟩, target, us, ⟨rfl, htarget⟩, rfl, rfl⟩
    exact ⟨source, dash, used, symbols, arrow, target, rfl, hsource, hdash, hused, harrow, htarget,
      rfl⟩
  · rintro ⟨source, dash, used, symbols, arrow, target, rfl, hsource, hdash, hused, harrow,
      htarget, rfl⟩
    have hnocomma : headKind (arrow :: target :: rest) ≠ .comma := by simp [headKind, harrow]
    exact ⟨source, _, ⟨rfl, hsource⟩, dash, _, ⟨rfl, hdash⟩, symbols, _,
      ⟨used, rfl, hused, hnocomma⟩, arrow, _, ⟨rfl, harrow⟩, target, _, ⟨rfl, htarget⟩, rfl, rfl⟩

theorem metadataValueOf?_eq_some_iff {t : Token} {value : String} :
    metadataValueOf? t = some value ↔ MetadataValuePhrase t value := by
  constructor
  · intro h
    unfold metadataValueOf? at h
    split at h
    · rename_i hkind; cases h; exact .string hkind
    · rename_i hkind; cases h; exact .number hkind
    · rename_i hkind; cases h; exact .word hkind
    · cases h
  · intro h
    cases h with
    | string hkind => rw [metadataValueOf?, hkind]
    | number hkind => rw [metadataValueOf?, hkind]
    | word hkind => rw [metadataValueOf?, hkind]

theorem metadata_eq_ok_iff {remark : String × String} :
    metadata finish ts = .ok (remark, rest) ↔
      ∃ key colon t, ts = key :: colon :: t :: rest ∧ key.kind = .identifier ∧
        colon.kind = .colon ∧ MetadataValuePhrase t remark.2 ∧ key.text = remark.1 := by
  simp only [metadata, Rule.bind_eq_ok_iff, Rule.pure_eq_ok_iff, expect_eq_ok_iff,
    meaning_eq_ok_iff, metadataValueOf?_eq_some_iff]
  constructor
  · rintro ⟨key, us, ⟨rfl, hkey⟩, colon, us, ⟨rfl, hcolon⟩, value, us, ⟨t, rfl, ht⟩, rfl, rfl⟩
    exact ⟨key, colon, t, rfl, hkey, hcolon, ht, rfl⟩
  · rintro ⟨key, colon, t, rfl, hkey, hcolon, ht, htext⟩
    exact ⟨key, _, ⟨rfl, hkey⟩, colon, _, ⟨rfl, hcolon⟩, remark.2, _, ⟨t, rfl, ht⟩,
      Prod.ext htext rfl, rfl⟩

theorem alphabet_eq_ok_iff {declared : List String} :
    alphabet finish ts = .ok (declared, rest) ↔
      ∃ head colon used, ts = head :: colon :: (used ++ rest) ∧ head.kind = .alphabet ∧
        colon.kind = .colon ∧ SymbolsPhrase used declared ∧ headKind rest ≠ .comma := by
  simp only [alphabet, Rule.bind_eq_ok_iff, expect_eq_ok_iff, symbols_eq_ok_iff]
  constructor
  · rintro ⟨head, us, ⟨rfl, hhead⟩, colon, us, ⟨rfl, hcolon⟩, used, rfl, hused, hend⟩
    exact ⟨head, colon, used, rfl, hhead, hcolon, hused, hend⟩
  · rintro ⟨head, colon, used, rfl, hhead, hcolon, hused, hend⟩
    exact ⟨head, _, ⟨rfl, hhead⟩, colon, _, ⟨rfl, hcolon⟩, used, rfl, hused, hend⟩

theorem takes_item : Takes (item finish) ItemPhrase where
  sound {ts rest a} hts h := by
    rw [item] at h
    generalize hrule : itemOf finish (headKind ts) (headKind ts.tail) = rule at h
    unfold itemOf at hrule
    split at hrule
    · split at hrule
      · subst hrule
        obtain ⟨remark, hremark, rfl⟩ := Rule.map_eq_ok_iff.mp h
        obtain ⟨key, colon, t, rfl, hkey, hcolon, ht, htext⟩ := metadata_eq_ok_iff.mp hremark
        refine ⟨[key, colon, t], rfl, ?_⟩
        change ItemPhrase [key, colon, t] (.metadata remark.1 remark.2)
        rw [← htext]
        exact .metadata hkey hcolon ht
      · subst hrule
        obtain ⟨decl, hdecl, rfl⟩ := Rule.map_eq_ok_iff.mp h
        obtain ⟨source, dash, used, symbols, arrow, target, rfl, hsource, hdash, hused, harrow,
          htarget, rfl⟩ := transitionDecl_eq_ok_iff.mp hdecl
        exact ⟨source :: dash :: (used ++ [arrow, target]), by simp,
          .transition hsource hdash hused harrow htarget⟩
    · subst hrule
      obtain ⟨declared, hdeclared, rfl⟩ := Rule.map_eq_ok_iff.mp h
      obtain ⟨head, colon, used, rfl, hhead, hcolon, hused, -⟩ := alphabet_eq_ok_iff.mp hdeclared
      exact ⟨head :: colon :: used, rfl, .alphabet hhead hcolon hused⟩
    · subst hrule
      obtain ⟨decl, hdecl, rfl⟩ := Rule.map_eq_ok_iff.mp h
      obtain ⟨head, id, opened, used, said, closed, rfl, hhead, hid, hopened, hused, hclosed,
        rfl⟩ := (stateDecl_eq_ok_iff hts).mp hdecl
      exact ⟨head :: id :: opened :: (used ++ [closed]), by simp,
        .state hhead hid hopened hused hclosed⟩
    · subst hrule
      cases ts <;> cases h
  complete {used rest a} hts hphrase hend := by
    rw [item]
    cases hphrase with
    | metadata hkey hcolon h =>
      simp only [List.cons_append, headKind, List.tail_cons, hkey, hcolon, itemOf, if_true]
      exact Rule.map_eq_ok_iff.mpr
        ⟨(_, _), metadata_eq_ok_iff.mpr ⟨_, _, _, rfl, hkey, hcolon, h, rfl⟩, rfl⟩
    | alphabet hhead hcolon h =>
      simp only [List.cons_append, headKind, hhead, itemOf]
      exact Rule.map_eq_ok_iff.mpr
        ⟨_, alphabet_eq_ok_iff.mpr ⟨_, _, _, rfl, hhead, hcolon, h, hend⟩, rfl⟩
    | state hhead hid hopened hsaid hclosed =>
      simp only [List.cons_append, List.append_assoc, List.nil_append] at hts ⊢
      simp only [headKind, hhead, itemOf]
      exact Rule.map_eq_ok_iff.mpr ⟨_, (stateDecl_eq_ok_iff hts).mpr
        ⟨_, _, _, _, _, _, rfl, hhead, hid, hopened, hsaid, hclosed, rfl⟩, rfl⟩
    | transition hsource hdash h harrow htarget =>
      simp only [List.cons_append, List.append_assoc, List.nil_append, headKind, List.tail_cons,
        hsource, hdash, itemOf]
      exact Rule.map_eq_ok_iff.mpr ⟨_, transitionDecl_eq_ok_iff.mpr
        ⟨_, _, _, _, _, _, rfl, hsource, hdash, h, harrow, htarget, rfl⟩, rfl⟩
  begins hphrase := by
    cases hphrase <;> exact ⟨_, _, rfl, by simp [*]⟩

/-! ### Documents -/

theorem ofItems_eq (name : String) (items : List Item) :
    ofItems name items =
      { name
        metadata := items.filterMap Item.metadata?
        alphabet := items.flatMap Item.symbols
        states := items.filterMap Item.state?
        transitions := items.filterMap Item.transition? } := by
  induction items with
  | nil => rfl
  | cons item items ih =>
    cases item <;>
      simp [ofItems, ih, List.filterMap_cons, Item.metadata?, Item.symbols, Item.state?,
        Item.transition?]

theorem document_eq_ok_iff {d : Document} (hts : ∀ t ∈ ts, Written t) :
    document finish ts = .ok (d, rest) ↔
      rest = [] ∧ ∃ head name opened used items closed,
        ts = head :: name :: opened :: (used ++ [closed]) ∧
        head.kind = .automaton ∧ name.kind = .string ∧ opened.kind = .openBrace ∧
        Row ItemPhrase used items ∧ closed.kind = .closeBrace ∧ ofItems name.text items = d := by
  simp only [document, Grammar.items, Rule.bind_eq_ok_iff, expect_eq_ok_iff]
  constructor
  · rintro ⟨head, us, ⟨rfl, hhead⟩, name, us, ⟨rfl, hname⟩, opened, us, ⟨rfl, hopened⟩, items, us,
      hitems, seen, us', hseen, h⟩
    obtain ⟨used, closed, rfl, hused, hclosed⟩ :=
      (row_eq_ok_iff takes_item isRow_itemsIn (by simp_all)).mp hitems
    cases hseen
    cases us with
    | nil =>
      obtain ⟨rfl, rfl⟩ := Rule.pure_eq_ok_iff.mp h
      exact ⟨rfl, head, name, opened, used, items, closed, rfl, hhead, hname, hopened, hused,
        hclosed, rfl⟩
    | cons t us => cases h
  · rintro ⟨rfl, head, name, opened, used, items, closed, rfl, hhead, hname, hopened, hused,
      hclosed, rfl⟩
    exact ⟨head, _, ⟨rfl, hhead⟩, name, _, ⟨rfl, hname⟩, opened, _, ⟨rfl, hopened⟩, items, [],
      (row_eq_ok_iff takes_item isRow_itemsIn (by simp_all)).mpr
        ⟨used, closed, rfl, hused, hclosed⟩, [], [], rfl, rfl⟩

end Grammar

/-! ### Main statement -/

theorem Grammar.written_of_scan {source : String} {ts : Tokens} (hscan : scan source = .ok ts) :
    ∀ t ∈ ts.toList, Grammar.Written t := by
  obtain ⟨h, -⟩ := splits_of_scan hscan
  intro t ht hkind
  obtain ⟨text, behind, hlexeme⟩ := h.exists_isLexeme t ht
  rw [hkind] at hlexeme
  exact hlexeme.number_value

theorem ofTokens_eq_ok_iff_document {ts : Tokens} {d : Document} :
    ofTokens ts = .ok d ↔ ∃ rest, Grammar.document ts.finish ts.toList = .ok (d, rest) := by
  rw [ofTokens]
  cases Grammar.document ts.finish ts.toList with
  | error e => simp [Except.map]
  | ok q => simp [Except.map, Prod.ext_iff]

theorem derived_of_ofTokens {source : String} {ts : Tokens} (hscan : scan source = .ok ts)
    {d : Document} (h : ofTokens ts = .ok d) : Derived ts.closed d := by
  obtain ⟨rest, hdocument⟩ := ofTokens_eq_ok_iff_document.mp h
  obtain ⟨rfl, head, name, opened, used, items, closed, htokens, hhead, hname, hopened, hused,
    hclosed, rfl⟩ := (Grammar.document_eq_ok_iff (Grammar.written_of_scan hscan)).mp hdocument
  rw [Tokens.closed, htokens, Grammar.ofItems_eq]
  have hfinish : (⟨.finish, "", ts.finish⟩ : Token).kind = .finish := rfl
  simpa using Derived.document hhead hname hopened hused hclosed hfinish

theorem Derived.ofTokens_eq_ok {source : String} {ts : Tokens} (hscan : scan source = .ok ts)
    {d : Document} (h : Derived ts.closed d) : ofTokens ts = .ok d := by
  rw [ofTokens_eq_ok_iff_document]
  simp only [Grammar.document_eq_ok_iff (Grammar.written_of_scan hscan)]
  generalize hall : ts.closed = all at h
  cases h with
  | @document head name opened closed finish used items hhead hname hopened hitems hclosed
      hfinish =>
    refine ⟨[], rfl, head, name, opened, used, items, closed, ?_, hhead, hname, hopened, hitems,
      hclosed, Grammar.ofItems_eq ..⟩
    have hsplit : ts.toList ++ [⟨.finish, "", ts.finish⟩] =
        (head :: name :: opened :: (used ++ [closed])) ++ [finish] := by
      simpa [Tokens.closed] using hall
    exact (List.append_inj' hsplit rfl).1

/-- The tokens of a text make a document exactly if they derive it. -/
theorem ofTokens_eq_ok_iff {source : String} {ts : Tokens} (hscan : scan source = .ok ts)
    (d : Document) : ofTokens ts = .ok d ↔ Derived ts.closed d :=
  ⟨derived_of_ofTokens hscan, Derived.ofTokens_eq_ok hscan⟩

/-- A state of which one thing is said twice, and a transition with two symbols. -/
def looped : String :=
  "automaton \"A\" \x7b\n  state q \x7b initial: true initial: false \x7d\n" ++
    "  q - a, epsilon -> q \x7d"

def loopedTokens : Tokens where
  toList := [
    ⟨.automaton, "automaton", ⟨1, 1⟩⟩, ⟨.string, "A", ⟨1, 11⟩⟩, ⟨.openBrace, "\x7b", ⟨1, 15⟩⟩,
    ⟨.state, "state", ⟨2, 3⟩⟩, ⟨.identifier, "q", ⟨2, 9⟩⟩, ⟨.openBrace, "\x7b", ⟨2, 11⟩⟩,
    ⟨.identifier, "initial", ⟨2, 13⟩⟩, ⟨.colon, ":", ⟨2, 20⟩⟩, ⟨.trueWord, "true", ⟨2, 22⟩⟩,
    ⟨.identifier, "initial", ⟨2, 27⟩⟩, ⟨.colon, ":", ⟨2, 34⟩⟩, ⟨.falseWord, "false", ⟨2, 36⟩⟩,
    ⟨.closeBrace, "\x7d", ⟨2, 42⟩⟩, ⟨.identifier, "q", ⟨3, 3⟩⟩, ⟨.dash, "-", ⟨3, 5⟩⟩,
    ⟨.identifier, "a", ⟨3, 7⟩⟩, ⟨.comma, ",", ⟨3, 8⟩⟩, ⟨.epsilon, "epsilon", ⟨3, 10⟩⟩,
    ⟨.arrow, "->", ⟨3, 18⟩⟩, ⟨.identifier, "q", ⟨3, 21⟩⟩, ⟨.closeBrace, "\x7d", ⟨3, 23⟩⟩]
  finish := ⟨3, 24⟩

theorem ofTokens_eq_ok_iff_looped :
    scan looped = .ok loopedTokens ∧
      Derived loopedTokens.closed
        { name := "A", metadata := [], alphabet := []
          states := [⟨"q", false, false, none, none, ⟨2, 3⟩⟩]
          transitions := [⟨"q", "q", ["a", "ε"], ⟨3, 3⟩⟩] } := by
  have hscan : scan looped = .ok loopedTokens := by decide +kernel
  exact ⟨hscan, (ofTokens_eq_ok_iff hscan _).mp (by with_unfolding_all rfl)⟩

end FiniteAutomata.Document
