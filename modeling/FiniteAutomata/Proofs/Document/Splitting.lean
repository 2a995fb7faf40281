import FiniteAutomata.Proofs.Document.Lexeme

/-!
How a text splits. A text is a row of gaps with lexemes between them, up to its end or up to the
first place where no lexeme can begin (`Stuck`). Every text splits in one of the two ways, and
`scan` gives the tokens of the one or the complaint of the other.
-/
namespace FiniteAutomata.Document

/-! ### Places -/

/-- The place behind a text: a line for each newline, and a column for each character behind the
last one. -/
def place (before : List Char) : Location :=
  ⟨1 + before.count '\n', 1 + (before.reverse.takeWhile (· ≠ '\n')).length⟩

theorem place_concat (before : List Char) (c : Char) :
    place (before ++ [c]) = (place before).next c := by
  by_cases hc : c = '\n'
  · subst hc
    simp [place, Location.next, Nat.add_assoc]
  · simp [place, Location.next, hc, Nat.add_assoc]

theorem past_place (before cs : List Char) : (place before).past cs = place (before ++ cs) := by
  induction cs generalizing before with
  | nil => simp
  | cons c cs ih => rw [Location.past_cons, ← place_concat, ih, List.append_assoc]; rfl

/-! ### Gaps and splits -/

/-- White space and comments, with `rest` behind them. -/
inductive Gap : List Char → List Char → Prop
  | none {rest : List Char} : Gap [] rest
  | more {piece gap rest : List Char} (hpiece : Trivia piece (gap ++ rest)) (hgap : Gap gap rest) :
      Gap (piece ++ gap) rest

theorem Gap.concat {gap piece rest : List Char} (h : Gap gap (piece ++ rest))
    (hpiece : Trivia piece rest) : Gap (gap ++ piece) rest := by
  generalize hbehind : piece ++ rest = behind at h
  induction h with
  | none =>
    rw [List.nil_append, ← List.append_nil piece]
    exact .more (by simpa using hpiece) .none
  | more hfirst _ ih =>
    subst hbehind
    rw [List.append_assoc]
    exact .more (by simpa using hfirst) (ih rfl)

/-- The text `before`, with `rest` behind it, is a gap, a lexeme, a gap and so on up to a last gap,
and these are the tokens of its lexemes. -/
inductive Splits : List Char → List Token → List Char → Prop
  | start {gap rest : List Char} (hgap : Gap gap rest) : Splits gap [] rest
  | next {before lexeme gap rest : List Char} {tokens : List Token} {kind : Token.Kind}
      {value : String} (hbefore : Splits before tokens (lexeme ++ (gap ++ rest)))
      (hlexeme : IsLexeme lexeme (gap ++ rest) kind value) (hgap : Gap gap rest) :
      Splits (before ++ (lexeme ++ gap)) (tokens ++ [⟨kind, value, place before⟩]) rest

/-- No gap and no lexeme begins here: there is a string without an end, or a character that no
lexeme begins with. -/
inductive Stuck : List Char → Fault → Prop
  | string {cs : List Char}
      (h : ∀ body value rest, cs = body ++ '"' :: rest → ¬Quotes body value) :
      Stuck ('"' :: cs) .unterminatedString
  | character {c : Char} {cs : List Char} (hquote : c ≠ '"')
      (htrivia : ∀ piece rest, c :: cs = piece ++ rest → ¬Trivia piece rest)
      (hlexeme : ∀ lexeme rest kind value, c :: cs = lexeme ++ rest →
        ¬IsLexeme lexeme rest kind value) :
      Stuck (c :: cs) (.unexpectedCharacter c)

namespace Splits

variable {before rest : List Char} {tokens : List Token}

theorem gap {piece : List Char} (h : Splits before tokens (piece ++ rest))
    (hpiece : Trivia piece rest) : Splits (before ++ piece) tokens rest := by
  generalize hbehind : piece ++ rest = behind at h
  cases h with
  | start hgap =>
    subst hbehind
    exact .start (hgap.concat hpiece)
  | next hbefore hlexeme hgap =>
    subst hbehind
    rw [List.append_assoc, List.append_assoc]
    refine .next ?_ ?_ (hgap.concat hpiece)
    · simpa using hbefore
    · simpa using hlexeme

theorem lexeme {lexeme : List Char} {kind : Token.Kind} {value : String}
    (h : Splits before tokens (lexeme ++ rest)) (hlexeme : IsLexeme lexeme rest kind value) :
    Splits (before ++ lexeme) (tokens ++ [⟨kind, value, place before⟩]) rest := by
  have hnext : Splits (before ++ (lexeme ++ [])) (tokens ++ [⟨kind, value, place before⟩]) rest :=
    .next h hlexeme .none
  rwa [List.append_nil] at hnext

/-- Every token is that of a lexeme, and lies where the lexeme stands. -/
theorem exists_standing (h : Splits before tokens rest) :
    ∀ t ∈ tokens, ∃ front lexeme behind, before ++ rest = front ++ (lexeme ++ behind) ∧
      t.location = place front ∧ IsLexeme lexeme behind t.kind t.text := by
  induction h with
  | start => exact nofun
  | @next before lexeme gap rest tokens kind value _ hlexeme _ ih =>
    intro t ht
    rw [List.append_assoc, List.append_assoc]
    rcases List.mem_append.mp ht with ht | ht
    · exact ih t ht
    · rw [List.mem_singleton.mp ht]
      exact ⟨before, lexeme, gap ++ rest, rfl, rfl, hlexeme⟩

theorem exists_isLexeme (h : Splits before tokens rest) :
    ∀ t ∈ tokens, ∃ text behind, IsLexeme text behind t.kind t.text := by
  intro t ht
  obtain ⟨-, lexeme, behind, -, -, hlexeme⟩ := h.exists_standing t ht
  exact ⟨lexeme, behind, hlexeme⟩

theorem kind_ne_finish (h : Splits before tokens rest) : ∀ t ∈ tokens, t.kind ≠ .finish := by
  intro t ht
  obtain ⟨text, behind, hlexeme⟩ := h.exists_isLexeme t ht
  exact hlexeme.kind_ne_finish

end Splits

/-! ### Scanning -/

/-- Tokens put before those that a scan gives. -/
def Tokens.after (ts : Tokens) (tokens : List Token) : Tokens :=
  { ts with toList := tokens ++ ts.toList }

theorem scanFrom_trivia (here : Location) {piece rest : List Char} (h : Trivia piece rest) :
    scanFrom here (piece ++ rest) = scanFrom (here.past piece) rest := by
  obtain ⟨c, more, rfl⟩ := h.exists_cons
  rw [List.cons_append, scanFrom, gap_of_trivia h]
  simp

theorem scanFrom_gap (here : Location) {gap rest : List Char} (h : Gap gap rest) :
    scanFrom here (gap ++ rest) = scanFrom (here.past gap) rest := by
  induction h generalizing here with
  | none => rfl
  | more hpiece _ ih =>
    rw [List.append_assoc, scanFrom_trivia here hpiece, ih, Location.past_append]

theorem scanFrom_lexeme (here : Location) {lexeme rest : List Char} {kind : Token.Kind}
    {value : String} (h : IsLexeme lexeme rest kind value) :
    scanFrom here (lexeme ++ rest) =
      (scanFrom (here.past lexeme) rest).map (·.after [⟨kind, value, here⟩]) := by
  obtain ⟨c, more, rfl⟩ := h.exists_cons
  rw [List.cons_append, scanFrom, h.gap_eq_none, lexeme_of_isLexeme h]
  simp only [List.take_left, List.drop_left]
  cases scanFrom (here.past (c :: more)) rest with
  | error e => rfl
  | ok ts => rfl

theorem Tokens.after_after (ts : Tokens) (first second : List Token) :
    (ts.after second).after first = ts.after (first ++ second) := by
  simp [Tokens.after]

/-- Where a text splits, the scan of the whole begins with the tokens of the split. -/
theorem scanFrom_of_splits {before rest : List Char} {tokens : List Token}
    (h : Splits before tokens rest) :
    scanFrom .start (before ++ rest) =
      (scanFrom (place before) rest).map (·.after tokens) := by
  induction h with
  | start hgap =>
    have hstart : Location.start = place [] := rfl
    rw [scanFrom_gap _ hgap, hstart, past_place, List.nil_append]
    cases scanFrom _ _ with
    | error e => rfl
    | ok ts => rfl
  | next hbefore hlexeme hgap ih =>
    rw [List.append_assoc, List.append_assoc, ih, scanFrom_lexeme _ hlexeme, scanFrom_gap _ hgap,
      past_place, past_place, List.append_assoc]
    cases scanFrom _ _ with
    | error e => rfl
    | ok ts => simp [Except.map, Tokens.after_after]

/-- Where a text is stuck, the scan complains. -/
theorem scanFrom_of_stuck (here : Location) {cs : List Char} {fault : Fault}
    (h : Stuck cs fault) : scanFrom here cs = .error ⟨fault, here⟩ := by
  cases h with
  | @string cs hopen =>
    have hgap : Document.gap '"' cs = none := rfl
    have hquoted : quoted cs = none := by
      rw [Option.eq_none_iff_forall_ne_some]
      intro ⟨value, n⟩ hfound
      obtain ⟨body, rest, heq, -, hbody⟩ := quotes_of_quoted hfound
      exact hopen body value rest heq hbody
    rw [scanFrom, hgap, lexeme_quote, hquoted]
    rfl
  | @character c cs hquote htrivia hlexeme =>
    have hgap : Document.gap c cs = none := by
      rw [Option.eq_none_iff_forall_ne_some]
      intro n hn
      obtain ⟨more, rest, rfl, -, hpiece⟩ := trivia_of_gap hn
      exact htrivia _ _ rfl hpiece
    rw [scanFrom, hgap]
    cases hfound : Document.lexeme c cs with
    | ok l =>
      obtain ⟨more, rest, rfl, -, hl⟩ := isLexeme_of_lexeme hfound
      exact absurd hl (hlexeme _ _ _ _ rfl)
    | error fault =>
      rcases fault_of_lexeme hfound with ⟨hc, -⟩ | ⟨-, rfl⟩
      · exact absurd hc hquote
      · rfl

/-- Where neither a gap nor a lexeme is found, the text is stuck. -/
theorem stuck_of_fault {c : Char} {cs : List Char} {fault : Fault}
    (hgap : Document.gap c cs = none) (hlexeme : Document.lexeme c cs = .error fault) :
    Stuck (c :: cs) fault := by
  rcases fault_of_lexeme hlexeme with ⟨rfl, rfl, hquoted⟩ | ⟨hquote, rfl⟩
  · refine .string fun body value rest heq hbody => ?_
    rw [heq, quoted_of_quotes hbody] at hquoted
    cases hquoted
  · refine .character hquote (fun piece rest heq hpiece => ?_)
      (fun text rest kind value heq htext => ?_)
    · obtain ⟨d, more, rfl⟩ := hpiece.exists_cons
      rw [List.cons_append] at heq
      obtain ⟨rfl, rfl⟩ := List.cons.inj heq
      rw [gap_of_trivia hpiece] at hgap
      cases hgap
    · obtain ⟨d, more, rfl⟩ := htext.exists_cons
      rw [List.cons_append] at heq
      obtain ⟨rfl, rfl⟩ := List.cons.inj heq
      rw [lexeme_of_isLexeme htext] at hlexeme
      cases hlexeme

/-- What a text that splits as far as `rest` comes to: it splits to its end, or gets stuck. -/
theorem splits_or_stuck {before rest : List Char} {tokens : List Token}
    (h : Splits before tokens rest) :
    (∃ all, Splits (before ++ rest) all []) ∨
      ∃ front back passed fault, before ++ rest = front ++ back ∧ Splits front passed back ∧
        Stuck back fault := by
  -- each piece that is found shortens what is left to split
  induction hlength : rest.length using Nat.strong_induction_on generalizing before rest tokens with
  | _ n ih =>
  cases rest with
  | nil => exact Or.inl ⟨tokens, by rwa [List.append_nil]⟩
  | cons c cs =>
    cases hgap : Document.gap c cs with
    | some k =>
      obtain ⟨more, rest, rfl, -, hpiece⟩ := trivia_of_gap hgap
      have hshorter : rest.length < n := by
        rw [← hlength, List.length_cons, List.length_append]
        omega
      have hrest := ih rest.length hshorter (h.gap hpiece) rfl
      simpa using hrest
    | none =>
      cases hlexeme : Document.lexeme c cs with
      | ok l =>
        obtain ⟨more, rest, rfl, -, htext⟩ := isLexeme_of_lexeme hlexeme
        have hshorter : rest.length < n := by
          rw [← hlength, List.length_cons, List.length_append]
          omega
        have hrest := ih rest.length hshorter (h.lexeme htext) rfl
        simpa using hrest
      | error fault =>
        exact Or.inr ⟨before, c :: cs, tokens, fault, rfl, h, stuck_of_fault hgap hlexeme⟩

/-! ### Main statement -/

/-- The tokens of a text that splits to its end: those of its lexemes, of which none stands for the
end, and one that stands for the end and lies there. -/
def Tokenized (source : List Char) (tokens : List Token) : Prop :=
  ∃ found, Splits source found [] ∧ (∀ t ∈ found, t.kind ≠ .finish) ∧
    tokens = found ++ [⟨.finish, "", place source⟩]

/-- What is wrong with a text that gets stuck. It lies at the first character where it is stuck. -/
def Untokenized (source : List Char) (complaint : Complaint) : Prop :=
  ∃ before rest found, source = before ++ rest ∧ Splits before found rest ∧
    Stuck rest complaint.fault ∧ complaint.location = place before

theorem scan_of_splits {source : String} {found : List Token}
    (h : Splits source.toList found []) : scan source = .ok ⟨found, place source.toList⟩ := by
  have hscan := scanFrom_of_splits h
  rw [List.append_nil] at hscan
  rw [scan, hscan, scanFrom]
  simp [Except.map, Tokens.after]

theorem scan_of_stuck {source : String} {before rest : List Char} {found : List Token}
    {fault : Fault} (hsource : source.toList = before ++ rest) (h : Splits before found rest)
    (hstuck : Stuck rest fault) : scan source = .error ⟨fault, place before⟩ := by
  rw [scan, hsource, scanFrom_of_splits h, scanFrom_of_stuck _ hstuck]
  rfl

/-- A text has tokens only where it splits to its end. -/
theorem splits_of_scan {source : String} {ts : Tokens} (hscan : scan source = .ok ts) :
    Splits source.toList ts.toList [] ∧ ts.finish = place source.toList := by
  rcases splits_or_stuck (.start .none : Splits [] [] source.toList) with
    ⟨found, h⟩ | ⟨before, rest, found, fault, hsource, h, hstuck⟩
  · rw [List.nil_append] at h
    rw [scan_of_splits h] at hscan
    cases hscan
    exact ⟨h, rfl⟩
  · rw [scan_of_stuck hsource h hstuck] at hscan
    cases hscan

/-- A text has either tokens, which are those of its one split, or a fault where its split ends. -/
theorem scan_correct (source : String) :
    (∀ ts, scan source = .ok ts ↔ Tokenized source.toList ts.closed) ∧
      ∀ e, scan source = .error e ↔ Untokenized source.toList e := by
  have hsplit : Splits [] [] source.toList := .start .none
  refine ⟨fun ts => ⟨fun hscan => ?_, ?_⟩, fun e => ⟨fun hscan => ?_, ?_⟩⟩
  · obtain ⟨h, hfinish⟩ := splits_of_scan hscan
    exact ⟨ts.toList, h, h.kind_ne_finish, by rw [Tokens.closed, hfinish]⟩
  · rintro ⟨found, h, -, hclosed⟩
    rw [scan_of_splits h]
    obtain ⟨htokens, hfinish⟩ := List.append_inj' hclosed rfl
    cases ts
    simp_all
  · rcases splits_or_stuck hsplit with ⟨found, h⟩ | ⟨before, rest, found, fault, hsource, h, hstuck⟩
    · rw [List.nil_append] at h
      rw [scan_of_splits h] at hscan
      cases hscan
    · rw [scan_of_stuck hsource h hstuck] at hscan
      cases hscan
      exact ⟨before, rest, found, hsource, h, hstuck, rfl⟩
  · rintro ⟨before, rest, found, hsource, h, hstuck, hlocation⟩
    rw [scan_of_stuck hsource h hstuck, ← hlocation]

end FiniteAutomata.Document
