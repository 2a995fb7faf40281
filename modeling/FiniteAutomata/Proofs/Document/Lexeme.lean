import FiniteAutomata.Document.Scan
import FiniteAutomata.Proofs.Text.Span
import Mathlib.Data.List.Infix

/-!
What gaps and lexemes look like, said without the functions that find them. A piece of a text is
judged together with what follows it, because comments, numbers and words end only where they can
go on no further. The functions `gap` and `lexeme` take exactly the pieces that are meant here.
-/
namespace FiniteAutomata.Document

/-! ### Characters -/

theorem toNat_of_isDigit {c : Char} (h : c.isDigit) : 48 ≤ c.toNat ∧ c.toNat ≤ 57 := by
  simpa [Char.isDigit, UInt32.le_iff_toNat_le] using h

theorem toNat_of_isNameStart {c : Char} (h : isNameStart c) :
    (65 ≤ c.toNat ∧ c.toNat ≤ 90) ∨ (97 ≤ c.toNat ∧ c.toNat ≤ 122) ∨ c.toNat = 95 ∨
      c.toNat = 949 := by
  simp only [isNameStart, Bool.or_eq_true, decide_eq_true_eq] at h
  rcases h with (h | rfl) | rfl
  · have hletter : (65 ≤ c.toNat ∧ c.toNat ≤ 90) ∨ (97 ≤ c.toNat ∧ c.toNat ≤ 122) := by
      delta Char.isAlpha Char.isUpper Char.isLower at h
      simpa [UInt32.le_iff_toNat_le] using h
    omega
  · decide
  · decide

theorem toNat_of_isBlank {c : Char} (h : Text.isBlank c) :
    c.toNat ≤ 32 ∨ (133 ≤ c.toNat ∧ c.toNat ≤ 160) ∨ 5760 ≤ c.toNat := by
  simp only [Text.isBlank, Text.blankRanges, List.any_cons, List.any_nil, Bool.or_eq_true,
    Bool.and_eq_true, decide_eq_true_eq, Bool.or_false] at h
  omega

/-! ### Gaps -/

def commentEnd : List Char := ['*', '/']

/-- A white space character or a comment, with `rest` behind it. -/
inductive Trivia : List Char → List Char → Prop
  | blank {c : Char} {rest : List Char} (hc : Text.isBlank c) : Trivia [c] rest
  | line {body rest : List Char} (hbody : Text.Span (· ≠ '\n') body rest) :
      Trivia ('/' :: '/' :: body) rest
  | block {body rest : List Char} (hbody : ¬commentEnd <:+: body) :
      Trivia ('/' :: '*' :: (body ++ commentEnd)) rest
  | unclosed {body : List Char} (hbody : ¬commentEnd <:+: body) : Trivia ('/' :: '*' :: body) []

theorem Trivia.exists_cons {text rest : List Char} (h : Trivia text rest) :
    ∃ c more, text = c :: more := by
  cases h <;> exact ⟨_, _, rfl⟩

theorem commentEnd_infix_cons {c : Char} {cs : List Char} :
    commentEnd <:+: c :: cs ↔ (c = '*' ∧ cs.head? = some '/') ∨ commentEnd <:+: cs := by
  rw [List.infix_cons_iff, commentEnd]
  constructor
  · rintro (h | h)
    · cases cs with
      | nil => simp at h
      | cons d ds =>
        obtain ⟨rfl, hd⟩ := List.cons_prefix_cons.mp h
        obtain ⟨rfl, -⟩ := List.cons_prefix_cons.mp hd
        exact Or.inl ⟨rfl, rfl⟩
    · exact Or.inr h
  · rintro (⟨rfl, h⟩ | h)
    · obtain ⟨ds, rfl⟩ := List.head?_eq_some_iff.mp h
      exact Or.inl ⟨ds, rfl⟩
    · exact Or.inr h

theorem blockComment_closed {body : List Char} (hbody : ¬commentEnd <:+: body)
    (rest : List Char) : blockComment (body ++ commentEnd ++ rest) = body.length + 2 := by
  induction body with
  | nil => rfl
  | cons c body ih =>
    rw [commentEnd_infix_cons, not_or] at hbody
    have hgoes : ¬(c = '*' ∧ (body ++ commentEnd ++ rest).head? = some '/') := by
      rintro ⟨hc, hhead⟩
      cases body with
      | nil => exact absurd hhead (by simp [commentEnd])
      | cons d ds => exact hbody.1 ⟨hc, hhead⟩
    simp only [List.cons_append, blockComment, if_neg hgoes, ih hbody.2, List.length_cons]

theorem blockComment_unclosed {body : List Char} (hbody : ¬commentEnd <:+: body) :
    blockComment body = body.length := by
  induction body with
  | nil => rfl
  | cons c body ih =>
    rw [commentEnd_infix_cons, not_or] at hbody
    rw [blockComment, if_neg hbody.1, ih hbody.2, List.length_cons]

/-- A comment ends at the first place where it can, or there is no such place. -/
theorem closed_or_unclosed (cs : List Char) :
    (∃ body rest, cs = body ++ commentEnd ++ rest ∧ ¬commentEnd <:+: body) ∨
      ¬commentEnd <:+: cs := by
  induction cs with
  | nil => exact Or.inr (by simp [commentEnd])
  | cons c cs ih =>
    by_cases hends : c = '*' ∧ cs.head? = some '/'
    · obtain ⟨rfl, hhead⟩ := hends
      obtain ⟨rest, rfl⟩ := List.head?_eq_some_iff.mp hhead
      exact Or.inl ⟨[], rest, rfl, by simp [commentEnd]⟩
    · rcases ih with ⟨body, rest, rfl, hbody⟩ | hnone
      · refine Or.inl ⟨c :: body, rest, rfl, ?_⟩
        rw [commentEnd_infix_cons, not_or]
        refine ⟨?_, hbody⟩
        rintro ⟨hc, hhead⟩
        refine hends ⟨hc, ?_⟩
        cases body with
        | nil => simp at hhead
        | cons d ds => exact hhead
      · refine Or.inr ?_
        rw [commentEnd_infix_cons, not_or]
        exact ⟨hends, hnone⟩

/-- Where a gap begins, `gap` says how far its first piece goes. -/
theorem gap_of_trivia {c : Char} {more rest : List Char} (h : Trivia (c :: more) rest) :
    gap c (more ++ rest) = some more.length := by
  have hslash : Text.isBlank '/' = false := by decide
  cases h with
  | blank hc => simp [gap, hc]
  | line hbody =>
    simp only [List.cons_append, gap, hslash, lineComment, hbody.takeWhile_eq, List.length_cons]
    simp [Nat.add_comm]
  | block hbody =>
    simp only [List.cons_append, gap, hslash, blockComment_closed hbody, List.length_cons]
    simp [commentEnd]
    omega
  | unclosed hbody =>
    simp only [List.append_nil, gap, hslash, blockComment_unclosed hbody, List.length_cons]
    simp [Nat.add_comm]

/-- What `gap` finds is the first piece of a gap. -/
theorem trivia_of_gap {c : Char} {cs : List Char} {n : Nat} (h : gap c cs = some n) :
    ∃ more rest, cs = more ++ rest ∧ more.length = n ∧ Trivia (c :: more) rest := by
  unfold gap at h
  split at h
  · rename_i hc
    cases h
    exact ⟨[], cs, rfl, rfl, .blank hc⟩
  · split at h
    · rename_i hslash
      subst hslash
      split at h
      · rename_i body
        cases h
        exact ⟨'/' :: body.takeWhile (· ≠ '\n'), body.dropWhile (· ≠ '\n'), by simp,
          by simp [lineComment, Nat.add_comm], .line (.ofText ..)⟩
      · rename_i body
        cases h
        rcases closed_or_unclosed body with ⟨inner, rest, rfl, hinner⟩ | hnone
        · refine ⟨'*' :: (inner ++ commentEnd), rest, by simp, ?_, .block hinner⟩
          rw [blockComment_closed hinner]
          simp [commentEnd]
          omega
        · refine ⟨'*' :: body, [], by simp, ?_, .unclosed hnone⟩
          rw [blockComment_unclosed hnone, List.length_cons, Nat.add_comm]
      · cases h
    · cases h

/-! ### Strings -/

/-- What stands between the quotes of a string, and the text that it stands for. -/
inductive Quotes : List Char → List Char → Prop
  | nil : Quotes [] []
  | plain {c : Char} {cs value : List Char} (hquote : c ≠ '"') (hescape : c ≠ '\\')
      (h : Quotes cs value) : Quotes (c :: cs) (c :: value)
  | newline {cs value : List Char} (h : Quotes cs value) :
      Quotes ('\\' :: 'n' :: cs) ('\n' :: value)
  | tab {cs value : List Char} (h : Quotes cs value) : Quotes ('\\' :: 't' :: cs) ('\t' :: value)
  | escaped {c : Char} {cs value : List Char} (hn : c ≠ 'n') (ht : c ≠ 't')
      (h : Quotes cs value) : Quotes ('\\' :: c :: cs) (c :: value)

theorem Quotes.unescaped {cs value : List Char} (h : Quotes cs value) (c : Char) :
    Quotes ('\\' :: c :: cs) (Document.unescaped c :: value) := by
  unfold Document.unescaped
  split
  · rename_i hn
    subst hn
    exact .newline h
  · split
    · rename_i ht
      subst ht
      exact .tab h
    · rename_i hn ht
      exact .escaped hn ht h

theorem quoted_escaped (c : Char) (cs : List Char) :
    quoted ('\\' :: c :: cs) =
      (quoted cs).map fun (value, n) => (unescaped c :: value, n + 2) := rfl

theorem quoted_plain {c : Char} (hquote : c ≠ '"') (hescape : c ≠ '\\') (cs : List Char) :
    quoted (c :: cs) = (quoted cs).map fun (value, n) => (c :: value, n + 1) := by
  rw [quoted.eq_5]
  all_goals simp_all

theorem quoted_of_quotes {body value : List Char} (h : Quotes body value) (rest : List Char) :
    quoted (body ++ '"' :: rest) = some (value, body.length + 1) := by
  induction h with
  | nil => rfl
  | plain hquote hescape _ ih =>
    rw [List.cons_append, quoted_plain hquote hescape, ih]
    rfl
  | newline _ ih =>
    rw [List.cons_append, List.cons_append, quoted_escaped, ih]
    rfl
  | tab _ ih =>
    rw [List.cons_append, List.cons_append, quoted_escaped, ih]
    rfl
  | escaped hn ht _ ih =>
    rw [List.cons_append, List.cons_append, quoted_escaped, ih, unescaped, if_neg hn, if_neg ht]
    rfl

theorem quotes_of_quoted {cs value : List Char} {n : Nat} (h : quoted cs = some (value, n)) :
    ∃ body rest, cs = body ++ '"' :: rest ∧ body.length + 1 = n ∧ Quotes body value := by
  fun_induction quoted cs generalizing value n with
  | case1 => cases h
  | case2 rest =>
    cases h
    exact ⟨[], rest, rfl, rfl, .nil⟩
  | case3 => cases h
  | case4 c cs ih =>
    obtain ⟨⟨inner, m⟩, hinner, heq⟩ := Option.map_eq_some_iff.mp h
    cases heq
    obtain ⟨body, rest, rfl, rfl, hbody⟩ := ih hinner
    exact ⟨'\\' :: c :: body, rest, rfl, rfl, hbody.unescaped c⟩
  | case5 c cs hquote hlone hescape ih =>
    obtain ⟨⟨inner, m⟩, hinner, heq⟩ := Option.map_eq_some_iff.mp h
    cases heq
    obtain ⟨body, rest, rfl, rfl, hbody⟩ := ih hinner
    refine ⟨c :: body, rest, rfl, rfl, .plain (fun hc => hquote hc) (fun hc => ?_) hbody⟩
    cases body with
    | nil => exact hescape _ _ hc rfl
    | cons d ds => exact hescape _ _ hc rfl

/-! ### Lexemes -/

def marks : List (Char × Token.Kind) :=
  [('{', .openBrace), ('}', .closeBrace), ('(', .openParen), (')', .closeParen), (':', .colon),
    (',', .comma)]

/-- The words that are no identifiers, in small letters. -/
def keywords : List (String × Token.Kind) :=
  [("automaton", .automaton), ("state", .state), ("alphabet", .alphabet), ("true", .trueWord),
    ("false", .falseWord), ("epsilon", .epsilon), ("ε", .epsilon)]

/-- A word is a keyword in whatever letters it is written, or else an identifier. -/
def kindOfWord (word : List Char) : Token.Kind :=
  (keywords.lookup (String.ofList (word.map Char.toLower))).getD .identifier

/-- A lexeme with `rest` behind it, and the kind and the value of its token. -/
inductive IsLexeme : List Char → List Char → Token.Kind → String → Prop
  | mark {c : Char} {kind : Token.Kind} {rest : List Char} (h : marks.lookup c = some kind) :
      IsLexeme [c] rest kind c.toString
  | arrow {rest : List Char} : IsLexeme ['-', '>'] rest .arrow "->"
  | dash {rest : List Char} (h : rest.head? ≠ some '>') : IsLexeme ['-'] rest .dash "-"
  | string {body value rest : List Char} (h : Quotes body value) :
      IsLexeme ('"' :: (body ++ ['"'])) rest .string (String.ofList value)
  | number {c : Char} {more rest : List Char} (hc : c.isDigit)
      (hmore : Text.Span isDigitOrDot more rest) :
      IsLexeme (c :: more) rest .number (String.ofList (c :: more))
  | word {c : Char} {more rest : List Char} (hc : isNameStart c)
      (hmore : Text.Span isNamePart more rest) :
      IsLexeme (c :: more) rest (kindOfWord (c :: more)) (String.ofList (c :: more))

theorem punctuation?_eq (c : Char) : punctuation? c = marks.lookup c := by
  unfold punctuation?
  split
  case h_7 =>
    symm
    rw [List.lookup_eq_none_iff]
    simp_all [marks]
  all_goals rfl

theorem wordKind_eq (word : List Char) : wordKind word = kindOfWord word := by
  unfold wordKind kindOfWord
  split
  case h_8 =>
    have hnone : keywords.lookup (String.ofList (word.map Char.toLower)) = none := by
      rw [List.lookup_eq_none_iff]
      simp_all [keywords]
    rw [hnone]
    rfl
  all_goals
    rename_i hword
    rw [hword]
    rfl

/-- Characters that pass a test are no marks if no mark passes it. -/
theorem lookup_marks_eq_none {p : Char → Bool} (hmarks : ∀ m ∈ marks, p m.1 = false) {c : Char}
    (hc : p c) : marks.lookup c = none := by
  rw [List.lookup_eq_none_iff]
  intro m hm
  rw [bne_iff_ne]
  rintro rfl
  rw [hmarks m hm] at hc
  exact Bool.noConfusion hc

/-- A quote begins a string, if there is one. -/
theorem lexeme_quote (cs : List Char) :
    lexeme '"' cs =
      (quoted cs).elim (.error .unterminatedString) fun q =>
        .ok ⟨.string, String.ofList q.1, q.2⟩ := by
  have hmark : marks.lookup '"' = none := rfl
  have hdash : '"' ≠ '-' := by decide
  unfold lexeme
  rw [punctuation?_eq]
  simp only [hmark, if_neg hdash, if_true]
  cases quoted cs <;> rfl

/-- Digits and letters begin numbers and words, as long as they are none of the other characters
that lexemes begin with. -/
theorem lexeme_of_plain {p : Char → Bool} (hmarks : ∀ m ∈ marks, p m.1 = false)
    (hdash : p '-' = false) (hquote : p '"' = false) {c : Char} (hc : p c) (cs : List Char) :
    lexeme c cs =
      let number := cs.takeWhile isDigitOrDot
      let word := cs.takeWhile isNamePart
      if c.isDigit then .ok ⟨.number, String.ofList (c :: number), number.length⟩
      else if isNameStart c then
        .ok ⟨kindOfWord (c :: word), String.ofList (c :: word), word.length⟩
      else .error (.unexpectedCharacter c) := by
  have hmark : marks.lookup c = none := lookup_marks_eq_none hmarks hc
  have hnodash : c ≠ '-' := by
    rintro rfl
    rw [hdash] at hc
    cases hc
  have hnoquote : c ≠ '"' := by
    rintro rfl
    rw [hquote] at hc
    cases hc
  unfold lexeme
  rw [punctuation?_eq]
  simp only [hmark, if_neg hnodash, if_neg hnoquote, wordKind_eq]

/-- What begins like a lexeme is taken for it as far as it goes. -/
theorem lexeme_of_isLexeme {c : Char} {more rest : List Char} {kind : Token.Kind} {value : String}
    (h : IsLexeme (c :: more) rest kind value) :
    lexeme c (more ++ rest) = .ok ⟨kind, value, more.length⟩ := by
  cases h with
  | mark h =>
    rw [lexeme, punctuation?_eq, h]
    rfl
  | arrow => rfl
  | dash h =>
    have hmark : marks.lookup '-' = none := rfl
    unfold lexeme
    rw [punctuation?_eq]
    simp only [hmark, if_true, List.nil_append, if_neg h]
    rfl
  | string h =>
    rw [lexeme_quote, List.append_assoc, List.singleton_append, quoted_of_quotes h,
      List.length_append]
    rfl
  | number hc hmore =>
    rw [lexeme_of_plain (by decide) (by decide) (by decide) hc, if_pos hc, hmore.takeWhile_eq]
  | word hc hmore =>
    have hdigit : ¬c.isDigit := by
      intro hdigit
      have := toNat_of_isDigit hdigit
      have := toNat_of_isNameStart hc
      omega
    rw [lexeme_of_plain (by decide) (by decide) (by decide) hc, if_neg hdigit, if_pos hc,
      hmore.takeWhile_eq]

/-- What is taken for a lexeme is one. -/
theorem isLexeme_of_lexeme {c : Char} {cs : List Char} {l : Lexeme} (h : lexeme c cs = .ok l) :
    ∃ more rest, cs = more ++ rest ∧ more.length = l.following ∧
      IsLexeme (c :: more) rest l.kind l.value := by
  unfold lexeme at h
  rw [punctuation?_eq] at h
  split at h
  · rename_i kind hmark
    cases h
    exact ⟨[], cs, rfl, rfl, .mark hmark⟩
  split at h
  · rename_i hdash
    subst hdash
    split at h
    · rename_i hhead
      obtain ⟨rest, rfl⟩ := List.head?_eq_some_iff.mp hhead
      cases h
      exact ⟨['>'], rest, rfl, rfl, .arrow⟩
    · rename_i hhead
      cases h
      exact ⟨[], cs, rfl, rfl, .dash hhead⟩
  split at h
  · rename_i hquote
    subst hquote
    split at h
    · rename_i value n hquoted
      obtain ⟨body, rest, rfl, rfl, hbody⟩ := quotes_of_quoted hquoted
      cases h
      exact ⟨body ++ ['"'], rest, by simp, by simp, .string hbody⟩
    · cases h
  split at h
  · rename_i hdigit
    cases h
    exact ⟨_, _, List.takeWhile_append_dropWhile.symm, rfl, .number hdigit (.ofText ..)⟩
  split at h
  · rename_i hstart
    cases h
    rw [wordKind_eq]
    exact ⟨_, _, List.takeWhile_append_dropWhile.symm, rfl, .word hstart (.ofText ..)⟩
  · cases h

theorem IsLexeme.exists_cons {text rest : List Char} {kind : Token.Kind} {value : String}
    (h : IsLexeme text rest kind value) : ∃ c more, text = c :: more := by
  cases h <;> exact ⟨_, _, rfl⟩

/-- A table gives only kinds that stand in it. -/
theorem kind_ne_of_lookup {κ : Type} [BEq κ] [LawfulBEq κ] {table : List (κ × Token.Kind)}
    {other : Token.Kind} (htable : ∀ entry ∈ table, entry.2 ≠ other) {k : κ} {kind : Token.Kind}
    (h : table.lookup k = some kind) : kind ≠ other := by
  obtain ⟨before, after, rfl, -⟩ := List.lookup_eq_some_iff.mp h
  exact htable (k, kind) (List.mem_append_right _ (List.mem_cons_self ..))

theorem kindOfWord_ne {other : Token.Kind} (hkeywords : ∀ entry ∈ keywords, entry.2 ≠ other)
    (hidentifier : Token.Kind.identifier ≠ other) (word : List Char) : kindOfWord word ≠ other := by
  unfold kindOfWord
  cases hlookup : keywords.lookup (String.ofList (word.map Char.toLower)) with
  | none => exact hidentifier
  | some kind => exact kind_ne_of_lookup hkeywords hlookup

/-- No lexeme stands for the end of a text. -/
theorem IsLexeme.kind_ne_finish {text rest : List Char} {kind : Token.Kind} {value : String}
    (h : IsLexeme text rest kind value) : kind ≠ .finish := by
  cases h with
  | mark hmark => exact kind_ne_of_lookup (by decide) hmark
  | word => exact kindOfWord_ne (by decide) (by decide) _
  | _ => simp

/-- A number is a digit and then digits and points. -/
theorem IsLexeme.number_value {text rest : List Char} {value : String}
    (h : IsLexeme text rest .number value) :
    ∃ c more, value = String.ofList (c :: more) ∧ c.isDigit ∧ ∀ d ∈ more, isDigitOrDot d := by
  generalize hkind : Token.Kind.number = kind at h
  cases h with
  | mark hmark => exact absurd hkind.symm (kind_ne_of_lookup (by decide) hmark)
  | number hc hmore => exact ⟨_, _, rfl, hc, hmore.all⟩
  | word => exact absurd hkind.symm (kindOfWord_ne (by decide) (by decide) _)
  | _ => cases hkind

/-- No gap begins where a lexeme begins. -/
theorem IsLexeme.gap_eq_none {c : Char} {more rest : List Char} {kind : Token.Kind}
    {value : String} (h : IsLexeme (c :: more) rest kind value) (cs : List Char) :
    gap c cs = none := by
  have hbegin : Text.isBlank c = false ∧ c ≠ '/' := by
    cases h with
    | mark hmark =>
      obtain ⟨before, after, hmarks, -⟩ := List.lookup_eq_some_iff.mp hmark
      have hmem : (c, kind) ∈ marks := by simp [hmarks]
      exact (by decide : ∀ m ∈ marks, Text.isBlank m.1 = false ∧ m.1 ≠ '/') _ hmem
    | number hdigit =>
      have := toNat_of_isDigit hdigit
      refine ⟨Bool.eq_false_iff.mpr fun hblank => ?_, ?_⟩
      · have := toNat_of_isBlank hblank
        omega
      · rintro rfl
        exact absurd hdigit (by decide)
    | word hstart =>
      have := toNat_of_isNameStart hstart
      refine ⟨Bool.eq_false_iff.mpr fun hblank => ?_, ?_⟩
      · have := toNat_of_isBlank hblank
        omega
      · rintro rfl
        exact absurd hstart (by decide)
    | _ => decide
  simp [gap, hbegin]

/-- Where no lexeme is found there is an unclosed string or a character that begins nothing. -/
theorem fault_of_lexeme {c : Char} {cs : List Char} {fault : Fault}
    (h : lexeme c cs = .error fault) :
    c = '"' ∧ fault = .unterminatedString ∧ quoted cs = none ∨
      c ≠ '"' ∧ fault = .unexpectedCharacter c := by
  unfold lexeme at h
  split at h
  · cases h
  split at h
  · split at h <;> cases h
  split at h
  · rename_i hquote
    split at h
    · cases h
    · rename_i hquoted
      cases h
      exact Or.inl ⟨hquote, rfl, hquoted⟩
  · rename_i hquote
    refine Or.inr ⟨hquote, ?_⟩
    split at h
    · cases h
    · split at h <;> cases h
      rfl

end FiniteAutomata.Document
