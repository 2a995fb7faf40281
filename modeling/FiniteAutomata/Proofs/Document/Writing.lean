import FiniteAutomata.Proofs.Document.Splitting

/-!
Texts that are written lexeme by lexeme. A lexeme may be spelled in several ways (`Spelling`), and
whatever stands between two of them may be any row of white space and closed comments (`Layout`).
The tokens of such a text have the kinds and values of its lexemes, and the layout does not show in
them (`readings_written`).
-/
namespace FiniteAutomata.Document

/-! ### Separators -/

/-- White space, a comment up to its newline, or a comment between its marks. -/
inductive Filler
  | blank (c : Char) (hc : Text.isBlank c)
  | line (body : List Char) (hbody : ∀ c ∈ body, c ≠ '\n')
  | block (body : List Char) (hbody : ¬commentEnd <:+: body)

def Filler.text : Filler → List Char
  | .blank c _ => [c]
  | .line body _ => '/' :: '/' :: (body ++ ['\n'])
  | .block body _ => '/' :: '*' :: (body ++ commentEnd)

/-- What a row of fillers looks like. -/
def fillersText (fs : List Filler) : List Char := fs.flatMap Filler.text

structure Separator where
  fillers : List Filler
  nonempty : fillers ≠ []

def Separator.text (s : Separator) : List Char := fillersText s.fillers

/-- No lexeme goes on here: the text ends or begins with white space or a slash. -/
def Apart (rest : List Char) : Prop := ∀ c ∈ rest.head?, Text.isBlank c ∨ c = '/'

theorem apart_nil : Apart [] := nofun

theorem Filler.apart (f : Filler) (rest : List Char) : Apart (f.text ++ rest) := by
  intro c hc
  cases f with
  | blank b hb =>
    cases hc
    exact .inl hb
  | line | block =>
    cases hc
    exact .inr rfl

theorem apart_fillers (fs : List Filler) {rest : List Char} (hrest : Apart rest) :
    Apart (fillersText fs ++ rest) := by
  cases fs with
  | nil => exact hrest
  | cons f fs =>
    rw [fillersText, List.flatMap_cons, List.append_assoc]
    exact f.apart _

theorem Separator.apart (s : Separator) (rest : List Char) : Apart (s.text ++ rest) := by
  obtain ⟨f, fs, hfillers⟩ := List.exists_cons_of_ne_nil s.nonempty
  rw [text, hfillers, fillersText, List.flatMap_cons, List.append_assoc]
  exact f.apart _

/-- A test that neither white space nor a slash passes is not passed where a lexeme ends. -/
theorem Apart.head_eq_false {rest : List Char} (h : Apart rest) {p : Char → Bool}
    (hslash : p '/' = false) (hblank : ∀ c, p c → Text.isBlank c = false) :
    ∀ c ∈ rest.head?, p c = false := by
  intro c hc
  rcases h c hc with hc | rfl
  · by_contra hp
    rw [hblank c (Bool.of_not_eq_false hp)] at hc
    exact Bool.noConfusion hc
  · exact hslash

namespace Splits

variable {before rest : List Char} {tokens : List Token}

theorem filler (f : Filler) (h : Splits before tokens (f.text ++ rest)) :
    Splits (before ++ f.text) tokens rest := by
  cases f with
  | blank c hc => exact h.gap (.blank hc)
  | line body hbody =>
    -- the newline behind the comment is white space of its own
    have hspan : Text.Span (· ≠ '\n') body ('\n' :: rest) :=
      ⟨fun c hc => by simpa using hbody c hc, by simp⟩
    have hcomment : Splits before tokens ('/' :: '/' :: body ++ ['\n'] ++ rest) := by
      simpa [Filler.text] using h
    rw [List.append_assoc] at hcomment
    have hnewline := (hcomment.gap (.line hspan)).gap (.blank (by decide))
    simpa [Filler.text] using hnewline
  | block body hbody => exact h.gap (.block hbody)

theorem fillers {fs : List Filler} (h : Splits before tokens (fillersText fs ++ rest)) :
    Splits (before ++ fillersText fs) tokens rest := by
  induction fs generalizing before with
  | nil => simpa [fillersText] using h
  | cons f fs ih =>
    rw [fillersText, List.flatMap_cons, List.append_assoc] at h
    have hfs := ih (h.filler f)
    rwa [List.append_assoc] at hfs

end Splits

/-! ### Lexemes -/

/-- A character of a string, and whether it is written by name if it has one. -/
structure Letter where
  char : Char
  byName : Bool

/-- Quotes and backslashes are written behind a backslash, and newlines and tabs may be. -/
def Letter.text (l : Letter) : List Char :=
  if l.char = '"' ∨ l.char = '\\' then ['\\', l.char]
  else if l.byName ∧ l.char = '\n' then ['\\', 'n']
  else if l.byName ∧ l.char = '\t' then ['\\', 't']
  else [l.char]

theorem quotes_letters (letters : List Letter) :
    Quotes (letters.flatMap Letter.text) (letters.map (·.char)) := by
  induction letters with
  | nil => exact .nil
  | cons l letters ih =>
    obtain ⟨c, byName⟩ := l
    rw [List.flatMap_cons, List.map_cons, Letter.text]
    split
    · rename_i hmarked
      have hnames : c ≠ 'n' ∧ c ≠ 't' := by rcases hmarked with rfl | rfl <;> decide
      exact .escaped hnames.1 hnames.2 ih
    rename_i hplain
    rw [not_or] at hplain
    split
    · rename_i hnewline
      rw [hnewline.2]
      exact .newline ih
    split
    · rename_i htab
      rw [htab.2]
      exact .tab ih
    · exact .plain hplain.1 hplain.2 ih

/-- A lexeme and how it is spelled. A keyword may have capitals for any of its Latin letters; `ε`
has one spelling, since its capital stands in no word. -/
inductive Spelling
  | mark (entry : Char × Token.Kind) (hentry : entry ∈ marks)
  | arrow
  | dash
  | identifier (c : Char) (more : List Char) (hc : isNameStart c)
      (hmore : ∀ d ∈ more, isNamePart d)
      (hword : ∀ entry ∈ keywords, entry.1 ≠ String.ofList ((c :: more).map Char.toLower))
  | keyword (entry : String × Token.Kind) (hentry : entry ∈ keywords) (letters : List Char)
      (hletters : letters.map Char.toLower = entry.1.toList)
  | number (c : Char) (more : List Char) (hc : c.isDigit) (hmore : ∀ d ∈ more, isDigitOrDot d)
  | string (letters : List Letter)

namespace Spelling

def text : Spelling → List Char
  | .mark entry _ => [entry.1]
  | .arrow => ['-', '>']
  | .dash => ['-']
  | .identifier c more .. => c :: more
  | .keyword _ _ letters _ => letters
  | .number c more .. => c :: more
  | .string letters => '"' :: (letters.flatMap Letter.text ++ ['"'])

def kind : Spelling → Token.Kind
  | .mark entry _ => entry.2
  | .arrow => .arrow
  | .dash => .dash
  | .identifier .. => .identifier
  | .keyword entry .. => entry.2
  | .number .. => .number
  | .string _ => .string

/-- A string has its characters for its value, and every other lexeme its text. -/
def value : Spelling → String
  | .string letters => String.ofList (letters.map (·.char))
  | s => String.ofList s.text

end Spelling

theorem isBlank_eq_false_of_isNamePart (c : Char) (h : isNamePart c) : Text.isBlank c = false := by
  rw [isNamePart, Bool.or_eq_true] at h
  refine Bool.eq_false_iff.mpr fun hblank => ?_
  have := toNat_of_isBlank hblank
  rcases h with h | h
  · have := toNat_of_isNameStart h
    omega
  · have := toNat_of_isDigit h
    omega

theorem isBlank_eq_false_of_isDigitOrDot (c : Char) (h : isDigitOrDot c) :
    Text.isBlank c = false := by
  rw [isDigitOrDot, Bool.or_eq_true, decide_eq_true_eq] at h
  rcases h with h | rfl
  · exact isBlank_eq_false_of_isNamePart c (by simp [isNamePart, h])
  · decide

/-- Capitals are letters of words like the small ones. -/
theorem isNameStart_of_toLower {c : Char} (h : isNameStart c.toLower) : isNameStart c := by
  by_cases hupper : c.isUpper
  · have halpha : c.isAlpha := Bool.or_eq_true_iff.mpr (.inl hupper)
    simp [isNameStart, halpha]
  · have hsame : c.toLower = c := dif_neg fun hletter => hupper (decide_eq_true hletter)
    rwa [hsame] at h

/-- However a keyword is spelled, it begins like a name and goes on like one. -/
theorem keyword_letters {entry : String × Token.Kind} (hentry : entry ∈ keywords)
    {letters : List Char} (hletters : letters.map Char.toLower = entry.1.toList) :
    ∃ c more, letters = c :: more ∧ isNameStart c ∧ ∀ d ∈ more, isNamePart d := by
  have hstart : ∀ c ∈ letters, isNameStart c := by
    intro c hc
    have hlower : c.toLower ∈ entry.1.toList := hletters ▸ List.mem_map_of_mem hc
    have hall : ∀ e ∈ keywords, e.1.toList.all isNameStart := by decide
    exact isNameStart_of_toLower (List.all_eq_true.mp (hall entry hentry) _ hlower)
  cases letters with
  | nil =>
    have hnonempty : ∀ e ∈ keywords, e.1.toList ≠ [] := by decide
    exact absurd hletters.symm (hnonempty entry hentry)
  | cons c more =>
    refine ⟨c, more, rfl, hstart c (List.mem_cons_self ..), fun d hd => ?_⟩
    rw [isNamePart, hstart d (List.mem_cons_of_mem _ hd), Bool.true_or]

/-- A word that stands apart from what follows is a lexeme of the kind that it has as a word. -/
theorem isLexeme_word {c : Char} {more rest : List Char} (hc : isNameStart c)
    (hmore : ∀ d ∈ more, isNamePart d) (hrest : Apart rest) {kind : Token.Kind}
    (hkind : kindOfWord (c :: more) = kind) :
    IsLexeme (c :: more) rest kind (String.ofList (c :: more)) := by
  subst hkind
  exact .word hc ⟨hmore, hrest.head_eq_false (by decide) isBlank_eq_false_of_isNamePart⟩

/-- Every spelling is a lexeme where it stands apart from what follows. -/
theorem Spelling.isLexeme (s : Spelling) {rest : List Char} (hrest : Apart rest) :
    IsLexeme s.text rest s.kind s.value := by
  cases s with
  | mark entry hentry =>
    have hlookup : ∀ m ∈ marks, marks.lookup m.1 = some m.2 := by decide
    exact .mark (hlookup entry hentry)
  | arrow => exact .arrow
  | dash =>
    refine .dash fun hhead => ?_
    rcases hrest '>' hhead with h | h
    · exact absurd h (by decide)
    · exact absurd h (by decide)
  | identifier c more hc hmore hnone =>
    have hlookup : keywords.lookup (String.ofList ((c :: more).map Char.toLower)) = none := by
      rw [List.lookup_eq_none_iff]
      intro entry hentry
      rw [bne_iff_ne]
      exact (hnone entry hentry).symm
    refine isLexeme_word hc hmore hrest ?_
    rw [kindOfWord, hlookup]
    rfl
  | keyword entry hentry letters hletters =>
    obtain ⟨c, more, rfl, hc, hmore⟩ := keyword_letters hentry hletters
    have hlookup : ∀ e ∈ keywords, (keywords.lookup e.1).getD .identifier = e.2 := by decide
    refine isLexeme_word hc hmore hrest ?_
    rw [kindOfWord, hletters, String.ofList_toList, hlookup entry hentry]
    rfl
  | number c more hc hmore =>
    exact .number hc ⟨hmore, hrest.head_eq_false (by decide) isBlank_eq_false_of_isDigitOrDot⟩
  | string letters => exact .string (quotes_letters letters)

/-! ### Whole texts -/

/-- What stands before the first lexeme, behind each lexeme that another one follows, and behind
the last one. -/
structure Layout where
  lead : List Filler
  between : Nat → Separator
  trail : List Filler

/-- Lexemes with separators between them. -/
def spaced (between : Nat → Separator) : List Spelling → List Char
  | [] => []
  | [s] => s.text
  | s :: t :: ss => s.text ++ ((between 0).text ++ spaced (fun n => between (n + 1)) (t :: ss))

def Layout.text (l : Layout) (ss : List Spelling) : String :=
  String.ofList (fillersText l.lead ++ (spaced l.between ss ++ fillersText l.trail))

/-- The kind and the value of a token, without its place. -/
def Token.reading (t : Token) : Token.Kind × String := (t.kind, t.text)

/-- The kind and the value of the token that a lexeme becomes. -/
def Spelling.reading (s : Spelling) : Token.Kind × String := (s.kind, s.value)

theorem splits_spaced {between : Nat → Separator} {ss : List Spelling} {before rest : List Char}
    {tokens : List Token} (h : Splits before tokens (spaced between ss ++ rest))
    (hrest : Apart rest) :
    ∃ found, Splits (before ++ spaced between ss) (tokens ++ found) rest ∧
      found.map Token.reading = ss.map Spelling.reading := by
  induction ss generalizing between before tokens with
  | nil => exact ⟨[], by simpa [spaced] using h, rfl⟩
  | cons s ss ih =>
    cases ss with
    | nil => exact ⟨_, h.lexeme (s.isLexeme hrest), rfl⟩
    | cons t ss =>
      rw [spaced, List.append_assoc, List.append_assoc] at h
      have hlexeme := h.lexeme (s.isLexeme ((between 0).apart _))
      obtain ⟨found, hfound, hreadings⟩ := ih hlexeme.fillers
      refine ⟨⟨s.kind, s.value, place before⟩ :: found, ?_, ?_⟩
      · simpa [spaced, Separator.text] using hfound
      · rw [List.map_cons, hreadings]
        rfl

/-- The kinds and values of the tokens of a text, the one for its end included. -/
def readings (source : String) : Except Complaint (List (Token.Kind × String)) :=
  (scan source).map fun ts => ts.closed.map Token.reading

/-- Scanning undoes writing: a text has the tokens of the lexemes that are written in it, however
they are spelled and laid out, and no other layout of them gives others. -/
theorem readings_written (ss : List Spelling) (layout layout' : Layout) :
    readings (layout.text ss) = .ok (ss.map Spelling.reading ++ [(.finish, "")]) ∧
      readings (layout'.text ss) = readings (layout.text ss) := by
  have hreadings (l : Layout) :
      readings (l.text ss) = .ok (ss.map Spelling.reading ++ [(.finish, "")]) := by
    have hstart : Splits [] []
        (fillersText l.lead ++ (spaced l.between ss ++ fillersText l.trail)) := .start .none
    have htrail : Apart (fillersText l.trail) := by
      simpa using apart_fillers l.trail apart_nil
    obtain ⟨found, hfound, hmap⟩ := splits_spaced hstart.fillers htrail
    rw [List.nil_append, ← List.append_nil (fillersText l.trail)] at hfound
    have hall := hfound.fillers
    have hsource : Splits (l.text ss).toList found [] := by
      simpa [Layout.text] using hall
    rw [readings, scan_of_splits hsource]
    simp [Except.map, Tokens.closed, Token.reading, hmap]
  exact ⟨hreadings layout, (hreadings layout').trans (hreadings layout).symm⟩

end FiniteAutomata.Document
