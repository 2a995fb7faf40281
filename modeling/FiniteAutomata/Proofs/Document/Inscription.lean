import FiniteAutomata.Proofs.Document.Derivation
import FiniteAutomata.Proofs.Document.Loading
import FiniteAutomata.Proofs.Document.Writing
import FiniteAutomata.Proofs.Mirror.Basic

/-!
Symbols as a text writes them. The symbols of a transition are the lexemes between a dash and the
next arrow (`inscribed`), and the words for an empty move are told from all others by their letters
alone (`SpellsEpsilon`). A loaded graph has one transition for each lexeme, which reads nothing
exactly if the lexeme is such a word and otherwise reads the lexeme as it is written; so the
alphabet is the set of the other lexemes (`symbols_agree`).
-/
namespace FiniteAutomata.Document

/-- The tokens that stand between a dash and the next arrow, without the commas. -/
def inscribed (inside : Bool) : List Token → List Token
  | [] => []
  | t :: ts =>
    match t.kind with
    | .dash => inscribed true ts
    | .arrow => inscribed false ts
    | .comma => inscribed inside ts
    | _ => if inside then t :: inscribed inside ts else inscribed inside ts

/-- The letter, or the word in whatever letters it is written. -/
def SpellsEpsilon (text : String) : Prop :=
  text = "ε" ∨ text.toList.map Char.toLower = "epsilon".toList

instance (text : String) : Decidable (SpellsEpsilon text) :=
  inferInstanceAs (Decidable (_ ∨ _))

/-- The text of a token is written in a source at the token's place, where it is a lexeme. -/
def Token.StandsIn (w : Token) (source : String) : Prop :=
  ∃ before behind, source.toList = before ++ (w.text.toList ++ behind) ∧
    w.location = place before ∧ IsLexeme w.text.toList behind w.kind w.text

/-- A transition of a graph has the symbol that a token writes. -/
structure Stores (g : Graph) (t : Transition) (w : Token) : Prop where
  silent_iff : t.isSilent ↔ SpellsEpsilon w.text
  symbol_of_epsilon : SpellsEpsilon w.text → t.symbol = "ε"
  symbol_of_other : ¬SpellsEpsilon w.text → t.symbol = w.text
  mem_alphabet : ¬SpellsEpsilon w.text → t.symbol ∈ g.alphabet

/-! ### Inscribed tokens -/

theorem mem_of_mem_inscribed {inside : Bool} {ts : List Token} {w : Token}
    (h : w ∈ inscribed inside ts) : w ∈ ts := by
  fun_induction inscribed inside ts with
  | case1 => exact h
  | case5 =>
    rename_i ih
    rcases List.mem_cons.mp h with rfl | h
    · exact List.mem_cons_self ..
    · exact List.mem_cons_of_mem _ (ih h)
  | _ => rename_i ih; exact List.mem_cons_of_mem _ (ih h)

/-- Nothing is inscribed where no dash begins it. -/
theorem inscribed_append_of_no_dash {ts : List Token} (h : ∀ t ∈ ts, t.kind ≠ .dash)
    (rest : List Token) : inscribed false (ts ++ rest) = inscribed false rest := by
  induction ts with
  | nil => rfl
  | cons t ts ih =>
    obtain ⟨ht, hts⟩ := List.forall_mem_cons.mp h
    rw [List.cons_append, inscribed]
    split
    · exact absurd ‹_› ht
    all_goals exact ih hts

theorem SymbolPhrase.inscribed_cons {w : Token} {symbol : String} (h : SymbolPhrase w symbol)
    (rest : List Token) : inscribed true (w :: rest) = w :: inscribed true rest := by
  cases h <;> simp [inscribed, *]

theorem SymbolsPhrase.exists_inscribed {ts : List Token} {symbols : List String}
    (h : SymbolsPhrase ts symbols) :
    ∃ ws, List.Forall₂ SymbolPhrase ws symbols ∧
      ∀ rest, inscribed true (ts ++ rest) = ws ++ inscribed true rest := by
  induction h with
  | @last w symbol hw => exact ⟨[w], .cons hw .nil, hw.inscribed_cons⟩
  | @more w comma symbol ts symbols hw hcomma _ ih =>
    obtain ⟨ws, hws, hrest⟩ := ih
    refine ⟨w :: ws, .cons hw hws, fun rest => ?_⟩
    rw [List.cons_append, hw.inscribed_cons, List.cons_append, inscribed, hcomma]
    simp only [hrest, List.cons_append]

theorem Row.forall_mem {α : Type} {Phrase : List Token → α → Prop} {p : Token → Prop}
    (hp : ∀ ts a, Phrase ts a → ∀ t ∈ ts, p t) {ts : List Token} {as : List α}
    (h : Row Phrase ts as) : ∀ t ∈ ts, p t := by
  induction h with
  | nil => exact nofun
  | cons hphrase _ ih => exact List.forall_mem_append.mpr ⟨hp _ _ hphrase, ih⟩

theorem PropertyPhrase.kind_ne_dash {ts : List Token} {p : Property} (h : PropertyPhrase ts p) :
    ∀ t ∈ ts, t.kind ≠ .dash := by
  cases h with
  | initial _ _ _ h => cases h <;> simp [*]
  | accepting _ _ _ h => cases h <;> simp [*]
  | position _ _ _ _ hx _ hy => cases hx; cases hy; simp [*]
  | label => simp [*]

theorem SymbolsPhrase.kind_ne_dash {ts : List Token} {symbols : List String}
    (h : SymbolsPhrase ts symbols) : ∀ t ∈ ts, t.kind ≠ .dash := by
  induction h with
  | last h => cases h <;> simp [*]
  | more h hcomma _ ih => cases h <;> simp_all

/-- Of the items only transitions have inscribed tokens, which are those of its symbols. -/
theorem ItemPhrase.exists_inscribed {ts : List Token} {item : Item} (h : ItemPhrase ts item) :
    ∃ ws, List.Forall₂ SymbolPhrase ws (item.transition?.toList.flatMap (·.symbols)) ∧
      ∀ rest, inscribed false (ts ++ rest) = ws ++ inscribed false rest := by
  cases h with
  | metadata hkey hcolon h =>
    refine ⟨[], .nil, inscribed_append_of_no_dash ?_⟩
    cases h <;> simp [*]
  | alphabet hhead hcolon h =>
    refine ⟨[], .nil, inscribed_append_of_no_dash ?_⟩
    have hsymbols := h.kind_ne_dash
    simp_all
  | state hhead hid hopened hsaid hclosed =>
    refine ⟨[], .nil, inscribed_append_of_no_dash ?_⟩
    have hproperties := hsaid.forall_mem fun _ _ h => h.kind_ne_dash
    intro t ht
    simp only [List.mem_cons, List.mem_append, List.not_mem_nil, or_false] at ht
    rcases ht with rfl | rfl | rfl | ht | rfl
    · simp [hhead]
    · simp [hid]
    · simp [hopened]
    · exact hproperties t ht
    · simp [hclosed]
  | transition hsource hdash h harrow htarget =>
    obtain ⟨ws, hws, hinside⟩ := h.exists_inscribed
    refine ⟨ws, by simpa [Item.transition?] using hws, fun rest => ?_⟩
    simp only [List.cons_append, List.append_assoc, List.nil_append]
    simp [inscribed, hsource, hdash, harrow, htarget, hinside]

theorem Row.exists_inscribed {ts : List Token} {items : List Item}
    (h : Row ItemPhrase ts items) :
    ∃ ws, List.Forall₂ SymbolPhrase ws
        ((items.filterMap Item.transition?).flatMap (·.symbols)) ∧
      ∀ rest, inscribed false (ts ++ rest) = ws ++ inscribed false rest := by
  induction h with
  | nil => exact ⟨[], .nil, fun _ => rfl⟩
  | @cons ts us item items hitem _ ih =>
    obtain ⟨ws, hws, hfirst⟩ := hitem.exists_inscribed
    obtain ⟨ws', hws', hmore⟩ := ih
    refine ⟨ws ++ ws', ?_, fun rest => ?_⟩
    · have hsymbols : ((item :: items).filterMap Item.transition?).flatMap (·.symbols) =
          item.transition?.toList.flatMap (·.symbols) ++
            (items.filterMap Item.transition?).flatMap (·.symbols) := by
        rw [List.filterMap_cons]
        cases item.transition? <;> simp
      rw [hsymbols]
      exact List.rel_append hws hws'
    · rw [List.append_assoc, hfirst, hmore, List.append_assoc]

/-- The inscribed tokens of a document are those of the symbols of its transitions. -/
theorem inscribed_of_ofTokens {source : String} {ts : Tokens} {d : Document}
    (hscan : scan source = .ok ts) (hparse : ofTokens ts = .ok d) :
    List.Forall₂ SymbolPhrase (inscribed false ts.toList) (d.transitions.flatMap (·.symbols)) := by
  obtain ⟨rest, hdocument⟩ := ofTokens_eq_ok_iff_document.mp hparse
  obtain ⟨-, head, name, opened, used, items, closed, htokens, hhead, hname, hopened, hitems,
    hclosed, rfl⟩ := (Grammar.document_eq_ok_iff (Grammar.written_of_scan hscan)).mp hdocument
  obtain ⟨ws, hws, hused⟩ := hitems.exists_inscribed
  rw [htokens, Grammar.ofItems_eq]
  simpa [inscribed, hhead, hname, hopened, hclosed, hused] using hws

/-! ### Words for an empty move -/

theorem toLower_eq_epsilon_iff {c : Char} : c.toLower = 'ε' ↔ c = 'ε' := by
  constructor
  · intro h
    unfold Char.toLower at h
    split at h
    · rename_i hletter
      have hval : c.val + 32 = 949 := congrArg Char.val h
      have hcapital : 65 ≤ c.toNat ∧ c.toNat ≤ 90 := by
        simpa [UInt32.le_iff_toNat_le] using hletter
      rw [UInt32.toNat_inj.symm, UInt32.toNat_add] at hval
      simp at hval
      omega
    · exact h
  · rintro rfl
    rfl

theorem kindOfWord_eq_epsilon_iff (word : List Char) :
    kindOfWord word = .epsilon ↔ SpellsEpsilon (String.ofList word) := by
  have hletter : word.map Char.toLower = "ε".toList ↔ word = "ε".toList := by
    cases word with
    | nil => simp
    | cons c more => simp [toLower_eq_epsilon_iff]
  have hspells : SpellsEpsilon (String.ofList word) ↔
      String.ofList (word.map Char.toLower) = "ε" ∨
        String.ofList (word.map Char.toLower) = "epsilon" := by
    simp only [SpellsEpsilon, ← String.toList_inj, String.toList_ofList, hletter]
  rw [hspells, kindOfWord]
  generalize String.ofList (word.map Char.toLower) = small
  constructor
  · intro h
    cases hlookup : keywords.lookup small with
    | none =>
      rw [hlookup] at h
      cases h
    | some kind =>
      rw [hlookup] at h
      obtain ⟨before, after, hkeywords, -⟩ := List.lookup_eq_some_iff.mp hlookup
      have hmem : (small, kind) ∈ keywords := by simp [hkeywords]
      have hall : ∀ e ∈ keywords, e.2 = .epsilon → e.1 = "ε" ∨ e.1 = "epsilon" := by decide
      exact hall _ hmem h
  · rintro (rfl | rfl) <;> rfl

/-- A word for an empty move begins with a letter. -/
theorem SpellsEpsilon.isNameStart {c : Char} {more : List Char}
    (h : SpellsEpsilon (String.ofList (c :: more))) : isNameStart c := by
  rcases h with h | h
  · have hletters := congrArg String.toList h
    rw [String.toList_ofList] at hletters
    cases hletters
    decide
  · rw [String.toList_ofList] at h
    have hhead : c.toLower = 'e' := (List.cons.inj h).1
    refine isNameStart_of_toLower ?_
    rw [hhead]
    decide

namespace IsLexeme

variable {text rest : List Char} {kind : Token.Kind} {value : String}

/-- Outside of strings the kind of a lexeme is that of an empty move exactly if its letters say
so. -/
theorem kind_eq_epsilon_iff (h : IsLexeme text rest kind value) (hkind : kind ≠ .string) :
    kind = .epsilon ↔ SpellsEpsilon value := by
  cases h with
  | @mark c kind _ hmark =>
    obtain ⟨before, after, hmarks, -⟩ := List.lookup_eq_some_iff.mp hmark
    have hmem : (c, kind) ∈ marks := by simp [hmarks]
    have hall : ∀ m ∈ marks, m.2 ≠ .epsilon ∧ ¬SpellsEpsilon m.1.toString := by decide
    obtain ⟨hnot, hspells⟩ := hall _ hmem
    exact iff_of_false hnot hspells
  | arrow => decide
  | dash => decide
  | string => exact absurd rfl hkind
  | number hdigit =>
    refine iff_of_false (by decide) fun hspells => ?_
    have := toNat_of_isDigit hdigit
    have := toNat_of_isNameStart hspells.isNameStart
    omega
  | word => exact kindOfWord_eq_epsilon_iff _

/-- Outside of strings the value of a lexeme is what is written. -/
theorem toList_value (h : IsLexeme text rest kind value) (hkind : kind ≠ .string) :
    value.toList = text := by
  cases h with
  | string => exact absurd rfl hkind
  | mark => simp
  | arrow => rfl
  | dash => rfl
  | _ => exact String.toList_ofList

end IsLexeme

/-! ### Main statement -/

theorem SymbolPhrase.kind_ne_string {w : Token} {symbol : String} (h : SymbolPhrase w symbol) :
    w.kind ≠ .string := by
  cases h <;> simp [*]

theorem SymbolPhrase.symbol_eq {w : Token} {symbol : String} (h : SymbolPhrase w symbol) :
    symbol = if w.kind = .epsilon then "ε" else w.text := by
  cases h <;> simp [*]

/-- Whatever is a symbol stands in its text as it is. -/
theorem Splits.standsIn {source : String} {ts : List Token} (h : Splits source.toList ts [])
    {w : Token} (hw : w ∈ ts) (hkind : w.kind ≠ .string) : w.StandsIn source := by
  obtain ⟨front, lexeme, behind, htext, hplace, hlexeme⟩ := h.exists_standing w hw
  obtain rfl := hlexeme.toList_value hkind
  exact ⟨front, behind, by simpa using htext, hplace, hlexeme⟩

/-- A transition has the symbol of a lexeme: it reads nothing exactly if the lexeme is a word for
that, because no other lexeme is one of the symbols that mark an empty move. -/
theorem Token.StandsIn.stores {source : String} {w : Token} (h : w.StandsIn source) {g : Graph}
    {t : Transition} (hphrase : SymbolPhrase w t.symbol) (ht : t ∈ g.transitions)
    (hg : g.alphabet = Graph.symbolsOf g.transitions) : Stores g t w := by
  obtain ⟨before, behind, -, -, hlexeme⟩ := h
  have hkind := hlexeme.kind_eq_epsilon_iff hphrase.kind_ne_string
  have hsymbol := hphrase.symbol_eq
  by_cases hspells : SpellsEpsilon w.text
  · rw [if_pos (hkind.mpr hspells)] at hsymbol
    have hsilent : t.isSilent := Graph.isEpsilon_iff.mpr (.inr (.inl hsymbol))
    exact ⟨iff_of_true hsilent hspells, fun _ => hsymbol, fun hnot => absurd hspells hnot,
      fun hnot => absurd hspells hnot⟩
  · rw [if_neg (hkind.not.mpr hspells)] at hsymbol
    have hloud : t.isSilent = false := by
      rw [Graph.isSilent_eq_false_iff, hsymbol]
      obtain ⟨c, more, htext⟩ := hlexeme.exists_cons
      refine ⟨fun hnone => ?_, fun hletter => hspells (.inl hletter), fun hword => hspells ?_⟩
      · rw [hnone] at htext
        cases htext
      · rw [hword]
        decide
    refine ⟨iff_of_false (by simp [hloud]) hspells, fun h => absurd h hspells, fun _ => hsymbol,
      fun _ => ?_⟩
    rw [hg]
    exact Graph.mem_symbolsOf.mpr ⟨t, ht, hloud, rfl⟩

theorem symbols_drawn (d : Document) (supply : Supply) :
    (d.drawn supply).transitions.map (·.symbol) = d.transitions.flatMap (·.symbols) := by
  have hsymbols : (arrows d.transitions).map (·.2.2) = d.transitions.flatMap (·.symbols) := by
    simp [arrows, List.map_flatMap, Function.comp_def]
  rw [← hsymbols]
  apply List.ext_getElem
  · simp [drawn, joined]
  · simp [drawn, joined]

/-- Scanner, grammar and graph agree on what reads nothing. A loaded graph has one transition for
each lexeme between a dash and the next arrow, in their order. It reads nothing exactly if the
lexeme is `ε` or the word for it in whatever letters, and then its symbol is `ε`; otherwise its
symbol is the lexeme as it is written. The alphabet is the set of these other lexemes. -/
theorem symbols_agree {source : String} {supply : Supply} {g : Graph}
    (hload : ((Source.document source).load supply).outcome = .ok g) :
    ∃ ts, scan source = .ok ts ∧
      (∀ w ∈ inscribed false ts.toList, w.StandsIn source) ∧
      List.Forall₂ (Stores g) g.transitions (inscribed false ts.toList) ∧
      ∀ a, a ∈ g.alphabet ↔
        ∃ w ∈ inscribed false ts.toList, ¬SpellsEpsilon w.text ∧ w.text = a := by
  obtain ⟨d, ⟨ts, hscan, hparse⟩, -, rfl⟩ := exists_writes_of_load hload
  obtain ⟨hsplits, -⟩ := splits_of_scan hscan
  have hwritten := inscribed_of_ofTokens hscan hparse
  rw [← symbols_drawn d supply, List.forall₂_map_right_iff] at hwritten
  have hstands : ∀ w ∈ inscribed false ts.toList, w.StandsIn source := by
    intro w hw
    obtain ⟨t, -, hphrase⟩ := Graph.exists_of_forall₂ hwritten hw
    exact hsplits.standsIn (mem_of_mem_inscribed hw) hphrase.kind_ne_string
  have hstores : List.Forall₂ (Stores (d.drawn supply)) (d.drawn supply).transitions
      (inscribed false ts.toList) := by
    have hstanding := (List.forall₂_and_left ..).mpr ⟨hstands, hwritten⟩
    have hboth := (List.forall₂_and_left ..).mpr ⟨fun t ht => ht, hstanding.flip⟩
    exact hboth.imp fun t w ⟨ht, hw, hphrase⟩ => hw.stores hphrase ht rfl
  refine ⟨ts, hscan, hstands, hstores, fun a => ?_⟩
  have halphabet : (d.drawn supply).alphabet = Graph.symbolsOf (d.drawn supply).transitions := rfl
  rw [halphabet, Graph.mem_symbolsOf]
  constructor
  · rintro ⟨t, ht, hloud, rfl⟩
    obtain ⟨w, hw, hstored⟩ := Graph.exists_of_forall₂ hstores ht
    have hspells : ¬SpellsEpsilon w.text := by
      rw [← hstored.silent_iff, hloud]
      exact Bool.false_ne_true
    exact ⟨w, hw, hspells, (hstored.symbol_of_other hspells).symm⟩
  · rintro ⟨w, hw, hspells, rfl⟩
    obtain ⟨t, ht, hstored⟩ := Graph.exists_of_forall₂ hstores.flip hw
    refine ⟨t, ht, ?_, hstored.symbol_of_other hspells⟩
    rw [← hstored.silent_iff] at hspells
    simpa using hspells

/-- Symbols of every sort: both words for an empty move, a name that only looks like one, a number
with its points, and a name with the letter in it. -/
def motley : String :=
  "automaton \"M\" \x7b state q \x7b \x7d\n  q - ε, EPSilon, eps, 1.2.3, xε -> q \x7d"

def motleyTokens : Tokens where
  toList := [
    ⟨.automaton, "automaton", ⟨1, 1⟩⟩, ⟨.string, "M", ⟨1, 11⟩⟩, ⟨.openBrace, "\x7b", ⟨1, 15⟩⟩,
    ⟨.state, "state", ⟨1, 17⟩⟩, ⟨.identifier, "q", ⟨1, 23⟩⟩, ⟨.openBrace, "\x7b", ⟨1, 25⟩⟩,
    ⟨.closeBrace, "\x7d", ⟨1, 27⟩⟩, ⟨.identifier, "q", ⟨2, 3⟩⟩, ⟨.dash, "-", ⟨2, 5⟩⟩,
    ⟨.epsilon, "ε", ⟨2, 7⟩⟩, ⟨.comma, ",", ⟨2, 8⟩⟩, ⟨.epsilon, "EPSilon", ⟨2, 10⟩⟩,
    ⟨.comma, ",", ⟨2, 17⟩⟩, ⟨.identifier, "eps", ⟨2, 19⟩⟩, ⟨.comma, ",", ⟨2, 22⟩⟩,
    ⟨.number, "1.2.3", ⟨2, 24⟩⟩, ⟨.comma, ",", ⟨2, 29⟩⟩, ⟨.identifier, "xε", ⟨2, 31⟩⟩,
    ⟨.arrow, "->", ⟨2, 34⟩⟩, ⟨.identifier, "q", ⟨2, 37⟩⟩, ⟨.closeBrace, "\x7d", ⟨2, 39⟩⟩]
  finish := ⟨2, 40⟩

def motleyDocument : Document where
  name := "M"
  metadata := []
  alphabet := []
  states := [⟨"q", false, false, none, none, ⟨1, 17⟩⟩]
  transitions := [⟨"q", "q", ["ε", "ε", "eps", "1.2.3", "xε"], ⟨2, 3⟩⟩]

theorem scan_motley : scan motley = .ok motleyTokens := by decide +kernel

theorem symbols_agree_motley :
    ∃ g, ((Source.document motley).load .initial).outcome = .ok g ∧
      g.transitions.map (·.symbol) = ["ε", "ε", "eps", "1.2.3", "xε"] ∧
      ∀ a, a ∈ g.alphabet ↔ a ∈ ["eps", "1.2.3", "xε"] := by
  have hwrites : Writes motley motleyDocument := ⟨_, scan_motley, by with_unfolding_all rfl⟩
  have hsound : motleyDocument.Sound :=
    ⟨by decide, by simp [Resolved, identifiers, motleyDocument]⟩
  have hload := congrArg Attempt.outcome (load_of_writes hwrites hsound .initial)
  refine ⟨_, hload, symbols_drawn _ _, fun a => ?_⟩
  obtain ⟨ts, hscan, -, -, halphabet⟩ := symbols_agree hload
  cases scan_motley.symm.trans hscan
  have hothers : ((inscribed false motleyTokens.toList).filter (¬SpellsEpsilon ·.text)).map
      (·.text) = ["eps", "1.2.3", "xε"] := by decide
  rw [halphabet, ← hothers]
  simp [and_assoc]

end FiniteAutomata.Document
