import FiniteAutomata.Proofs.Document.Derivation
import FiniteAutomata.Proofs.Document.Loading

/-!
What a loaded graph depends on. A text says its items in some order, and of them only the states and
the transitions come into the graph: each kind in the order of the text, wherever a declaration
stands. So two texts with the same states and the same transitions are loaded alike, however these
are mixed with each other, with remarks and with declared alphabets (`load_interleaved`). A
transition with several symbols counts as one transition for each of them (`sameDeclared_split`).
-/
namespace FiniteAutomata.Document

/-- What is declared of a state, wherever the declaration stands. -/
def StateDecl.anywhere (s : StateDecl) : StateDecl := { s with location := .start }

/-- A text whose tokens are a document of this name with these items in this order. -/
inductive Lists (source : String) : String → List Item → Prop
  | listed {ts : Tokens} {head name opened closed finish : Token} {used : List Token}
      {items : List Item} (hscan : scan source = .ok ts)
      (htokens : ts.closed = head :: name :: opened :: (used ++ [closed, finish]))
      (hhead : head.kind = .automaton) (hname : name.kind = .string)
      (hopened : opened.kind = .openBrace) (hitems : Row ItemPhrase used items)
      (hclosed : closed.kind = .closeBrace) (hfinish : finish.kind = .finish) :
      Lists source name.text items

/-- Items declare the same states and the same transitions, each in the same order. Of a transition
only its ends and each of its symbols count. -/
structure SameDeclared (items items' : List Item) : Prop where
  states_eq : (items.filterMap Item.state?).map (·.anywhere) =
    (items'.filterMap Item.state?).map (·.anywhere)
  arrows_eq : arrows (items.filterMap Item.transition?) = arrows (items'.filterMap Item.transition?)

def TransitionDecl.anywhere (t : TransitionDecl) : TransitionDecl := { t with location := .start }

/-- A transition declared once for each of its symbols. -/
def TransitionDecl.split (t : TransitionDecl) : List TransitionDecl :=
  t.symbols.map fun symbol => ⟨t.source, t.target, [symbol], .start⟩

/-! ### The items of a text -/

/-- A text says what its items say. -/
theorem Lists.writes {source name : String} {items : List Item} (h : Lists source name items) :
    Writes source (ofItems name items) := by
  cases h with
  | listed hscan htokens hhead hname hopened hitems hclosed hfinish =>
    refine ⟨_, hscan, Derived.ofTokens_eq_ok hscan ?_⟩
    rw [htokens, Grammar.ofItems_eq]
    exact .document hhead hname hopened hitems hclosed hfinish

theorem Writes.exists_lists {source : String} {d : Document} (h : Writes source d) :
    ∃ items, Lists source d.name items ∧ ofItems d.name items = d := by
  obtain ⟨ts, hscan, hparse⟩ := h
  have hderived := derived_of_ofTokens hscan hparse
  generalize htokens : ts.closed = tokens at hderived
  cases hderived with
  | document hhead hname hopened hitems hclosed hfinish =>
    exact ⟨_, .listed hscan htokens hhead hname hopened hitems hclosed hfinish,
      Grammar.ofItems_eq ..⟩

theorem SymbolsPhrase.ne_nil {ts : List Token} {symbols : List String}
    (h : SymbolsPhrase ts symbols) : symbols ≠ [] := by
  cases h with
  | last => exact List.cons_ne_nil _ _
  | more => exact List.cons_ne_nil _ _

theorem Row.exists_phrase {α : Type} {Phrase : List Token → α → Prop} {ts : List Token}
    {as : List α} (h : Row Phrase ts as) {a : α} (ha : a ∈ as) : ∃ us, Phrase us a := by
  induction h with
  | nil => exact absurd ha List.not_mem_nil
  | @cons ts us b as hphrase _ ih =>
    rcases List.mem_cons.mp ha with rfl | ha
    · exact ⟨ts, hphrase⟩
    · exact ih ha

/-- No transition of a text is without a symbol. -/
theorem Lists.symbols_ne_nil {source name : String} {items : List Item}
    (h : Lists source name items) :
    ∀ t ∈ items.filterMap Item.transition?, t.symbols ≠ [] := by
  intro t ht
  obtain ⟨item, hitem, hdecl⟩ := List.mem_filterMap.mp ht
  cases h with
  | listed _ _ _ _ _ hitems =>
    obtain ⟨us, hphrase⟩ := hitems.exists_phrase hitem
    cases hphrase with
    | transition _ _ hsymbols =>
      cases hdecl
      exact hsymbols.ne_nil
    | _ => cases hdecl

/-! ### The graph of a document -/

theorem mem_arrows {ts : List TransitionDecl} {source target symbol : String} :
    (source, target, symbol) ∈ arrows ts ↔
      ∃ t ∈ ts, t.source = source ∧ t.target = target ∧ symbol ∈ t.symbols := by
  simp only [arrows, List.mem_flatMap, List.mem_map, Prod.mk.injEq]
  refine exists_congr fun t => and_congr_right fun _ => ?_
  constructor
  · rintro ⟨a, ha, hsource, htarget, rfl⟩
    exact ⟨hsource, htarget, ha⟩
  · rintro ⟨hsource, htarget, hsymbol⟩
    exact ⟨symbol, hsymbol, hsource, htarget, rfl⟩

/-- Documents with the same name, the same states and the same transitions, each in the same
order. -/
structure Same (d d' : Document) : Prop where
  name_eq : d.name = d'.name
  states_eq : d.states.map (·.anywhere) = d'.states.map (·.anywhere)
  arrows_eq : arrows d.transitions = arrows d'.transitions

theorem placed_anywhere (start index : Nat) (ds : List StateDecl) :
    placed start index (ds.map (·.anywhere)) = placed start index ds := by
  apply List.ext_getElem
  · simp [placed]
  · simp [placed, StateDecl.anywhere]

namespace Same

variable {d d' : Document}

theorem identifiers_eq (h : Same d d') : d.identifiers = d'.identifiers := by
  have hids (ds : List StateDecl) : ds.map (·.id) = (ds.map (·.anywhere)).map (·.id) := by
    rw [List.map_map]
    rfl
  rw [identifiers, identifiers, hids, h.states_eq, ← hids]

theorem drawn_eq (h : Same d d') (supply : Supply) : d.drawn supply = d'.drawn supply := by
  have hplaced : placed supply.states 0 d.states = placed supply.states 0 d'.states := by
    rw [← placed_anywhere, h.states_eq, placed_anywhere]
  have hnumber : d.stateNamed supply = d'.stateNamed supply := by
    funext name
    rw [stateNamed, stateNamed, h.identifiers_eq]
  have hjoined : joined (d.stateNamed supply) supply.transitions d.transitions =
      joined (d'.stateNamed supply) supply.transitions d'.transitions := by
    rw [joined, joined, hnumber, h.arrows_eq]
  rw [drawn, drawn, hplaced, hjoined, h.name_eq]

theorem spent_eq (h : Same d d') (supply : Supply) : d.spent supply = d'.spent supply := by
  have hlength : d.states.length = d'.states.length := by
    simpa only [List.length_map] using congrArg List.length h.states_eq
  rw [spent, spent, hlength, h.arrows_eq]

/-- What one document declares twice or leaves undeclared the other does too, since every transition
shows by a symbol. -/
theorem sound (h : Same d d') (hsymbols : ∀ t ∈ d'.transitions, t.symbols ≠ []) (hd : d.Sound) :
    d'.Sound where
  distinct := h.identifiers_eq ▸ hd.distinct
  resolved := by
    intro t ht
    obtain ⟨symbol, hsymbol⟩ := List.exists_mem_of_ne_nil _ (hsymbols t ht)
    have harrow : (t.source, t.target, symbol) ∈ arrows d.transitions := by
      rw [h.arrows_eq]
      exact mem_arrows.mpr ⟨t, ht, rfl, rfl, hsymbol⟩
    obtain ⟨u, hu, hsource, htarget, -⟩ := mem_arrows.mp harrow
    obtain ⟨hsourceIn, htargetIn⟩ := hd.resolved u hu
    rw [hsource, h.identifiers_eq] at hsourceIn
    rw [htarget, h.identifiers_eq] at htargetIn
    exact ⟨hsourceIn, htargetIn⟩

end Same

theorem sameDeclared_iff {items items' : List Item} (name : String) :
    SameDeclared items items' ↔ Same (ofItems name items) (ofItems name items') := by
  rw [Grammar.ofItems_eq, Grammar.ofItems_eq]
  exact ⟨fun h => ⟨rfl, h.states_eq, h.arrows_eq⟩, fun h => ⟨h.states_eq, h.arrows_eq⟩⟩

/-! ### Moved and split declarations -/

theorem arrows_append (ts us : List TransitionDecl) : arrows (ts ++ us) = arrows ts ++ arrows us :=
  List.flatMap_append

theorem arrows_anywhere (ts : List TransitionDecl) : arrows (ts.map (·.anywhere)) = arrows ts := by
  rw [arrows, List.flatMap_map]
  rfl

theorem arrows_split (t : TransitionDecl) : arrows t.split = arrows [t] := by
  rw [arrows, arrows, List.flatMap_singleton, TransitionDecl.split, List.flatMap_map]
  exact List.map_eq_flatMap.symm

/-- Declarations may stand anywhere, as long as each kind keeps its order. -/
theorem sameDeclared_moved {items items' : List Item}
    (hstates : (items.filterMap Item.state?).map (·.anywhere) =
      (items'.filterMap Item.state?).map (·.anywhere))
    (htransitions : (items.filterMap Item.transition?).map (·.anywhere) =
      (items'.filterMap Item.transition?).map (·.anywhere)) : SameDeclared items items' := by
  refine ⟨hstates, ?_⟩
  rw [← arrows_anywhere, htransitions, arrows_anywhere]

/-- A transition may be declared once for each of its symbols instead. -/
theorem sameDeclared_split {before before' after after' : List Item} (t : TransitionDecl)
    {ones : List TransitionDecl} (hones : ones.map (·.anywhere) = t.split)
    (hbefore : SameDeclared before before') (hafter : SameDeclared after after') :
    SameDeclared (before ++ .transition t :: after)
      (before' ++ (ones.map .transition ++ after')) := by
  have hnostates : (ones.map Item.transition).filterMap Item.state? = [] := by
    simp [List.filterMap_map, Item.state?]
  have htransitions : (ones.map Item.transition).filterMap Item.transition? = ones := by
    simp [List.filterMap_map, Item.transition?, Function.comp_def]
  have harrows : arrows ones = arrows [t] := by rw [← arrows_anywhere, hones, arrows_split]
  have hstate : (Item.transition t :: after).filterMap Item.state? =
      after.filterMap Item.state? := rfl
  have htransition : (Item.transition t :: after).filterMap Item.transition? =
      [t] ++ after.filterMap Item.transition? := rfl
  constructor
  · simp only [List.filterMap_append, hstate, hnostates, List.nil_append, List.map_append,
      hbefore.states_eq, hafter.states_eq]
  · simp only [List.filterMap_append, htransition, htransitions, arrows_append, harrows,
      hbefore.arrows_eq, hafter.arrows_eq]

/-! ### Main statement -/

/-- No text says two things. -/
theorem Writes.unique {source : String} {d d' : Document} (h : Writes source d)
    (h' : Writes source d') : d = d' := by
  obtain ⟨ts, hscan, hparse⟩ := h
  obtain ⟨ts', hscan', hparse'⟩ := h'
  cases hscan.symm.trans hscan'
  exact Except.ok.inj (hparse.symm.trans hparse')

/-- Texts that declare the same are loaded alike, once one of them is loaded at all, and as the
graph that the items of either describe. -/
theorem load_of_sameDeclared {source source' name : String} {items items' : List Item}
    {supply : Supply} {g : Graph} (hlists : Lists source name items)
    (hlists' : Lists source' name items') (hdeclared : SameDeclared items items')
    (hload : ((Source.document source).load supply).outcome = .ok g) :
    (Source.document source').load supply = (Source.document source).load supply ∧
      g = (ofItems name items).drawn supply ∧ g = (ofItems name items').drawn supply := by
  obtain ⟨d, hwrites, hsound, hdrawn⟩ := exists_writes_of_load hload
  cases hwrites.unique hlists.writes
  have hsame := (sameDeclared_iff name).mp hdeclared
  have hsymbols : ∀ t ∈ (ofItems name items').transitions, t.symbols ≠ [] := by
    rw [Grammar.ofItems_eq]
    exact hlists'.symbols_ne_nil
  refine ⟨?_, hdrawn, hdrawn.trans (hsame.drawn_eq supply)⟩
  rw [load_of_writes hlists'.writes (hsame.sound hsymbols hsound),
    load_of_writes hlists.writes hsound, hsame.drawn_eq, hsame.spent_eq]

/-- Every text that is loaded lists items, and any text that declares the same states and
transitions under the same name is loaded as the same graph, wherever the declarations stand and
whatever else the texts say. A transition may be declared once for each of its symbols instead. -/
theorem load_interleaved :
    (∀ source supply g, ((Source.document source).load supply).outcome = .ok g →
      ∃ d items, Writes source d ∧ Lists source d.name items ∧ ofItems d.name items = d) ∧
      (∀ source source' name items items' supply g, Lists source name items →
        Lists source' name items' → SameDeclared items items' →
        ((Source.document source).load supply).outcome = .ok g →
        (Source.document source').load supply = (Source.document source).load supply ∧
          g = (ofItems name items).drawn supply ∧ g = (ofItems name items').drawn supply) ∧
      (∀ items items' : List Item,
        (items.filterMap Item.state?).map (·.anywhere) =
          (items'.filterMap Item.state?).map (·.anywhere) →
        (items.filterMap Item.transition?).map (·.anywhere) =
          (items'.filterMap Item.transition?).map (·.anywhere) →
        SameDeclared items items') ∧
      ∀ (before before' after after' : List Item) (t : TransitionDecl)
        (ones : List TransitionDecl), ones.map (·.anywhere) = t.split →
        SameDeclared before before' → SameDeclared after after' →
        SameDeclared (before ++ .transition t :: after)
          (before' ++ (ones.map .transition ++ after')) := by
  refine ⟨?_, ?_, ?_, ?_⟩
  · intro source supply g hload
    obtain ⟨d, hwrites, -, -⟩ := exists_writes_of_load hload
    obtain ⟨items, hlists, hitems⟩ := hwrites.exists_lists
    exact ⟨d, items, hwrites, hlists, hitems⟩
  · intro source source' name items items' supply g hlists hlists' hdeclared hload
    exact load_of_sameDeclared hlists hlists' hdeclared hload
  · intro items items' hstates htransitions
    exact sameDeclared_moved hstates htransitions
  · intro before before' after after' t ones hones hbefore hafter
    exact sameDeclared_split t hones hbefore hafter

/-- The state and the transitions of `looped`, in another order and among other items. -/
def dispersed : String :=
  "automaton \"A\" \x7b\n  alphabet: z q - a -> q\n  by: x state q \x7b \x7d\n" ++
    "  q - epsilon -> q \x7d"

def dispersedTokens : Tokens where
  toList := [
    ⟨.automaton, "automaton", ⟨1, 1⟩⟩, ⟨.string, "A", ⟨1, 11⟩⟩, ⟨.openBrace, "\x7b", ⟨1, 15⟩⟩,
    ⟨.alphabet, "alphabet", ⟨2, 3⟩⟩, ⟨.colon, ":", ⟨2, 11⟩⟩, ⟨.identifier, "z", ⟨2, 13⟩⟩,
    ⟨.identifier, "q", ⟨2, 15⟩⟩, ⟨.dash, "-", ⟨2, 17⟩⟩, ⟨.identifier, "a", ⟨2, 19⟩⟩,
    ⟨.arrow, "->", ⟨2, 21⟩⟩, ⟨.identifier, "q", ⟨2, 24⟩⟩, ⟨.identifier, "by", ⟨3, 3⟩⟩,
    ⟨.colon, ":", ⟨3, 5⟩⟩, ⟨.identifier, "x", ⟨3, 7⟩⟩, ⟨.state, "state", ⟨3, 9⟩⟩,
    ⟨.identifier, "q", ⟨3, 15⟩⟩, ⟨.openBrace, "\x7b", ⟨3, 17⟩⟩, ⟨.closeBrace, "\x7d", ⟨3, 19⟩⟩,
    ⟨.identifier, "q", ⟨4, 3⟩⟩, ⟨.dash, "-", ⟨4, 5⟩⟩, ⟨.epsilon, "epsilon", ⟨4, 7⟩⟩,
    ⟨.arrow, "->", ⟨4, 15⟩⟩, ⟨.identifier, "q", ⟨4, 18⟩⟩, ⟨.closeBrace, "\x7d", ⟨4, 20⟩⟩]
  finish := ⟨4, 21⟩

def loopedDocument : Document where
  name := "A"
  metadata := []
  alphabet := []
  states := [⟨"q", false, false, none, none, ⟨2, 3⟩⟩]
  transitions := [⟨"q", "q", ["a", "ε"], ⟨3, 3⟩⟩]

def dispersedDocument : Document where
  name := "A"
  metadata := [("by", "x")]
  alphabet := ["z"]
  states := [⟨"q", false, false, none, none, ⟨3, 9⟩⟩]
  transitions := [⟨"q", "q", ["a"], ⟨2, 15⟩⟩, ⟨"q", "q", ["ε"], ⟨4, 3⟩⟩]

theorem writes_looped : Writes looped loopedDocument := by
  have hscan : scan looped = .ok loopedTokens := by decide +kernel
  exact ⟨_, hscan, by with_unfolding_all rfl⟩

theorem writes_dispersed : Writes dispersed dispersedDocument := by
  have hscan : scan dispersed = .ok dispersedTokens := by decide +kernel
  exact ⟨_, hscan, by with_unfolding_all rfl⟩

/-- Both are loaded as the graph with one state and two transitions at it. -/
theorem load_interleaved_dispersed :
    (∃ g, ((Source.document looped).load .initial).outcome = .ok g ∧ g.name = "A" ∧
        g.states.map (fun s => (s.id, s.label)) = [(⟨0⟩, "q")] ∧
        g.transitions = [⟨⟨0⟩, ⟨0⟩, ⟨0⟩, "a"⟩, ⟨⟨1⟩, ⟨0⟩, ⟨0⟩, "ε"⟩] ∧ g.alphabet.toList = ["a"]) ∧
      (Source.document dispersed).load .initial = (Source.document looped).load .initial := by
  obtain ⟨items, hlists, hitems⟩ := writes_looped.exists_lists
  obtain ⟨items', hlists', hitems'⟩ := writes_dispersed.exists_lists
  have hdeclared : SameDeclared items items' :=
    (sameDeclared_iff "A").mpr (hitems ▸ hitems' ▸ ⟨rfl, rfl, rfl⟩)
  have hsound : loopedDocument.Sound :=
    ⟨by decide, by simp [Resolved, identifiers, loopedDocument]⟩
  have hload := congrArg Attempt.outcome (load_of_writes writes_looped hsound .initial)
  refine ⟨⟨_, hload, rfl, rfl, rfl, rfl⟩, ?_⟩
  exact (load_interleaved.2.1 _ _ _ _ _ _ _ hlists hlists' hdeclared hload).1

end FiniteAutomata.Document
