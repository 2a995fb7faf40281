import FiniteAutomata.Proofs.Document.Continuation
import FiniteAutomata.Proofs.Document.Expectation

/-!
Where a text stops being the beginning of a document. Tokens that are all wanted can be continued to
a text that is a document, because every want can be filled (`exists_viable`); behind a token that
is not wanted nothing helps (`hopeless_of_advance`). So the complaint about a text lies at its first
impossible token, but for a name that is no property and has no colon behind it
(`complaint_first_impossible`).
-/
namespace FiniteAutomata.Document

/-- Some text that is a document begins with these tokens. -/
def Viable (ts : List Token) : Prop :=
  ∃ source us d, scan source = .ok us ∧ ofTokens us = .ok d ∧ ts <+: us.closed

/-- No tokens that are a document begin with the kinds and texts of these, wherever they stand. -/
def Hopeless (ts : List Token) : Prop :=
  ∀ us d, ofTokens us = .ok d → ¬ts.map Token.reading <+: us.closed.map Token.reading

/-- The tokens before a token can be continued to a document, and those up to and with it cannot. -/
structure FirstImpossible (before : List Token) (k : Token) : Prop where
  viable : Viable before
  hopeless : Hopeless (before ++ [k])

/-- The names of all properties. -/
def propertyNames : List String := ["initial", "accepting", "position", "label"]

theorem ofProperty_eq_none_iff {name : String} :
    Want.ofProperty name = none ↔ name ∉ propertyNames := by
  unfold Want.ofProperty
  split <;> simp_all [propertyNames]

/-! ### Stacks behind tokens -/

/-- What is wanted behind a row of tokens, if they are all wanted. -/
def advanceAll (s : List Want) : List Token → Option (List Want)
  | [] => some s
  | t :: ts => (advance t s).bind (advanceAll · ts)

section AdvanceAll

variable {s s' : List Want} {ts us : List Token} {t t' : Token}

theorem advanceAll_append (s : List Want) (ts us : List Token) :
    advanceAll s (ts ++ us) = (advanceAll s ts).bind (advanceAll · us) := by
  induction ts generalizing s with
  | nil => rfl
  | cons t ts ih =>
    rw [List.cons_append, advanceAll, advanceAll, Option.bind_assoc]
    exact congrArg _ (funext fun s' => ih s')

theorem halt_append (h : advanceAll s ts = some s') (us : List Token) :
    halt s (ts ++ us) = halt s' us := by
  induction ts generalizing s with
  | nil =>
    cases h
    rfl
  | cons t ts ih =>
    obtain ⟨s'', hadvance, hrest⟩ := Option.bind_eq_some_iff.mp h
    rw [List.cons_append, halt, hadvance]
    exact ih hrest

/-- Tokens are read as far as they are wanted. -/
theorem exists_front_of_halt (s : List Want) (ts : List Token) :
    ∃ front s', ts = front ++ (halt s ts).2 ∧ advanceAll s front = some s' ∧
      (halt s ts).1 = s'.map Want.settled ∧ ∀ t ∈ (halt s ts).2.head?, advance t s' = none := by
  induction ts generalizing s with
  | nil => exact ⟨[], s, rfl, rfl, rfl, nofun⟩
  | cons t ts ih =>
    rw [halt]
    cases hadvance : advance t s with
    | none =>
      refine ⟨[], s, rfl, rfl, rfl, fun u hu => ?_⟩
      cases hu
      exact hadvance
    | some s' =>
      obtain ⟨front, s'', hsplit, hfront, hsettled, hstop⟩ := ih s'
      refine ⟨t :: front, s'', congrArg (t :: ·) hsplit, ?_, hsettled, hstop⟩
      rw [advanceAll, hadvance]
      exact hfront

/-- Where a token stands makes no difference to who takes it. -/
theorem advance_congr (h : t.reading = t'.reading) (s : List Want) :
    advance t s = advance t' s := by
  obtain ⟨kind, text, here⟩ := t
  obtain ⟨kind', text', here'⟩ := t'
  obtain ⟨rfl, rfl⟩ := Prod.mk.inj h
  cases s with
  | nil => rfl
  | cons w s => cases w <;> rfl

theorem advanceAll_congr (h : ts.map Token.reading = us.map Token.reading) (s : List Want) :
    advanceAll s ts = advanceAll s us := by
  induction ts generalizing us s with
  | nil =>
    rw [List.map_nil, eq_comm, List.map_eq_nil_iff] at h
    rw [h]
  | cons t ts ih =>
    obtain ⟨u, us, rfl, hu, hus⟩ := List.map_eq_cons_iff.mp h.symm
    rw [advanceAll, advanceAll, advance_congr hu.symm]
    exact congrArg _ (funext fun s' => ih hus.symm s')

theorem Spelling.kind_ne_finish (sp : Spelling) : sp.kind ≠ .finish :=
  (sp.isLexeme apart_nil).kind_ne_finish

/-- The end of a text is never wanted. -/
theorem advance_finish (h : t.kind = .finish) (s : List Want) : advance t s = none := by
  obtain ⟨kind, text, here⟩ := t
  subst h
  cases s with
  | nil => rfl
  | cons w s =>
    cases w with
    | like sp =>
      have hafter : (Want.like sp).after ⟨.finish, text, here⟩ = none :=
        if_neg sp.kind_ne_finish.symm
      rw [advance, hafter]
      rfl
    | _ => rfl

/-! ### Filling -/

/-- A token that a lexeme becomes, somewhere. -/
def Spelling.token (sp : Spelling) : Token := ⟨sp.kind, sp.value, .start⟩

theorem advanceAll_fill_tokens (w : Want) (s : List Want) :
    advanceAll (w :: s) (w.fill.map Spelling.token) = some s := by
  cases w with
  | like sp => simp [Want.fill, advanceAll, advance, Want.after, Spelling.token]
  | _ => rfl

/-- Lexemes for each want on a stack fill it. -/
theorem advanceAll_fill {found : List Token}
    (h : found.map Token.reading = (s.flatMap Want.fill).map Spelling.reading) :
    advanceAll s found = some [] := by
  have htokens : ((s.flatMap Want.fill).map Spelling.token).map Token.reading =
      (s.flatMap Want.fill).map Spelling.reading := by
    rw [List.map_map]
    rfl
  rw [advanceAll_congr (h.trans htokens.symm)]
  clear h htokens found
  induction s with
  | nil => rfl
  | cons w s ih =>
    rw [List.flatMap_cons, List.map_append, advanceAll_append, advanceAll_fill_tokens]
    exact ih

end AdvanceAll

/-! ### Viable and hopeless beginnings -/

variable {source : String} {ts : Tokens} {before after : List Token} {s s' : List Want} {k : Token}

/-- Wanted tokens can be continued by wanted lexemes and then to a document. -/
theorem exists_viable (hscan : scan source = .ok ts) (hsplit : ts.toList = before ++ after)
    (hbefore : advanceAll Want.document before = some s) (more : List Spelling)
    (hmore : advanceAll s (more.map Spelling.token) = some s') :
    ∃ found, found.map Token.reading = more.map Spelling.reading ∧ Viable (before ++ found) := by
  obtain ⟨source', us, all, hscan', hall, hreadings⟩ :=
    exists_continuation hscan hsplit (more ++ s'.flatMap Want.fill)
  rw [List.map_append] at hreadings
  obtain ⟨found, rest, rfl, hfound, hrest⟩ := List.map_eq_append_iff.mp hreadings
  have htokens : (more.map Spelling.token).map Token.reading = more.map Spelling.reading := by
    rw [List.map_map]
    rfl
  have hwanted : advanceAll Want.document us.toList = some [] := by
    rw [hall, advanceAll_append, hbefore, Option.bind_some, advanceAll_append,
      advanceAll_congr (hfound.trans htokens.symm), hmore]
    exact advanceAll_fill hrest
  have hhalt : halt Want.document us.toList = ([], []) := by
    rw [← List.append_nil us.toList, halt_append hwanted]
    rfl
  obtain ⟨d, hd⟩ := exists_ofTokens_iff.mpr hhalt
  refine ⟨found, hfound, source', us, d, hscan', hd, rest ++ [⟨.finish, "", us.finish⟩], ?_⟩
  rw [Tokens.closed, hall]
  simp only [List.append_assoc]

theorem viable_of_advanceAll (hscan : scan source = .ok ts) (hsplit : ts.toList = before ++ after)
    (hbefore : advanceAll Want.document before = some s) : Viable before := by
  obtain ⟨found, hfound, hviable⟩ := exists_viable hscan hsplit hbefore [] rfl
  rw [List.map_nil, List.map_eq_nil_iff] at hfound
  rwa [hfound, List.append_nil] at hviable

/-- Nothing helps behind a token that is not wanted. -/
theorem hopeless_of_advance (hbefore : advanceAll Want.document before = some s)
    (hk : advance k s = none) (hend : k.kind = .finish → s ≠ []) : Hopeless (before ++ [k]) := by
  intro us d hd hprefix
  obtain ⟨behind, hbehind⟩ := hprefix
  obtain ⟨front, rest, hclosed, hfront, -⟩ := List.map_eq_append_iff.mp hbehind.symm
  rw [List.map_append] at hfront
  obtain ⟨before', last, rfl, hbefore', hlast⟩ := List.map_eq_append_iff.mp hfront
  obtain ⟨k', rfl, hk'⟩ := List.map_eq_singleton_iff.mp hlast
  have hwanted : advanceAll Want.document before' = some s :=
    (advanceAll_congr hbefore' _).trans hbefore
  have hstop : advance k' s = none := (advance_congr hk' s).trans hk
  have haccepted := exists_ofTokens_iff.mp ⟨d, hd⟩
  rcases List.eq_nil_or_concat' rest with rfl | ⟨rest, e, rfl⟩
  · -- the token stands for the end, before which everything is wanted
    rw [List.append_nil, Tokens.closed] at hclosed
    obtain ⟨htokens, hfinish⟩ := List.append_inj' hclosed rfl
    cases hfinish
    rw [htokens, ← List.append_nil before', halt_append hwanted] at haccepted
    have hkind : k.kind = .finish := congrArg Prod.fst hk'.symm
    exact hend hkind (List.map_eq_nil_iff.mp (congrArg Prod.fst haccepted))
  · rw [← List.append_assoc, Tokens.closed] at hclosed
    obtain ⟨htokens, -⟩ := List.append_inj' hclosed rfl
    rw [htokens, List.append_assoc, halt_append hwanted, List.singleton_append, halt, hstop]
      at haccepted
    cases congrArg Prod.snd haccepted

/-- Where reading stops, the next token is the first impossible one. -/
theorem firstImpossible_of_stop (hscan : scan source = .ok ts)
    (hsplit : ts.toList = before ++ after) (hbefore : advanceAll Want.document before = some s)
    (hstop : ∀ t ∈ after.head?, advance t s = none) (hopen : s ≠ [] ∨ after ≠ []) :
    FirstImpossible before (nextToken ts.finish after) := by
  refine ⟨viable_of_advanceAll hscan hsplit hbefore, ?_⟩
  cases after with
  | nil =>
    have hs : s ≠ [] := hopen.resolve_right (not_not_intro rfl)
    exact hopeless_of_advance hbefore (advance_finish rfl s) fun _ => hs
  | cons t rest =>
    have ht : t ∈ ts.toList := hsplit ▸ List.mem_append_right _ (List.mem_cons_self ..)
    obtain ⟨hsplits, -⟩ := splits_of_scan hscan
    exact hopeless_of_advance hbefore (hstop t rfl) fun hend =>
      absurd hend (hsplits.kind_ne_finish t ht)

theorem exists_closed_eq (hsplit : ts.toList = before ++ after) :
    ∃ rest, ts.closed = before ++ nextToken ts.finish after :: rest := by
  rw [Tokens.closed, hsplit]
  cases after with
  | nil => exact ⟨[], by simp [nextToken]⟩
  | cons t rest => exact ⟨rest ++ [⟨.finish, "", ts.finish⟩], by simp [nextToken]⟩

/-! ### Main statement -/

/-- The complaint about a text lies at one of its tokens, and no other lies there. A complaint about
a property or a number lies at the one that it quotes. The token is the first impossible one, unless
a colon is missing behind a name that stands where a property may and is none: then the name is the
first impossible token. -/
theorem complaint_first_impossible {c : Complaint} (hscan : scan source = .ok ts)
    (hparse : ofTokens ts = .error c) :
    (ts.closed.map (·.location)).Nodup ∧
      ∃ before k after, ts.closed = before ++ k :: after ∧ k.location = c.location ∧
        (∀ name, c.fault = .unknownProperty name → k.kind = .identifier ∧ k.text = name) ∧
        (∀ text, c.fault = .invalidNumber text → k.kind = .number ∧ k.text = text) ∧
        (FirstImpossible before k ∨
          c.fault = .expected .colon k.kind ∧
            ∃ front name other, before = front ++ [name] ∧ FirstImpossible front name ∧
              name.kind = .identifier ∧ name.text ∉ propertyNames ∧
              other.reading = (.identifier, "initial") ∧ Viable (front ++ [other])) := by
  refine ⟨nodup_locations hscan, ?_⟩
  obtain ⟨front, s, hsplit, hfront, hsettled, hstop⟩ :=
    exists_front_of_halt Want.document ts.toList
  have hblames := blames_of_ofTokens hparse
  generalize halt Want.document ts.toList = stopped at hblames hsplit hsettled hstop
  cases hblames with
  | @here _ _ rest hopen hlocation hquoted =>
    have hopen' : s ≠ [] ∨ rest ≠ [] := by
      refine hopen.imp_left fun hs hnone => hs ?_
      exact hsettled.trans (by rw [hnone, List.map_nil])
    obtain ⟨after, hclosed⟩ := exists_closed_eq hsplit
    refine ⟨front, nextToken ts.finish rest, after, hclosed, hlocation.symm, fun name hname => ?_,
      fun text htext => ?_, .inl (firstImpossible_of_stop hscan hsplit hfront hstop hopen')⟩
    · exact Prod.mk.inj (hquoted _ (by rw [hname]; rfl))
    · exact Prod.mk.inj (hquoted _ (by rw [htext]; rfl))
  | @colon s' name rest hname htext =>
    obtain ⟨w, s, rfl, hw, -⟩ := List.map_eq_cons_iff.mp hsettled.symm
    obtain rfl : w = .properties := by
      cases w <;> first | rfl | cases hw
    have hbefore : ts.toList = (front ++ [name]) ++ rest := by simpa using hsplit
    obtain ⟨after, hclosed⟩ := exists_closed_eq hbefore
    obtain ⟨found, hfound, hviable⟩ := exists_viable hscan hsplit hfront [.initialName] rfl
    obtain ⟨other, rfl, hother⟩ := List.map_eq_singleton_iff.mp hfound
    exact ⟨front ++ [name], nextToken ts.finish rest, after, hclosed, rfl, nofun, nofun,
      .inr ⟨rfl, front, name, other, rfl,
        firstImpossible_of_stop hscan hsplit hfront hstop (.inl (List.cons_ne_nil _ _)), hname,
        ofProperty_eq_none_iff.mp htext, hother, hviable⟩⟩

/-- A transition without a symbol. -/
def silenced : String := "automaton \"A\" \x7b q - -> q \x7d"

def silencedTokens : Tokens where
  toList := [
    ⟨.automaton, "automaton", ⟨1, 1⟩⟩, ⟨.string, "A", ⟨1, 11⟩⟩, ⟨.openBrace, "\x7b", ⟨1, 15⟩⟩,
    ⟨.identifier, "q", ⟨1, 17⟩⟩, ⟨.dash, "-", ⟨1, 19⟩⟩, ⟨.arrow, "->", ⟨1, 21⟩⟩,
    ⟨.identifier, "q", ⟨1, 24⟩⟩, ⟨.closeBrace, "\x7d", ⟨1, 26⟩⟩]
  finish := ⟨1, 27⟩

theorem complaint_first_impossible_silenced :
    scan silenced = .ok silencedTokens ∧
      ofTokens silencedTokens = .error ⟨.symbolExpected, ⟨1, 21⟩⟩ ∧
      ∃ before k after, silencedTokens.closed = before ++ k :: after ∧ k.location = ⟨1, 21⟩ ∧
        FirstImpossible before k := by
  have hscan : scan silenced = .ok silencedTokens := by decide +kernel
  have hparse : ofTokens silencedTokens = .error ⟨.symbolExpected, ⟨1, 21⟩⟩ := by
    with_unfolding_all rfl
  refine ⟨hscan, hparse, ?_⟩
  obtain ⟨-, before, k, after, hclosed, hlocation, -, -, hfirst | ⟨hcolon, -⟩⟩ :=
    complaint_first_impossible hscan hparse
  · exact ⟨before, k, after, hclosed, hlocation, hfirst⟩
  · cases hcolon

end FiniteAutomata.Document
