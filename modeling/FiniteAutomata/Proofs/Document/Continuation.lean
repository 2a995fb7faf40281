import FiniteAutomata.Proofs.Document.Writing
import Mathlib.Data.List.Nodup

/-!
Texts that begin alike. Where a text is cut behind one of its lexemes, only the next character
decides whether the lexeme still ends there (`Splits.congr`), so with a blank behind the cut any row
of lexemes can follow. Hence the first tokens of a text can be continued with whatever can be
written (`exists_continuation`). No two tokens of a text lie at the same place
(`nodup_locations`).
-/
namespace FiniteAutomata.Document

variable {rest rest' : List Char}

/-! ### What follows a piece -/

/-- Of what follows a piece only the first character matters. -/
theorem Trivia.congr {piece : List Char} (h : Trivia piece rest)
    (hhead : rest.head? = rest'.head?) : Trivia piece rest' := by
  cases h with
  | blank hc => exact .blank hc
  | line hbody => exact .line ⟨hbody.all, hhead ▸ hbody.stop⟩
  | block hbody => exact .block hbody
  | unclosed hbody =>
    obtain rfl : rest' = [] := List.head?_eq_none_iff.mp hhead.symm
    exact .unclosed hbody

theorem head?_append_congr (cs : List Char) (hhead : rest.head? = rest'.head?) :
    (cs ++ rest).head? = (cs ++ rest').head? := by
  cases cs with
  | nil => exact hhead
  | cons => rfl

theorem Gap.congr {gap : List Char} (h : Gap gap rest) (hhead : rest.head? = rest'.head?) :
    Gap gap rest' := by
  induction h with
  | none => exact .none
  | more hpiece _ ih => exact .more (hpiece.congr (head?_append_congr _ hhead)) (ih hhead)

namespace IsLexeme

variable {text : List Char} {kind : Token.Kind} {value : String}

theorem congr (h : IsLexeme text rest kind value) (hhead : rest.head? = rest'.head?) :
    IsLexeme text rest' kind value := by
  cases h with
  | mark h => exact .mark h
  | arrow => exact .arrow
  | dash h => exact .dash (hhead ▸ h)
  | string h => exact .string h
  | number hc hmore => exact .number hc ⟨hmore.all, hhead ▸ hmore.stop⟩
  | word hc hmore => exact .word hc ⟨hmore.all, hhead ▸ hmore.stop⟩

/-- No lexeme goes on where it stands apart from what follows. -/
theorem apart (h : IsLexeme text rest kind value) (hrest : Apart rest') :
    IsLexeme text rest' kind value := by
  cases h with
  | mark h => exact .mark h
  | arrow => exact .arrow
  | dash => exact Spelling.dash.isLexeme hrest
  | string h => exact .string h
  | number hc hmore =>
    exact .number hc
      ⟨hmore.all, hrest.head_eq_false (by decide) isBlank_eq_false_of_isDigitOrDot⟩
  | word hc hmore =>
    exact .word hc ⟨hmore.all, hrest.head_eq_false (by decide) isBlank_eq_false_of_isNamePart⟩

end IsLexeme

namespace Splits

variable {before : List Char} {tokens : List Token}

theorem congr (h : Splits before tokens rest) (hhead : rest.head? = rest'.head?) :
    Splits before tokens rest' := by
  induction h generalizing rest' with
  | start hgap => exact .start (hgap.congr hhead)
  | @next before lexeme gap rest ts kind value _ hlexeme hgap ih =>
    have hbehind := head?_append_congr gap hhead
    exact .next (ih (head?_append_congr lexeme hbehind)) (hlexeme.congr hbehind)
      (hgap.congr hhead)

/-- The first tokens of a text are also those of a text that goes on in any other way behind
them. -/
theorem exists_front {us : List Token} (h : Splits before (tokens ++ us) rest) :
    ∃ front, ∀ more, Apart more → Splits front tokens more := by
  generalize hall : tokens ++ us = all at h
  induction h generalizing us with
  | start =>
    obtain ⟨rfl, -⟩ := List.append_eq_nil_iff.mp hall
    exact ⟨[], fun more _ => .start .none⟩
  | @next before lexeme gap rest ts kind value hbefore hlexeme _ ih =>
    rcases List.eq_nil_or_concat' us with rfl | ⟨us, u, rfl⟩
    · rw [List.append_nil] at hall
      subst hall
      refine ⟨before ++ lexeme, fun more hmore => Splits.lexeme (hbefore.congr ?_)
        (hlexeme.apart hmore)⟩
      obtain ⟨c, cs, rfl⟩ := hlexeme.exists_cons
      rfl
    · rw [← List.append_assoc] at hall
      exact ih (List.append_inj' hall rfl).1

end Splits

/-- Any lexemes can be written behind the first tokens of a text. -/
theorem exists_continuation {source : String} {ts : Tokens} (hscan : scan source = .ok ts)
    {before after : List Token} (hsplit : ts.toList = before ++ after) (ss : List Spelling) :
    ∃ source' ts' found, scan source' = .ok ts' ∧ ts'.toList = before ++ found ∧
      found.map Token.reading = ss.map Spelling.reading := by
  obtain ⟨h, -⟩ := splits_of_scan hscan
  rw [hsplit] at h
  obtain ⟨front, hfront⟩ := h.exists_front
  have hblank : Text.isBlank ' ' := by decide
  let between : Nat → Separator := fun _ => ⟨[.blank ' ' hblank], List.cons_ne_nil _ _⟩
  have hspaced : Splits (front ++ [' ']) before (spaced between ss ++ []) :=
    (hfront _ (Filler.apart (.blank ' ' hblank) _)).gap (.blank hblank)
  obtain ⟨found, hfound, hreadings⟩ := splits_spaced hspaced apart_nil
  have hall : Splits (String.ofList (front ++ [' '] ++ spaced between ss)).toList
      (before ++ found) [] := by rwa [String.toList_ofList]
  exact ⟨_, _, found, scan_of_splits hall, rfl, hreadings⟩

/-! ### Places -/

/-- A text never ends at the place where a part at its beginning ends. -/
theorem place_append_ne (before : List Char) {more : List Char} (hmore : more ≠ []) :
    place (before ++ more) ≠ place before := by
  intro heq
  obtain ⟨hline, hcolumn⟩ := Location.mk.inj heq
  rw [List.count_append] at hline
  have hnone : more.count '\n' = 0 := by omega
  have hsame : ∀ c ∈ more.reverse, (c ≠ '\n' : Bool) := by
    intro c hc
    rw [List.mem_reverse] at hc
    simpa using ne_of_mem_of_not_mem hc (List.count_eq_zero.mp hnone)
  rw [List.reverse_append, List.takeWhile_append_of_pos hsame, List.length_append,
    List.length_reverse] at hcolumn
  have hlength := List.length_pos_of_ne_nil hmore
  omega

/-- Behind a token every place is another. -/
theorem Splits.location_ne {before rest : List Char} {tokens : List Token}
    (h : Splits before tokens rest) (more : List Char) :
    ∀ t ∈ tokens, t.location ≠ place (before ++ more) := by
  induction h generalizing more with
  | start => exact nofun
  | @next before lexeme gap rest tokens kind value _ hlexeme _ ih =>
    intro t ht
    rw [List.append_assoc]
    rcases List.mem_append.mp ht with ht | ht
    · exact ih (lexeme ++ gap ++ more) t ht
    · rw [List.mem_singleton.mp ht]
      obtain ⟨c, cs, rfl⟩ := hlexeme.exists_cons
      exact (place_append_ne before (List.cons_ne_nil _ _)).symm

theorem Splits.nodup_locations {before rest : List Char} {tokens : List Token}
    (h : Splits before tokens rest) : (tokens.map (·.location)).Nodup := by
  induction h with
  | start => exact List.nodup_nil
  | @next before lexeme gap rest tokens kind value hbefore _ _ ih =>
    rw [List.map_append, List.map_singleton, ← List.concat_eq_append]
    refine ih.concat fun hmem => ?_
    obtain ⟨t, ht, hlocation⟩ := List.mem_map.mp hmem
    exact hbefore.location_ne [] t ht (by rw [hlocation, List.append_nil])

theorem nodup_locations {source : String} {ts : Tokens} (hscan : scan source = .ok ts) :
    (ts.closed.map (·.location)).Nodup := by
  obtain ⟨h, hfinish⟩ := splits_of_scan hscan
  rw [Tokens.closed, List.map_append, List.map_singleton, ← List.concat_eq_append]
  refine h.nodup_locations.concat fun hmem => ?_
  obtain ⟨t, ht, hlocation⟩ := List.mem_map.mp hmem
  exact h.location_ne [] t ht (by rw [hlocation, hfinish, List.append_nil])

end FiniteAutomata.Document
