import FiniteAutomata.Document.Parse
import FiniteAutomata.Proofs.Document.Phrase
import FiniteAutomata.Proofs.Document.Splitting

/-!
The rules take exactly the phrases of the grammar. Each rule gets one lemma, which says of any
tokens when the rule succeeds and what it gives. The value of a number is that of its digits, which
is where it matters how tokens are written (`Written`).
-/
namespace FiniteAutomata.Document

/-! ### Rules in sequence -/

namespace Rule

variable {α β : Type}

theorem bind_eq_ok_iff {r : Rule α} {f : α → Rule β} {ts rest : List Token} {b : β} :
    (r >>= f) ts = .ok (b, rest) ↔ ∃ a us, r ts = .ok (a, us) ∧ f a us = .ok (b, rest) := by
  refine ⟨bind_eq_ok, ?_⟩
  rintro ⟨a, us, hr, hf⟩
  change (r ts >>= fun (p : α × List Token) => f p.1 p.2) = _
  rw [hr]
  exact hf

theorem map_eq_ok_iff {r : Rule α} {f : α → β} {ts rest : List Token} {b : β} :
    (f <$> r) ts = .ok (b, rest) ↔ ∃ a, r ts = .ok (a, rest) ∧ f a = b := by
  change (r >>= fun a => pure (f a)) ts = .ok (b, rest) ↔ _
  rw [bind_eq_ok_iff]
  constructor
  · rintro ⟨a, us, hr, hf⟩
    cases hf
    exact ⟨a, hr, rfl⟩
  · rintro ⟨a, hr, rfl⟩
    exact ⟨a, rest, hr, rfl⟩

theorem pure_eq_ok_iff {a b : α} {ts rest : List Token} :
    (pure a : Rule α) ts = .ok (b, rest) ↔ a = b ∧ ts = rest := by
  change Except.ok (a, ts) = .ok (b, rest) ↔ _
  simp

end Rule

theorem expect_eq_ok_iff {finish : Location} {kind : Token.Kind} {ts rest : List Token}
    {t : Token} : expect finish kind ts = .ok (t, rest) ↔ ts = t :: rest ∧ t.kind = kind := by
  cases ts with
  | nil => simp [expect]
  | cons head tail =>
    rw [expect]
    split
    · rename_i hkind
      constructor
      · intro h
        cases h
        exact ⟨rfl, hkind⟩
      · rintro ⟨heq, -⟩
        cases heq
        rfl
    · rename_i hkind
      constructor
      · intro h
        cases h
      · rintro ⟨heq, hk⟩
        cases heq
        exact absurd hk hkind

theorem meaning_eq_ok_iff {α : Type} {finish : Location} {fault : Fault} {of? : Token → Option α}
    {ts rest : List Token} {a : α} :
    meaning finish fault of? ts = .ok (a, rest) ↔ ∃ t, ts = t :: rest ∧ of? t = some a := by
  cases ts with
  | nil => simp [meaning]
  | cons head tail =>
    rw [meaning]
    split
    · rename_i b hb
      constructor
      · intro h
        cases h
        exact ⟨head, rfl, hb⟩
      · rintro ⟨t, heq, ha⟩
        cases heq
        rw [hb] at ha
        cases ha
        rfl
    · rename_i hnone
      constructor
      · intro h
        cases h
      · rintro ⟨t, heq, ha⟩
        cases heq
        rw [hnone] at ha
        cases ha

namespace Grammar

variable {finish : Location} {ts rest : List Token}

/-! ### Symbols -/

theorem symbolOf?_eq_some_iff {t : Token} {symbol : String} :
    symbolOf? t = some symbol ↔ SymbolPhrase t symbol := by
  constructor
  · intro h
    unfold symbolOf? at h
    split at h
    · rename_i hkind; cases h; exact .word hkind
    · rename_i hkind; cases h; exact .number hkind
    · rename_i hkind; cases h; exact .epsilon hkind
    · cases h
  · intro h
    cases h with
    | word hkind => rw [symbolOf?, hkind]
    | number hkind => rw [symbolOf?, hkind]
    | epsilon hkind => rw [symbolOf?, hkind]

/-- The rule for symbols takes as many as there are: there is no comma behind them. -/
theorem symbols_eq_ok_iff {symbols : List String} :
    Grammar.symbols finish ts = .ok (symbols, rest) ↔
      ∃ used, ts = used ++ rest ∧ SymbolsPhrase used symbols ∧ headKind rest ≠ .comma := by
  constructor
  · intro h
    fun_induction Grammar.symbols finish ts generalizing symbols rest with
    | case1 => cases h
    | case2 => cases h
    | case3 t symbol ht =>
      cases h
      exact ⟨[t], rfl, .last (symbolOf?_eq_some_iff.mp ht), by simp [headKind]⟩
    | case4 t symbol ht comma us hcomma more rest' hrec ih =>
      cases h
      obtain ⟨used, rfl, hused, hend⟩ := ih hrec
      exact ⟨t :: comma :: used, rfl, .more (symbolOf?_eq_some_iff.mp ht) hcomma hused, hend⟩
    | case5 => cases h
    | case6 t symbol ht c us hc =>
      cases h
      exact ⟨[t], rfl, .last (symbolOf?_eq_some_iff.mp ht), hc⟩
  · rintro ⟨used, rfl, hused, hend⟩
    induction hused with
    | last ht =>
      rw [List.singleton_append, Grammar.symbols, symbolOf?_eq_some_iff.mpr ht]
      cases rest with
      | nil => rfl
      | cons c us => exact if_neg hend
    | more ht hcomma _ ih =>
      rw [List.cons_append, List.cons_append, Grammar.symbols, symbolOf?_eq_some_iff.mpr ht]
      simp only [hcomma, if_true, ih]

/-! ### Properties of states -/

theorem boolean_eq_ok_iff {value : Bool} :
    boolean finish ts = .ok (value, rest) ↔ ∃ t, ts = t :: rest ∧ BooleanPhrase t value := by
  rw [boolean, meaning_eq_ok_iff]
  refine exists_congr fun t => and_congr_right fun _ => ?_
  constructor
  · intro h
    unfold booleanOf? at h
    split at h
    · rename_i hkind; cases h; exact .yes hkind
    · rename_i hkind; cases h; exact .no hkind
    · cases h
  · intro h
    cases h with
    | yes hkind => rw [booleanOf?, hkind]
    | no hkind => rw [booleanOf?, hkind]

/-! ### Coordinates -/

/-- A token as a scan gives it: if it is a number, it is a digit with digits and points behind. -/
def Written (t : Token) : Prop :=
  t.kind = .number →
    ∃ c more, t.text = String.ofList (c :: more) ∧ c.isDigit ∧ ∀ d ∈ more, isDigitOrDot d

theorem isDigit_iff_of_isDigitOrDot {c : Char} (h : isDigitOrDot c) : c.isDigit ↔ c ≠ '.' := by
  constructor
  · rintro hdigit rfl
    exact absurd hdigit (by decide)
  · intro hdot
    simpa [isDigitOrDot, hdot] using h

theorem all_isDigit_iff {ds : List Char} (h : ∀ d ∈ ds, isDigitOrDot d) :
    ds.all Char.isDigit ↔ ds.count '.' = 0 := by
  rw [List.all_eq_true, List.count_eq_zero]
  constructor
  · intro hdigits hmem
    exact absurd (hdigits '.' hmem) (by decide)
  · intro hmem d hd
    refine (isDigit_iff_of_isDigitOrDot (h d hd)).mpr ?_
    rintro rfl
    exact hmem hd

/-- Digits that end at a point or at the end of the text, with digits and points behind. -/
theorem splitPoint?_append {whole behind : List Char}
    (hspan : Text.Span (· ≠ '.') whole behind) (hall : ∀ d ∈ whole ++ behind, isDigitOrDot d)
    (hne : whole ≠ []) :
    Decimal.splitPoint? (whole ++ behind) =
      if (whole ++ behind).count '.' ≤ 1 then some (whole, behind.drop 1) else none := by
  have hdot : ∀ d ∈ behind.head?, d = '.' := fun d hd => by simpa using hspan.stop d hd
  have hwhole : whole.count '.' = 0 := by
    rw [List.count_eq_zero]
    intro hmem
    simpa using hspan.all '.' hmem
  have hdigits : Text.Span Char.isDigit whole behind := by
    constructor
    · have hwhole := (all_isDigit_iff fun d hd => hall d (List.mem_append_left _ hd)).mpr hwhole
      exact List.all_eq_true.mp hwhole
    · intro d hd
      rw [hdot d hd]
      decide
  rw [Decimal.splitPoint?, hdigits.takeWhile_eq, hdigits.dropWhile_eq, List.count_append, hwhole]
  cases behind with
  | nil => rfl
  | cons d fraction =>
    obtain rfl := hdot d rfl
    have hfraction := all_isDigit_iff fun d hd =>
      hall d (List.mem_append_right _ (List.mem_cons_of_mem '.' hd))
    have hcount : 0 + ('.' :: fraction).count '.' ≤ 1 ↔ fraction.all Char.isDigit := by
      rw [hfraction, List.count_cons_self]
      omega
    have hnonempty : whole.isEmpty = false := List.isEmpty_eq_false_iff.mpr hne
    simp only [hnonempty, Bool.not_false, Bool.true_or, and_true, true_and, hcount,
      List.drop_succ_cons, List.drop_zero]

/-- Among digits and points there are the digits up to the first point, and what is behind it. -/
theorem splitPoint?_eq {c : Char} {more : List Char} (hc : c.isDigit)
    (hmore : ∀ d ∈ more, isDigitOrDot d) :
    Decimal.splitPoint? (c :: more) =
      if (c :: more).count '.' ≤ 1 then
        some ((c :: more).takeWhile (· ≠ '.'), ((c :: more).dropWhile (· ≠ '.')).drop 1)
      else none := by
  have hall : ∀ d ∈ c :: more, isDigitOrDot d := by
    intro d hd
    rcases List.mem_cons.mp hd with rfl | hd
    · simp [isDigitOrDot, hc]
    · exact hmore d hd
  have hfirst : c ≠ '.' := (isDigit_iff_of_isDigitOrDot (hall c (List.mem_cons_self ..))).mp hc
  have hsplit : (c :: more).takeWhile (· ≠ '.') ++ (c :: more).dropWhile (· ≠ '.') = c :: more :=
    List.takeWhile_append_dropWhile
  have hne : (c :: more).takeWhile (· ≠ '.') ≠ [] := by simp [hfirst]
  have hread := splitPoint?_append (.ofText ..) (by rwa [hsplit]) hne
  rwa [hsplit] at hread

/-- A number has a value if it has at most one point. -/
theorem ofText?_of_written {t : Token} (ht : Written t) (hkind : t.kind = .number) :
    (Decimal.ofText? t.text).map Decimal.toFloat =
      if t.text.toList.count '.' ≤ 1 then some (numberValue t.text) else none := by
  obtain ⟨c, more, htext, hc, hmore⟩ := ht hkind
  rw [Decimal.ofText?, numberValue, htext, String.toList_ofList, splitPoint?_eq hc hmore]
  split <;> rfl

theorem coordinate_eq_ok_iff {x : Float} (hts : ∀ t ∈ ts, Written t) :
    coordinate finish ts = .ok (x, rest) ↔ ∃ t, ts = t :: rest ∧ CoordinatePhrase t x := by
  rw [coordinate, Rule.bind_eq_ok_iff]
  simp only [expect_eq_ok_iff]
  constructor
  · rintro ⟨t, us, ⟨rfl, hkind⟩, h⟩
    have hvalue := ofText?_of_written (hts t (List.mem_cons_self ..)) hkind
    cases hd : Decimal.ofText? t.text with
    | none =>
      rw [hd] at h
      cases h
    | some d =>
      rw [hd] at h hvalue
      rw [Rule.pure_eq_ok_iff] at h
      obtain ⟨rfl, rfl⟩ := h
      split at hvalue
      · rename_i hpoints
        refine ⟨t, rfl, ?_⟩
        rw [Option.map_some, Option.some.injEq] at hvalue
        rw [hvalue]
        exact .number hkind hpoints
      · cases hvalue
  · rintro ⟨t, rfl, hphrase⟩
    cases hphrase with
    | number hkind hpoints =>
      have hvalue := ofText?_of_written (hts t (List.mem_cons_self ..)) hkind
      rw [if_pos hpoints] at hvalue
      obtain ⟨d, hd, hfloat⟩ := Option.map_eq_some_iff.mp hvalue
      refine ⟨t, rest, ⟨rfl, hkind⟩, ?_⟩
      rw [hd, ← hfloat]
      rfl

theorem position_eq_ok_iff {p : Point} (hts : ∀ t ∈ ts, Written t) :
    position finish ts = .ok (p, rest) ↔
      ∃ opened tx comma ty closed, ts = opened :: tx :: comma :: ty :: closed :: rest ∧
        opened.kind = .openParen ∧ CoordinatePhrase tx p.x ∧ comma.kind = .comma ∧
        CoordinatePhrase ty p.y ∧ closed.kind = .closeParen := by
  simp only [position, Rule.bind_eq_ok_iff, Rule.pure_eq_ok_iff, expect_eq_ok_iff]
  constructor
  · rintro ⟨opened, us, ⟨rfl, hopened⟩, x, us, hx, comma, us, ⟨rfl, hcomma⟩, y, us, hy, closed, us,
      ⟨rfl, hclosed⟩, rfl, rfl⟩
    obtain ⟨tx, rfl, htx⟩ := (coordinate_eq_ok_iff (by simp_all)).mp hx
    obtain ⟨ty, rfl, hty⟩ := (coordinate_eq_ok_iff (by simp_all)).mp hy
    exact ⟨opened, tx, comma, ty, closed, rfl, hopened, htx, hcomma, hty, hclosed⟩
  · rintro ⟨opened, tx, comma, ty, closed, rfl, hopened, hx, hcomma, hy, hclosed⟩
    exact ⟨opened, _, ⟨rfl, hopened⟩, p.x, _,
      (coordinate_eq_ok_iff (by simp_all)).mpr ⟨tx, rfl, hx⟩, comma, _, ⟨rfl, hcomma⟩, p.y, _,
      (coordinate_eq_ok_iff (by simp_all)).mpr ⟨ty, rfl, hy⟩, closed, _, ⟨rfl, hclosed⟩, rfl, rfl⟩

/-! ### Properties of states -/

theorem property_eq_ok_iff {p : Property} (hts : ∀ t ∈ ts, Written t) :
    property finish ts = .ok (p, rest) ↔ ∃ used, ts = used ++ rest ∧ PropertyPhrase used p := by
  simp only [property, Rule.bind_eq_ok_iff, expect_eq_ok_iff]
  constructor
  · rintro ⟨name, us, ⟨rfl, hname⟩, colon, us, ⟨rfl, hcolon⟩, h⟩
    generalize hrule : propertyValue finish name = r at h
    unfold propertyValue at hrule
    split at hrule <;> subst hrule
    · rename_i htext
      obtain ⟨value, hvalue, rfl⟩ := Rule.map_eq_ok_iff.mp h
      obtain ⟨t, rfl, ht⟩ := boolean_eq_ok_iff.mp hvalue
      exact ⟨[name, colon, t], rfl, .initial hname htext hcolon ht⟩
    · rename_i htext
      obtain ⟨value, hvalue, rfl⟩ := Rule.map_eq_ok_iff.mp h
      obtain ⟨t, rfl, ht⟩ := boolean_eq_ok_iff.mp hvalue
      exact ⟨[name, colon, t], rfl, .accepting hname htext hcolon ht⟩
    · rename_i htext
      obtain ⟨value, hvalue, rfl⟩ := Rule.map_eq_ok_iff.mp h
      obtain ⟨opened, tx, comma, ty, closed, rfl, hopened, hx, hcomma, hy, hclosed⟩ :=
        (position_eq_ok_iff (by simp_all)).mp hvalue
      exact ⟨[name, colon, opened, tx, comma, ty, closed], rfl,
        .position hname htext hcolon hopened hx hcomma hy hclosed⟩
    · rename_i htext
      obtain ⟨t, hvalue, rfl⟩ := Rule.map_eq_ok_iff.mp h
      obtain ⟨rfl, ht⟩ := expect_eq_ok_iff.mp hvalue
      exact ⟨[name, colon, t], rfl, .label hname htext hcolon ht⟩
    · cases h
  · rintro ⟨used, rfl, hphrase⟩
    cases hphrase with
    | initial hname htext hcolon ht =>
      refine ⟨_, _, ⟨rfl, hname⟩, _, _, ⟨rfl, hcolon⟩, ?_⟩
      rw [propertyValue, htext]
      exact Rule.map_eq_ok_iff.mpr ⟨_, boolean_eq_ok_iff.mpr ⟨_, rfl, ht⟩, rfl⟩
    | accepting hname htext hcolon ht =>
      refine ⟨_, _, ⟨rfl, hname⟩, _, _, ⟨rfl, hcolon⟩, ?_⟩
      rw [propertyValue, htext]
      exact Rule.map_eq_ok_iff.mpr ⟨_, boolean_eq_ok_iff.mpr ⟨_, rfl, ht⟩, rfl⟩
    | position hname htext hcolon hopened hx hcomma hy hclosed =>
      refine ⟨_, _, ⟨rfl, hname⟩, _, _, ⟨rfl, hcolon⟩, ?_⟩
      rw [propertyValue, htext]
      exact Rule.map_eq_ok_iff.mpr ⟨_, (position_eq_ok_iff (by simp_all)).mpr
        ⟨_, _, _, _, _, rfl, hopened, hx, hcomma, hy, hclosed⟩, rfl⟩
    | label hname htext hcolon ht =>
      refine ⟨_, _, ⟨rfl, hname⟩, _, _, ⟨rfl, hcolon⟩, ?_⟩
      rw [propertyValue, htext]
      exact Rule.map_eq_ok_iff.mpr ⟨_, expect_eq_ok_iff.mpr ⟨rfl, ht⟩, rfl⟩

end Grammar

end FiniteAutomata.Document
