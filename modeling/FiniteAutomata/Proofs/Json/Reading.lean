import FiniteAutomata.Proofs.Json.Numeral

/-!
Every JSON value that is written is read as it is. `Json.reading` says for a value how a reader of
its text sees it, and `value_compact` that the reader finds just this at the head of a text,
whatever follows it.
-/
namespace FiniteAutomata.Json

/-! ### Strings -/

/-- Four digits of which the last two write a number below 32. -/
theorem fourHex_control {n : Nat} (hn : n < 32) (cs : List Char) :
    fourHex ('0' :: '0' :: Nat.digitChar (n / 16) :: Nat.digitChar (n % 16) :: cs) = .ok n := by
  interval_cases n <;> rfl

theorem escaped_control {n : Nat} (hn : n < 32) (cs : List Char) :
    escaped ('u' :: '0' :: '0' :: Nat.digitChar (n / 16) :: Nat.digitChar (n % 16) :: cs) =
      .ok (some (Char.ofNat n), 5) := by
  have htrailing : isTrailing n = false := by
    simp only [isTrailing, Bool.and_eq_false_iff, decide_eq_false_iff_not]
    omega
  have hleading : isLeading n = false := by
    simp only [isLeading, Bool.and_eq_false_iff, decide_eq_false_iff_not]
    omega
  simp only [escaped, codeUnit, fourHex_control hn, bind, Except.bind, htrailing, hleading,
    Bool.false_eq_true, if_false, Except.map]

/-- A character that is written in a string is the unit that is read. -/
theorem unquote_escape (c : Char) (cs : List Char) :
    unquote (escape c ++ cs) = (unquote cs).push (some c) := by
  unfold escape
  split
  case h_8 hquote hslash _ _ _ _ _ =>
    split
    · rename_i hcontrol
      have hchar : Char.ofNat c.toNat = c := Char.ofNat_toNat c
      simp only [List.cons_append, List.nil_append]
      rw [unquote, if_neg (by decide), if_pos rfl, escaped_control hcontrol, hchar]
      rfl
    · rename_i hplain
      rw [List.singleton_append, unquote, if_neg hquote, if_neg hslash, if_neg hplain]
  all_goals
    simp only [List.cons_append, List.nil_append]
    rw [unquote, if_neg (by decide), if_pos rfl]
    rfl

theorem unquote_quoted (s : List Char) (rest : List Char) :
    unquote (s.flatMap escape ++ '"' :: rest) = ⟨s.map some, none, rest⟩ := by
  induction s with
  | nil =>
    rw [List.flatMap_nil, List.nil_append, unquote, if_pos rfl]
    rfl
  | cons c cs ih =>
    rw [List.flatMap_cons, List.append_assoc, unquote_escape, ih]
    rfl

/-! ### Readings -/

mutual

/-- How the reader sees a value that is written out. -/
def reading : Json → Reading
  | .null => .null
  | .bool value => .bool value
  | .natural value => .number ⟨false, Nat.toDigits 10 value, [], none⟩
  | .number value => (Reading.ofChars (numberText value)).1
  | .string value => .string (value.toList.map some)
  | .list vs => .list (readings vs)
  | .object fields => .object (fieldReadings fields)

def readings : List Json → Elements
  | [] => .close
  | v :: vs => .more (reading v) (readings vs)

def fieldReadings : List (String × Json) → Fields
  | [] => .close
  | (key, v) :: fields => .more (key.toList.map some) (reading v) (fieldReadings fields)

end

/-! ### Values without parts -/

theorem skipBlanks_cons {c : Char} (hc : isBlank c = false) (cs : List Char) :
    skipBlanks (c :: cs) = c :: cs := by
  rw [skipBlanks, List.dropWhile_cons, hc]
  rfl

theorem value_scalar {c : Char} (hc : isBlank c = false) (hlist : c ≠ '[') (hobject : c ≠ '{')
    (n : Nat) (cs : List Char) : Reading.value (n + 1) (c :: cs) = Reading.scalar c cs := by
  rw [Reading.value, skipBlanks_cons hc]
  simp only [hlist, hobject, if_false]

theorem ne_of_isDigit {c d : Char} (hc : c.isDigit) (hd : d.isDigit = false) : c ≠ d := by
  rintro rfl
  rw [hc] at hd
  cases hd

theorem isBlank_of_isDigit {c : Char} (hc : c.isDigit) : isBlank c = false := by
  simp [isBlank, ne_of_isDigit hc]

/-- Without its sign a number begins with a digit. -/
theorem Numeral.Proper.exists_body_eq_cons {numeral : Numeral} (h : numeral.Proper) :
    ∃ d more, numeral.body = d :: more ∧ d.isDigit := by
  obtain ⟨d, ds, hwhole, hd⟩ := h.whole_digits.exists_cons
  exact ⟨d, _, by rw [body, hwhole, List.cons_append], hd⟩

theorem value_numeral {numeral : Numeral} (hnumeral : numeral.Proper) {rest : List Char}
    (hrest : Ends rest) (n : Nat) :
    Reading.value (n + 1)
        ((if numeral.negative then '-' :: numeral.body else numeral.body) ++ rest) =
      (.number numeral, rest) := by
  have hread := hnumeral.numeral_eq hrest
  cases hnegative : numeral.negative with
  | true =>
    rw [hnegative] at hread
    rw [if_pos rfl, List.cons_append, value_scalar rfl (by decide) (by decide)]
    simp [Reading.scalar, hread, Except.map, Reading.orBroken]
  | false =>
    rw [hnegative] at hread
    obtain ⟨d, more, hbody, hd⟩ := hnumeral.exists_body_eq_cons
    rw [hbody, List.cons_append] at hread
    rw [if_neg (by decide), hbody, List.cons_append,
      value_scalar (isBlank_of_isDigit hd) (ne_of_isDigit hd rfl) (ne_of_isDigit hd rfl),
      Reading.scalar, if_neg (ne_of_isDigit hd rfl), if_neg (ne_of_isDigit hd rfl), if_pos hd,
      hread]
    rfl

theorem ends_nil : Ends [] := fun _ hc => nomatch hc

theorem exists_numberText {x : Float} (hx : x.isFinite) :
    ∃ numeral : Numeral, numeral.Proper ∧
      numberText x = if numeral.negative then '-' :: numeral.body else numeral.body := by
  obtain ⟨numeral, hproper, hnegative, htext⟩ :=
    exists_layout_text numberLayout (Decimal.ofFloat x)
  refine ⟨numeral, hproper, ?_⟩
  rw [numberText, if_pos hx, htext, hnegative]

theorem value_numberText (x : Float) {rest : List Char} (hrest : Ends rest) (n : Nat) :
    Reading.value (n + 1) (numberText x ++ rest) = (reading (.number x), rest) := by
  by_cases hx : x.isFinite
  · obtain ⟨numeral, hproper, htext⟩ := exists_numberText hx
    have hreading : reading (.number x) = .number numeral := by
      have halone := value_numeral hproper ends_nil (3 * (numberText x).length)
      rw [← htext, List.append_nil] at halone
      rw [reading, Reading.ofChars, halone]
    rw [hreading, htext]
    exact value_numeral hproper hrest n
  · have hnull : numberText x = "null".toList := if_neg hx
    rw [reading, hnull]
    rfl

theorem exists_numberText_eq_cons (x : Float) :
    ∃ c cs, numberText x = c :: cs ∧ isBlank c = false ∧ c ≠ ']' := by
  by_cases hx : x.isFinite
  · obtain ⟨numeral, hproper, htext⟩ := exists_numberText hx
    rw [htext]
    split
    · exact ⟨'-', numeral.body, rfl, rfl, by decide⟩
    · obtain ⟨d, more, hbody, hd⟩ := hproper.exists_body_eq_cons
      exact ⟨d, more, hbody, isBlank_of_isDigit hd, ne_of_isDigit hd rfl⟩
  · exact ⟨'n', ['u', 'l', 'l'], if_neg hx, rfl, by decide⟩

theorem value_toDigits (value : Nat) {rest : List Char} (hrest : Ends rest) (n : Nat) :
    Reading.value (n + 1) (Nat.toDigits 10 value ++ rest) = (reading (.natural value), rest) := by
  have hproper : Numeral.Proper ⟨false, Nat.toDigits 10 value, [], none⟩ := by
    refine ⟨digits_toDigits value, ?_, by simp⟩
    intro hzero
    have hvalue : value = 0 := by
      by_contra hne
      exact Decimal.head?_toDigits_ne hne hzero
    rw [hvalue]
    decide
  have hread := value_numeral hproper hrest n
  rw [reading]
  simpa [Numeral.body, Numeral.fractionText, Numeral.powerText] using hread

/-! ### All values -/

/-- A value begins with a character that is neither blank nor a closing bracket. -/
theorem exists_compact_eq_cons (v : Json) :
    ∃ c cs, v.compact = c :: cs ∧ isBlank c = false ∧ c ≠ ']' := by
  cases v with
  | null => exact ⟨_, _, by rw [compact]; rfl, rfl, by decide⟩
  | bool value => cases value <;> exact ⟨_, _, by rw [compact]; rfl, rfl, by decide⟩
  | natural value =>
    rw [compact]
    obtain ⟨d, ds, hdigits, hd⟩ := (digits_toDigits value).exists_cons
    exact ⟨d, ds, hdigits, isBlank_of_isDigit hd, ne_of_isDigit hd rfl⟩
  | number value =>
    rw [compact]
    exact exists_numberText_eq_cons value
  | string value => exact ⟨_, _, by rw [compact, quoted]; rfl, rfl, by decide⟩
  | list vs => cases vs <;> exact ⟨_, _, by rw [compact], rfl, by decide⟩
  | object fields =>
    cases fields with
    | nil => exact ⟨_, _, by rw [compact], rfl, by decide⟩
    | cons field fields => exact ⟨_, _, by rw [compact], rfl, by decide⟩

theorem ends_compactElements (vs : List Json) (rest : List Char) :
    Ends (compactElements vs ++ rest) := by
  intro c hc
  cases vs with
  | nil => rw [compactElements] at hc; cases hc; decide
  | cons v vs => rw [compactElements] at hc; cases hc; decide

theorem ends_compactFields (fields : List (String × Json)) (rest : List Char) :
    Ends (compactFields fields ++ rest) := by
  intro c hc
  cases fields with
  | nil => rw [compactFields] at hc; cases hc; decide
  | cons field fields => rw [compactFields] at hc; cases hc; decide

/-- An element that is read as it is, before others that are. -/
theorem element_compact {v : Json} {vs : List Json} {n : Nat} {rest : List Char}
    (hv : ∀ rest, Ends rest → Reading.value n (v.compact ++ rest) = (v.reading, rest))
    (hvs : Reading.moreElements n (compactElements vs ++ rest) = (readings vs, rest)) :
    Reading.element (n + 1) (v.compact ++ compactElements vs ++ rest) =
      (readings (v :: vs), rest) := by
  rw [List.append_assoc, Reading.element, hv _ (ends_compactElements vs rest)]
  simp only [hvs]
  rw [readings]

theorem field_compact {key : String} {v : Json} {fields : List (String × Json)} {n : Nat}
    {rest : List Char}
    (hv : ∀ rest, Ends rest → Reading.value n (v.compact ++ rest) = (v.reading, rest))
    (hfields : Reading.moreFields n (compactFields fields ++ rest) =
      (fieldReadings fields, rest)) :
    Reading.field (n + 1) (quoted key ++ ':' :: (v.compact ++ compactFields fields) ++ rest) =
      (fieldReadings ((key, v) :: fields), rest) := by
  have hkey : quoted key ++ ':' :: (v.compact ++ compactFields fields) ++ rest =
      '"' :: (key.toList.flatMap escape ++
        '"' :: ':' :: (v.compact ++ (compactFields fields ++ rest))) := by
    simp [quoted]
  rw [hkey, Reading.field, skipBlanks_cons rfl]
  simp only [if_true, unquote_quoted, skipBlanks_cons (show isBlank ':' = false from rfl),
    hv _ (ends_compactFields fields rest), hfields]
  rw [fieldReadings]

section Brackets

variable {key : String} {v : Json} {n : Nat} {rest : List Char}

/-- A list is read like its first element with the others behind it, as no element begins with the
bracket that closes the list. -/
theorem value_list_of_element {vs : List Json} {elements : Elements}
    (h : Reading.element n (v.compact ++ compactElements vs ++ rest) = (elements, rest)) :
    Reading.value (n + 2) (compact (.list (v :: vs)) ++ rest) = (.list elements, rest) := by
  obtain ⟨c, cs, hcons, hblank, hbracket⟩ := exists_compact_eq_cons v
  rw [compact, List.cons_append, Reading.value, skipBlanks_cons rfl]
  rw [hcons, List.cons_append, List.cons_append] at h ⊢
  simp only [if_true, Reading.elements, skipBlanks_cons hblank, hbracket, if_false, h]

theorem moreElements_of_element {vs : List Json} {elements : Elements}
    (h : Reading.element n (v.compact ++ compactElements vs ++ rest) = (elements, rest)) :
    Reading.moreElements (n + 1) (compactElements (v :: vs) ++ rest) = (elements, rest) := by
  obtain ⟨c, cs, hcons, hblank, hbracket⟩ := exists_compact_eq_cons v
  rw [compactElements, List.cons_append, Reading.moreElements, skipBlanks_cons rfl]
  rw [hcons, List.cons_append, List.cons_append] at h ⊢
  simp only [Char.reduceEq, if_true, if_false, skipBlanks_cons hblank, List.head?_cons,
    Option.some.injEq, hbracket, h]

theorem value_object_of_field {fields : List (String × Json)} {found : Fields}
    (h : Reading.field n (quoted key ++ ':' :: (v.compact ++ compactFields fields) ++ rest) =
      (found, rest)) :
    Reading.value (n + 2) (compact (.object ((key, v) :: fields)) ++ rest) =
      (.object found, rest) := by
  rw [compact, List.cons_append, Reading.value, skipBlanks_cons rfl]
  rw [quoted, List.cons_append, List.cons_append, List.cons_append] at h ⊢
  simp only [Char.reduceEq, if_true, if_false, Reading.fields,
    skipBlanks_cons (show isBlank '"' = false from rfl), h]

theorem moreFields_of_field {fields : List (String × Json)} {found : Fields}
    (h : Reading.field n (quoted key ++ ':' :: (v.compact ++ compactFields fields) ++ rest) =
      (found, rest)) :
    Reading.moreFields (n + 1) (compactFields ((key, v) :: fields) ++ rest) = (found, rest) := by
  rw [compactFields, List.cons_append, Reading.moreFields, skipBlanks_cons rfl]
  simp only [Char.reduceEq, if_true, if_false, h]

end Brackets

mutual

/-- A value that is written out is read as it is, whatever follows it. Three steps for each
character are enough. -/
theorem value_compact (v : Json) (n : Nat) (rest : List Char) (hn : 3 * v.compact.length ≤ n)
    (hrest : Ends rest) : Reading.value n (v.compact ++ rest) = (v.reading, rest) := by
  obtain ⟨m, rfl⟩ : ∃ m, n = m + 1 := by
    obtain ⟨c, cs, hcons, -⟩ := exists_compact_eq_cons v
    rw [hcons, List.length_cons] at hn
    exact ⟨n - 1, by omega⟩
  match v with
  | .null => rfl
  | .bool true => rfl
  | .bool false => rfl
  | .natural value =>
    rw [compact]
    exact value_toDigits value hrest m
  | .number value =>
    rw [compact]
    exact value_numberText value hrest m
  | .string value =>
    rw [compact, quoted, List.append_assoc, List.cons_append,
      value_scalar rfl (by decide) (by decide), Reading.scalar, if_pos rfl, List.singleton_append,
      unquote_quoted]
    rfl
  | .list [] =>
    rw [compact] at hn
    obtain ⟨k, rfl⟩ : ∃ k, m = k + 1 := ⟨m - 1, by simp at hn; omega⟩
    rfl
  | .list (v :: vs) =>
    rw [compact] at hn
    simp only [List.length_cons, List.length_append] at hn
    obtain ⟨k, rfl⟩ : ∃ k, m = k + 2 := ⟨m - 2, by omega⟩
    have helement := element_compact
      (fun rest hrest => value_compact v k rest (by omega) hrest)
      (moreElements_compact vs k rest (by omega))
    rw [reading]
    exact value_list_of_element helement
  | .object [] =>
    rw [compact] at hn
    obtain ⟨k, rfl⟩ : ∃ k, m = k + 1 := ⟨m - 1, by simp at hn; omega⟩
    rfl
  | .object ((key, v) :: fields) =>
    rw [compact] at hn
    simp only [List.length_cons, List.length_append] at hn
    obtain ⟨k, rfl⟩ : ∃ k, m = k + 2 := ⟨m - 2, by omega⟩
    have hfield := @field_compact key v fields k rest
      (fun rest hrest => value_compact v k rest (by omega) hrest)
      (moreFields_compact fields k rest (by omega))
    rw [reading]
    exact value_object_of_field hfield

theorem moreElements_compact (vs : List Json) (n : Nat) (rest : List Char)
    (hn : 3 * (compactElements vs).length ≤ n) :
    Reading.moreElements n (compactElements vs ++ rest) = (readings vs, rest) := by
  match vs with
  | [] =>
    rw [compactElements] at hn
    obtain ⟨k, rfl⟩ : ∃ k, n = k + 1 := ⟨n - 1, by simp at hn; omega⟩
    rfl
  | v :: vs =>
    rw [compactElements] at hn
    simp only [List.length_cons, List.length_append] at hn
    obtain ⟨k, rfl⟩ : ∃ k, n = k + 2 := ⟨n - 2, by omega⟩
    have helement := element_compact
      (fun rest hrest => value_compact v k rest (by omega) hrest)
      (moreElements_compact vs k rest (by omega))
    exact moreElements_of_element helement

theorem moreFields_compact (fields : List (String × Json)) (n : Nat) (rest : List Char)
    (hn : 3 * (compactFields fields).length ≤ n) :
    Reading.moreFields n (compactFields fields ++ rest) = (fieldReadings fields, rest) := by
  match fields with
  | [] =>
    rw [compactFields] at hn
    obtain ⟨k, rfl⟩ : ∃ k, n = k + 1 := ⟨n - 1, by simp at hn; omega⟩
    rfl
  | (key, v) :: fields =>
    rw [compactFields] at hn
    simp only [List.length_cons, List.length_append] at hn
    obtain ⟨k, rfl⟩ : ∃ k, n = k + 2 := ⟨n - 2, by omega⟩
    have hfield := @field_compact key v fields k rest
      (fun rest hrest => value_compact v k rest (by omega) hrest)
      (moreFields_compact fields k rest (by omega))
    exact moreFields_of_field hfield

end

/-- A whole text that writes a value is read as this value, with nothing left. -/
theorem ofChars_compact (v : Json) : Reading.ofChars v.compact = (v.reading, []) := by
  have hread := value_compact v (3 * v.compact.length + 1) [] (by omega) ends_nil
  rwa [List.append_nil] at hread

end FiniteAutomata.Json
