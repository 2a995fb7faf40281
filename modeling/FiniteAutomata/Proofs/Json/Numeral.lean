import FiniteAutomata.Json.Basic
import FiniteAutomata.Json.Reading
import FiniteAutomata.Proofs.Text.Span
import Mathlib.Tactic.IntervalCases

/-!
Numbers written and read. Every decimal is written as a number of JSON, whatever its size, and the
reader takes exactly this number from the head of a text. What it finds are the digits that were
written; a natural number in them is the one that was written.
-/
namespace FiniteAutomata

/-! ### Digits -/

namespace Decimal

theorem natural_toDigits (n : Nat) : natural (Nat.toDigits 10 n) = n := by
  have hread (ds : List Char) : natural ds = Nat.ofDigitChars 10 ds 0 := by
    rw [Nat.ofDigitChars_eq_foldl]
    rfl
  rw [hread, Nat.ofDigitChars_ten_toDigits]

theorem isDigit_of_mem_toDigits {n : Nat} {c : Char} (hc : c ∈ Nat.toDigits 10 n) : c.isDigit :=
  Nat.isDigit_of_mem_toDigits (by decide) (by decide) hc

/-- A number that is not zero does not begin with a zero. -/
theorem head?_toDigits_ne {n : Nat} (hn : n ≠ 0) : (Nat.toDigits 10 n).head? ≠ some '0' := by
  induction n using Nat.strong_induction_on with
  | _ n ih =>
  by_cases hsmall : n < 10
  · rw [Nat.toDigits_of_lt_base hsmall]
    interval_cases n <;> simp_all [Nat.digitChar]
  · have hbig : 10 ≤ n := by omega
    have hlead := ih (n / 10) (by omega) (by omega)
    rw [Nat.toDigits_of_base_le (by decide) hbig]
    cases hds : Nat.toDigits 10 (n / 10) with
    | nil => exact absurd hds Nat.toDigits_ne_nil
    | cons d ds =>
      rw [hds] at hlead
      exact hlead

end Decimal

namespace Json

/-- Digits, of which there is at least one. -/
structure Digits (ds : List Char) : Prop where
  ne_nil : ds ≠ []
  all : ∀ c ∈ ds, c.isDigit

/-- A text with which no number goes on. -/
def Ends (rest : List Char) : Prop :=
  ∀ c ∈ rest.head?, ¬c.isDigit ∧ c ≠ '.' ∧ c ≠ 'e' ∧ c ≠ 'E'

theorem digits_toDigits (n : Nat) : Digits (Nat.toDigits 10 n) :=
  ⟨Nat.toDigits_ne_nil, fun _ hc => Decimal.isDigit_of_mem_toDigits hc⟩

theorem digits_zero : Digits ['0'] :=
  ⟨List.cons_ne_nil _ _, List.forall_mem_singleton.mpr rfl⟩

theorem isDigit_of_mem_replicate {k : Nat} {c : Char} (hc : c ∈ List.replicate k '0') :
    c.isDigit := by
  rw [List.eq_of_mem_replicate hc]
  decide

theorem digits_append {ds es : List Char} (hds : ∀ c ∈ ds, c.isDigit) (hes : ∀ c ∈ es, c.isDigit)
    (hne : ds ++ es ≠ []) : Digits (ds ++ es) :=
  ⟨hne, fun c hc => (List.mem_append.mp hc).elim (hds c) (hes c)⟩

theorem Digits.exists_cons {ds : List Char} (h : Digits ds) :
    ∃ d more, ds = d :: more ∧ d.isDigit := by
  obtain ⟨d, more, rfl⟩ := List.exists_cons_of_ne_nil h.ne_nil
  exact ⟨d, more, rfl, h.all d (List.mem_cons_self ..)⟩

theorem Digits.digits_eq {ds rest : List Char} (h : Digits ds)
    (hrest : ∀ c ∈ rest.head?, ¬c.isDigit) : Json.digits (ds ++ rest) = .ok (ds, rest) := by
  have hspan : Text.Span Char.isDigit ds rest :=
    ⟨h.all, fun c hc => by simpa using hrest c hc⟩
  rw [Json.digits, hspan.takeWhile_eq, hspan.dropWhile_eq]
  simp [h.ne_nil]

/-! ### Numerals -/

namespace Numeral

/-- What a number has to look like: it begins with a zero only if that is its one digit before the
point. -/
structure Proper (n : Numeral) : Prop where
  whole_digits : Digits n.whole
  whole_zero : n.whole.head? = some '0' → n.whole.length ≤ 1
  fraction_digits : ∀ c ∈ n.fraction, c.isDigit

def powerText : Option Int → List Char
  | none => []
  | some p => 'e' :: (if p < 0 then '-' else '+') :: Nat.toDigits 10 p.natAbs

def fractionText : List Char → List Char
  | [] => []
  | d :: ds => '.' :: d :: ds

/-- A number as it is written, without its sign. -/
def body (n : Numeral) : List Char := n.whole ++ (fractionText n.fraction ++ powerText n.power)

end Numeral

open Numeral

theorem power_eq {rest : List Char} (hrest : Ends rest) (p : Option Int) :
    power (powerText p ++ rest) = .ok (p, rest) := by
  cases p with
  | none =>
    cases rest with
    | nil => rfl
    | cons c cs =>
      obtain ⟨-, -, hlower, hupper⟩ := hrest c rfl
      simp [powerText, power, hlower, hupper]
  | some p =>
    have hdigits : digits (Nat.toDigits 10 p.natAbs ++ rest) = .ok (_, rest) :=
      (digits_toDigits p.natAbs).digits_eq fun c hc => (hrest c hc).1
    by_cases hp : p < 0
    · have habs : -(p.natAbs : Int) = p := by omega
      simp only [powerText, hp, if_true, List.cons_append, power, true_or, hdigits, Except.map,
        Decimal.natural_toDigits, habs]
    · have habs : (p.natAbs : Int) = p := by omega
      simp only [powerText, hp, if_false, if_true, List.cons_append, power, true_or, hdigits,
        Except.map, Decimal.natural_toDigits, habs]

theorem fraction_eq {ds rest : List Char} (hds : ∀ c ∈ ds, c.isDigit)
    (hrest : ∀ c ∈ rest.head?, ¬c.isDigit ∧ c ≠ '.') :
    fraction (fractionText ds ++ rest) = .ok (ds, rest) := by
  cases ds with
  | nil =>
    have hdot (cs : List Char) : rest ≠ '.' :: cs := by
      rintro rfl
      exact (hrest '.' rfl).2 rfl
    rw [fractionText, List.nil_append]
    unfold fraction
    split
    · rename_i cs
      exact absurd rfl (hdot cs)
    · rfl
  | cons d ds =>
    have hdigits : Digits (d :: ds) := ⟨by simp, hds⟩
    exact hdigits.digits_eq fun c hc => (hrest c hc).1

/-- Behind the digits of a number stands neither another one nor a point, but a power of ten or
what follows the number. -/
theorem head?_powerText {rest : List Char} (hrest : Ends rest) (p : Option Int) :
    ∀ c ∈ (powerText p ++ rest).head?, ¬c.isDigit ∧ c ≠ '.' := by
  intro c hc
  cases p with
  | none =>
    obtain ⟨hdigit, hdot, -⟩ := hrest c hc
    exact ⟨hdigit, hdot⟩
  | some p =>
    cases hc
    decide

theorem Numeral.Proper.numeral_eq {n : Numeral} (hn : n.Proper) {rest : List Char}
    (hrest : Ends rest) : numeral n.negative (n.body ++ rest) = .ok (n, rest) := by
  have hpower := head?_powerText hrest n.power
  have hfraction : ∀ c ∈ (fractionText n.fraction ++ (powerText n.power ++ rest)).head?,
      ¬c.isDigit := by
    intro c hc
    cases hds : n.fraction with
    | nil =>
      rw [hds] at hc
      exact (hpower c hc).1
    | cons d ds =>
      rw [hds] at hc
      cases hc
      decide
  have hzero : ¬(n.whole.head? = some '0' ∧ n.whole.length > 1) := by
    rintro ⟨hhead, hlength⟩
    have hshort := hn.whole_zero hhead
    omega
  rw [body, List.append_assoc, List.append_assoc, numeral, hn.whole_digits.digits_eq hfraction]
  simp only [bind, Except.bind, if_neg hzero, fraction_eq hn.fraction_digits hpower,
    power_eq hrest]

/-! ### Decimals written out -/

theorem fractionText_of_ne_nil {ds : List Char} (hds : ds ≠ []) : fractionText ds = '.' :: ds := by
  cases ds with
  | nil => exact absurd rfl hds
  | cons d ds => rfl

section Layout

variable {ds : List Char} (negative : Bool)

/-- Digits with a point among them, which has digits on both sides. -/
theorem exists_body_pointed {whole fraction : List Char} (hwhole : Digits whole)
    (hzero : whole.head? = some '0' → whole.length ≤ 1) (hfraction : Digits fraction) :
    ∃ n : Numeral, n.Proper ∧ n.negative = negative ∧ whole ++ '.' :: fraction = n.body := by
  refine ⟨⟨negative, whole, fraction, none⟩, ⟨hwhole, hzero, hfraction.all⟩, rfl, ?_⟩
  simp only [body, fractionText_of_ne_nil hfraction.ne_nil, powerText, List.append_nil]

theorem exists_body_inPlace (hds : Digits ds) (hzero : ds.head? ≠ some '0') (power : Int) :
    ∃ n : Numeral, n.Proper ∧ n.negative = negative ∧ Decimal.inPlace ds power = n.body := by
  rw [Decimal.inPlace]
  split
  · have hfraction : Digits (List.replicate (-power - 1).toNat '0' ++ ds) :=
      digits_append (fun _ hc => isDigit_of_mem_replicate hc) hds.all (by simp [hds.ne_nil])
    exact exists_body_pointed negative digits_zero (fun _ => Nat.le_refl 1) hfraction
  · let places := power.toNat + 1
    let whole := ds.take places ++ List.replicate (places - (ds.take places).length) '0'
    let fraction := if (ds.drop places).isEmpty then ['0'] else ds.drop places
    have hwhole : Digits whole :=
      digits_append (fun c hc => hds.all c (List.mem_of_mem_take hc))
        (fun _ hc => isDigit_of_mem_replicate hc) (by simp [places, hds.ne_nil])
    have hlead : whole.head? = ds.head? := by
      obtain ⟨d, more, rfl, -⟩ := hds.exists_cons
      rfl
    have hfraction : Digits fraction := by
      simp only [fraction]
      split
      · exact digits_zero
      · rename_i hrest
        exact ⟨by simpa using hrest, fun c hc => hds.all c (List.mem_of_mem_drop hc)⟩
    have hnozero : whole.head? = some '0' → whole.length ≤ 1 := fun hfirst =>
      absurd (hlead.symm.trans hfirst) hzero
    exact exists_body_pointed negative hwhole hnozero hfraction

theorem exists_body_scientific (hds : Digits ds) (power : Int) :
    ∃ n : Numeral, n.Proper ∧ n.negative = negative ∧ Decimal.scientific ds power = n.body := by
  obtain ⟨d, ds, rfl, hd⟩ := hds.exists_cons
  have hfirst : Digits [d] := ⟨List.cons_ne_nil _ _, List.forall_mem_singleton.mpr hd⟩
  have hrest : ∀ c ∈ ds, c.isDigit := fun c hc => hds.all c (List.mem_cons_of_mem _ hc)
  refine ⟨⟨negative, [d], ds, some power⟩, ⟨hfirst, fun _ => Nat.le_refl 1, hrest⟩, rfl, ?_⟩
  have hfraction : (if ds.isEmpty then [] else '.' :: ds) = fractionText ds := by
    cases ds <;> rfl
  simp only [Decimal.scientific, List.drop_succ_cons, List.drop_zero, List.take_succ_cons,
    List.take_zero, hfraction, body, powerText, List.append_assoc]
  rfl

/-- Whatever the layout, a decimal is written as a number of JSON. -/
theorem exists_layout_text (l : Decimal.Layout) (d : Decimal) :
    ∃ n : Numeral, n.Proper ∧ n.negative = d.negative ∧
      (l.text d).toList = if d.negative then '-' :: n.body else n.body := by
  let digits := Nat.toDigits 10 d.mantissa
  let power := d.exponent + digits.length - 1
  have hbody : ∃ n : Numeral, n.Proper ∧ n.negative = d.negative ∧
      (if d.mantissa = 0 then ['0', '.', '0']
        else if l.least ≤ power ∧ power ≤ l.greatest then Decimal.inPlace digits power
        else Decimal.scientific digits power) = n.body := by
    have hdigits : Digits digits := digits_toDigits d.mantissa
    split
    · exact exists_body_pointed d.negative digits_zero (fun _ => Nat.le_refl 1) digits_zero
    · rename_i hmantissa
      split
      · exact exists_body_inPlace d.negative hdigits (Decimal.head?_toDigits_ne hmantissa) power
      · exact exists_body_scientific d.negative hdigits power
  obtain ⟨n, hn, hnegative, htext⟩ := hbody
  refine ⟨n, hn, hnegative, ?_⟩
  rw [Decimal.Layout.text, String.toList_ofList, htext]

end Layout

end Json

end FiniteAutomata
