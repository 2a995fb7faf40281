import FiniteAutomata.Json.Decoder
import FiniteAutomata.Proofs.Graph.Listing
import FiniteAutomata.Proofs.Json.Reading

/-!
What decoders take from values that were written out. Texts, words and natural numbers come back as
they were, and so do lists of what comes back. A record that has its fields in order is the same as
an object and as a list, so an object is decoded one field after the other.
-/
namespace FiniteAutomata.Json

/-- A double that is written out as a number that is read as this double. -/
def ReadsBack (x : Float) : Prop := Decoder.double (Reading.ofChars (numberText x)).1 = .ok x

instance (x : Float) : Decidable (ReadsBack x) := inferInstanceAs (Decidable (_ = _))

namespace Decoder

/-! ### Values without parts -/

theorem units_text (s : String) : Units.text (s.toList.map some) = .ok s := by
  have hchars (cs : List Char) : Units.chars? (cs.map some) = some cs := by
    induction cs with
    | nil => rfl
    | cons c cs ih => rw [List.map_cons, Units.chars?, ih, Option.map_some]
  rw [Units.text, hchars]
  simp only [String.ofList_toList]

theorem text_reading (s : String) : text (reading (.string s)) = .ok s := by
  rw [reading]
  exact units_text s

theorem boolean_reading (b : Bool) : boolean (reading (.bool b)) = .ok b := by
  rw [reading, boolean]

theorem natural_reading {n : Nat} (hn : n < UInt64.size) :
    natural (reading (.natural n)) = .ok n := by
  have hsmall : ¬UInt64.size ≤ n := Nat.not_le.mpr hn
  rw [reading, natural, Numeral.natural?]
  simp [Decimal.natural_toDigits, hsmall]

/-- A double is read back if it is finite. Others are written as no number. -/
theorem double_reading {x : Float} (hx : x.isFinite → ReadsBack x) :
    double (reading (.number x)) = if x.isFinite then .ok x else .error .mismatch := by
  rw [reading]
  split
  · rename_i hfinite
    exact hx hfinite
  · rename_i hinfinite
    have hnull : numberText x = "null".toList := if_neg hinfinite
    rw [hnull]
    rfl

/-! ### Lists -/

theorem list_reading {α : Type} {decode : Decoder α} {toJson : α → Json} {good : α → Bool}
    {fault : Fault} {as : List α}
    (h : ∀ a ∈ as, decode (reading (toJson a)) = if good a then .ok a else .error fault) :
    list decode (reading (.list (as.map toJson))) =
      if as.all good then .ok as else .error fault := by
  rw [reading, list]
  induction as with
  | nil => rfl
  | cons a as ih =>
    have hhead := h a (List.mem_cons_self ..)
    have htail := ih fun b hb => h b (List.mem_cons_of_mem _ hb)
    rw [List.map_cons, readings, elements, hhead, htail, List.all_cons]
    cases good a <;> cases as.all good <;> rfl

theorem list_reading_ok {α : Type} {decode : Decoder α} {toJson : α → Json} {as : List α}
    (h : ∀ a ∈ as, decode (reading (toJson a)) = .ok a) :
    list decode (reading (.list (as.map toJson))) = .ok as := by
  let good (_ : α) : Bool := true
  have hgood : ∀ a ∈ as,
      decode (reading (toJson a)) = if good a then .ok a else .error .mismatch := h
  rw [list_reading hgood, if_pos (List.all_eq_true.mpr fun _ _ => rfl)]

/-! ### Records -/

section Record

variable {δ : Type}

/-- Fields in the order of the members that they belong to are read like a list of their values. -/
theorem readFields_eq {members ms : List (Member δ)} {seen : List String} {draft : δ}
    {fields : List (String × Json)} (hnames : fields.map (·.1) = ms.map (·.name))
    (hnodup : (ms.map (·.name)).Nodup) (hseen : ∀ m ∈ ms, m.name ∉ seen)
    (hfind : ∀ m ∈ ms, members.find? (·.name = m.name) = some m) :
    readFields members seen draft (fieldReadings fields) =
      readInOrder draft ms (readings (fields.map (·.2))) := by
  induction fields generalizing ms seen draft with
  | nil =>
    rw [List.map_nil, fieldReadings, readings, readFields]
    cases ms <;> rfl
  | cons field fields ih =>
    obtain ⟨key, v⟩ := field
    cases ms with
    | nil => cases hnames
    | cons m ms =>
      rw [List.map_cons, List.map_cons, List.cons.injEq] at hnames
      obtain ⟨hkey, hnames⟩ := hnames
      have hkey : key = m.name := hkey
      rw [List.map_cons, List.nodup_cons] at hnodup
      obtain ⟨hnew, hnodup⟩ := hnodup
      rw [List.map_cons, fieldReadings, readings, readFields, readInOrder, units_text]
      simp only [hkey, hfind m (List.mem_cons_self ..), hseen m (List.mem_cons_self ..), if_false]
      cases m.decode v.reading with
      | error fault => rfl
      | ok put =>
        refine ih hnames hnodup ?_ fun u hu => hfind u (List.mem_cons_of_mem _ hu)
        intro u hu hmem
        rcases List.mem_cons.mp hmem with heq | hmem
        · exact hnew (heq ▸ List.mem_map_of_mem hu)
        · exact hseen u (List.mem_cons_of_mem _ hu) hmem

/-- A record with its fields in order is the same as an object and as a list. -/
theorem record_object {α : Type} {members : List (Member δ)} {blank : δ}
    {complete? : δ → Option α} {fields : List (String × Json)}
    (hnames : fields.map (·.1) = members.map (·.name))
    (hnodup : (members.map (·.name)).Nodup) :
    record members blank complete? (reading (.object fields)) =
      record members blank complete? (reading (.list (fields.map (·.2)))) := by
  have hfind : ∀ m ∈ members, members.find? (·.name = m.name) = some m := fun m hm =>
    (Graph.find?_key_eq_some_iff hnodup m.name m).mpr ⟨hm, rfl⟩
  rw [reading, reading, record, record]
  simp only [readFields_eq hnames hnodup (fun _ _ => List.not_mem_nil) hfind]

end Record

end Decoder

end FiniteAutomata.Json
