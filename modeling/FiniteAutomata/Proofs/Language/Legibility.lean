import FiniteAutomata.Proofs.Language.Expression

/-!
Reading expressions back. Where every symbol is one character that no expression uses for itself
(`IsPlain`), an expression gives away its shape by two things: its letters in order, which are those
of the stem and then those of the loops, and the number of its signs, which tells how many loops
there are. So two graphs with one expression have one shape, or else one of them repeats what the
other has behind an empty stem (`expression_legible`).
-/
namespace FiniteAutomata

namespace Shape

/-- The characters that expressions use for themselves. -/
def signs : List Char := ['ε', '∅', '(', ')', '+', '*']

/-- A symbol of one character that is no sign. -/
def IsPlain (symbol : String) : Prop := ∃ c, symbol = String.singleton c ∧ c ∉ signs

theorem isPlain_iff {symbol : String} :
    IsPlain symbol ↔ symbol.toList.length = 1 ∧ symbol.toList.all (· ∉ signs) := by
  constructor
  · rintro ⟨c, rfl, hc⟩
    simpa using hc
  · rintro ⟨hlength, hsigns⟩
    obtain ⟨c, hc⟩ := List.length_eq_one_iff.mp hlength
    rw [hc, List.all_cons, List.all_nil, Bool.and_true, decide_eq_true_eq] at hsigns
    exact ⟨c, String.toList_inj.mp (hc.trans (String.toList_singleton c).symm), hsigns⟩

instance (symbol : String) : Decidable (IsPlain symbol) := decidable_of_iff _ isPlain_iff.symm

/-- The characters of a text that are no signs. -/
def letters (text : String) : List Char := text.toList.filter (· ∉ signs)

def signCount (text : String) : Nat := text.toList.countP (· ∈ signs)

@[simp]
theorem letters_append (a b : String) : letters (a ++ b) = letters a ++ letters b := by
  simp only [letters, String.toList_append, List.filter_append]

@[simp]
theorem signCount_append (a b : String) : signCount (a ++ b) = signCount a + signCount b := by
  simp only [signCount, String.toList_append, List.countP_append]

/-! ### Texts of plain symbols -/

theorem IsPlain.letters_eq {symbol : String} (h : IsPlain symbol) :
    letters symbol = symbol.toList := by
  obtain ⟨c, rfl, hc⟩ := h
  simp [letters, hc]

theorem IsPlain.signCount_eq {symbol : String} (h : IsPlain symbol) : signCount symbol = 0 := by
  obtain ⟨c, rfl, hc⟩ := h
  simp [signCount, hc]

theorem IsPlain.length_eq {symbol : String} (h : IsPlain symbol) : symbol.toList.length = 1 := by
  obtain ⟨c, rfl, -⟩ := h
  rw [String.toList_singleton, List.length_singleton]

section Joined

variable {as bs : List String}

theorem letters_join (h : ∀ a ∈ as, IsPlain a) :
    letters (String.join as) = (String.join as).toList := by
  induction as with
  | nil => rfl
  | cons a as ih =>
    obtain ⟨ha, has⟩ := List.forall_mem_cons.mp h
    rw [String.join_cons, letters_append, ha.letters_eq, ih has, String.toList_append]

theorem signCount_join (h : ∀ a ∈ as, IsPlain a) : signCount (String.join as) = 0 := by
  induction as with
  | nil => rfl
  | cons a as ih =>
    obtain ⟨ha, has⟩ := List.forall_mem_cons.mp h
    rw [String.join_cons, signCount_append, ha.signCount_eq, ih has]

theorem length_join (h : ∀ a ∈ as, IsPlain a) : (String.join as).toList.length = as.length := by
  induction as with
  | nil => rfl
  | cons a as ih =>
    obtain ⟨ha, has⟩ := List.forall_mem_cons.mp h
    rw [String.join_cons, String.toList_append, List.length_append, ha.length_eq, ih has,
      List.length_cons, Nat.add_comm]

/-- Plain symbols can be told apart when they stand together. -/
theorem eq_of_join_eq (ha : ∀ a ∈ as, IsPlain a) (hb : ∀ b ∈ bs, IsPlain b)
    (heq : (String.join as).toList = (String.join bs).toList) : as = bs := by
  induction as generalizing bs with
  | nil =>
    have hlength := congrArg List.length heq
    rw [length_join ha, length_join hb] at hlength
    exact (List.length_eq_zero_iff.mp hlength.symm).symm
  | cons a as ih =>
    cases bs with
    | nil =>
      have hlength := congrArg List.length heq
      rw [length_join ha, length_join hb] at hlength
      cases hlength
    | cons b bs =>
      obtain ⟨ha, has⟩ := List.forall_mem_cons.mp ha
      obtain ⟨hb, hbs⟩ := List.forall_mem_cons.mp hb
      rw [String.join_cons, String.join_cons, String.toList_append, String.toList_append] at heq
      obtain ⟨hhead, htail⟩ := List.append_inj heq (ha.length_eq.trans hb.length_eq.symm)
      rw [String.toList_inj.mp hhead, ih has hbs htail]

/-- The signs between symbols do not show among the letters. -/
theorem letters_intercalate (h : ∀ a ∈ as, IsPlain a) :
    letters ("+".intercalate as) = (String.join as).toList := by
  rw [← letters_join h]
  induction as with
  | nil => rfl
  | cons a as ih =>
    cases as with
    | nil => simp
    | cons b as =>
      have hplus : letters "+" = [] := by decide
      rw [String.intercalate_cons_cons, letters_append, letters_append, hplus, List.append_nil,
        ih fun c hc => h c (List.mem_cons_of_mem _ hc), ← letters_append, ← String.join_cons]

theorem signCount_intercalate (h : ∀ a ∈ as, IsPlain a) :
    signCount ("+".intercalate as) = as.length - 1 := by
  induction as with
  | nil => rfl
  | cons a as ih =>
    obtain ⟨ha, has⟩ := List.forall_mem_cons.mp h
    cases as with
    | nil => simp [ha.signCount_eq]
    | cons b as =>
      have hplus : signCount "+" = 1 := by decide
      rw [String.intercalate_cons_cons, signCount_append, signCount_append, hplus, ih has,
        ha.signCount_eq]
      simp only [List.length_cons]
      omega

end Joined

/-! ### Repetitions -/

variable {symbols loops loops' : OrderedSet String} {stem stem' : String}

theorem letters_repeated (h : ∀ a ∈ symbols, IsPlain a) :
    letters (repeated symbols) = (String.join symbols.toList).toList := by
  have hstar : letters "*" = [] := by decide
  have hopen : letters "(" = [] := by decide
  have hclose : letters ")" = [] := by decide
  rw [repeated, letters_append, hstar, List.append_nil, union]
  split
  · rename_i a hsymbols
    have ha : IsPlain a := h a (OrderedSet.mem_def.mpr (hsymbols ▸ List.mem_singleton_self a))
    rw [hsymbols, ha.letters_eq, String.join_cons, String.join_nil, String.append_empty]
  · rw [letters_append, letters_append, hopen, hclose, List.nil_append, List.append_nil]
    exact letters_intercalate fun a ha => h a (OrderedSet.mem_def.mpr ha)

/-- How many signs `n` loops take: none where there are none, a star for a single one, and for
several also brackets and what stands between them. -/
def loopSigns : Nat → Nat
  | 0 => 0
  | 1 => 1
  | n + 2 => n + 4

theorem loopSigns_injective {m n : Nat} (h : loopSigns m = loopSigns n) : m = n := by
  unfold loopSigns at h
  split at h <;> split at h <;> omega

theorem loopSigns_ne_three (n : Nat) : loopSigns n ≠ 3 := by
  unfold loopSigns
  split <;> omega

theorem signCount_repeated (h : ∀ a ∈ symbols, IsPlain a) (hsome : symbols.toList ≠ []) :
    signCount (repeated symbols) = loopSigns symbols.size := by
  have hstar : signCount "*" = 1 := by decide
  have hopen : signCount "(" = 1 := by decide
  have hclose : signCount ")" = 1 := by decide
  rw [repeated, signCount_append, hstar, union, OrderedSet.size]
  split
  · rename_i a hsymbols
    have ha : IsPlain a := h a (OrderedSet.mem_def.mpr (hsymbols ▸ List.mem_singleton_self a))
    rw [hsymbols, ha.signCount_eq]
    rfl
  · rename_i hseveral
    rw [signCount_append, signCount_append, hopen, hclose,
      signCount_intercalate fun a ha => h a (OrderedSet.mem_def.mpr ha)]
    cases hsymbols : symbols.toList with
    | nil => exact absurd hsymbols hsome
    | cons a as =>
      cases as with
      | nil => exact absurd hsymbols (hseveral a)
      | cons b as =>
        simp only [List.length_cons, loopSigns]
        omega

/-! ### Paths -/

/-- A stem without signs, and plain loops. -/
structure PlainPath (stem : String) (loops : OrderedSet String) : Prop where
  letters_stem : letters stem = stem.toList
  signCount_stem : signCount stem = 0
  loops : ∀ a ∈ loops, IsPlain a

namespace PlainPath

theorem letters_text (h : PlainPath stem loops) :
    letters (path stem loops).text = stem.toList ++ (String.join loops.toList).toList := by
  rw [text]
  split
  · rename_i hnone
    rw [OrderedSet.isEmpty, List.isEmpty_iff] at hnone
    rw [hnone, h.letters_stem]
    simp
  · rw [letters_append, h.letters_stem, letters_repeated h.loops]

theorem signCount_text (h : PlainPath stem loops) :
    signCount (path stem loops).text = loopSigns loops.size := by
  rw [text]
  split
  · rename_i hnone
    rw [OrderedSet.isEmpty, List.isEmpty_iff] at hnone
    rw [h.signCount_stem, OrderedSet.size, hnone]
    rfl
  · rename_i hsome
    rw [OrderedSet.isEmpty, List.isEmpty_iff] at hsome
    rw [signCount_append, h.signCount_stem, signCount_repeated h.loops hsome, Nat.zero_add]

/-- The signs tell how many of the letters are loops. -/
theorem eq_of_text_eq (h : PlainPath stem loops) (h' : PlainPath stem' loops')
    (heq : (path stem loops).text = (path stem' loops').text) :
    stem = stem' ∧ loops = loops' := by
  have hsigns := congrArg signCount heq
  rw [h.signCount_text, h'.signCount_text] at hsigns
  have hsize : loops.toList.length = loops'.toList.length := loopSigns_injective hsigns
  have hletters := congrArg letters heq
  rw [h.letters_text, h'.letters_text] at hletters
  have hlength : (String.join loops.toList).toList.length =
      (String.join loops'.toList).toList.length := by
    rw [length_join h.loops, length_join h'.loops, hsize]
  obtain ⟨hstem, hjoin⟩ := List.append_inj' hletters hlength
  have hloops : loops.toList = loops'.toList := eq_of_join_eq h.loops h'.loops hjoin
  refine ⟨String.toList_inj.mp hstem, OrderedSet.ext fun a => ?_⟩
  rw [OrderedSet.mem_def, OrderedSet.mem_def, hloops]

/-- A path has no text with three signs, and none that is a sign alone. -/
theorem text_ne (h : PlainPath stem loops) {fixed : String}
    (hfixed : (letters fixed = [] ∧ signCount fixed = 1) ∨ signCount fixed = 3) :
    (path stem loops).text ≠ fixed := by
  rintro rfl
  rw [h.letters_text, h.signCount_text] at hfixed
  rcases hfixed with ⟨hletters, hsigns⟩ | hsigns
  · have hone : loops.toList.length = 1 := loopSigns_injective (n := 1) hsigns
    have hlength := congrArg List.length hletters
    rw [List.length_append, length_join h.loops, hone, List.length_nil] at hlength
    omega
  · exact loopSigns_ne_three _ hsigns

end PlainPath

/-! ### Shapes -/

/-- A shape that denotes a set of texts, written with plain symbols. Something is repeated in it
wherever it is a repetition. -/
def Plain : Shape → Prop
  | .empty _ => True
  | .emptyWord => True
  | .star symbols => symbols.toList ≠ [] ∧ ∀ a ∈ symbols, IsPlain a
  | .path stem loops => PlainPath stem loops
  | .description _ _ => False

/-- A repetition as a path whose stem is empty, and every other shape as it is. -/
def unstarred : Shape → Shape
  | .star symbols => .path "" symbols
  | s => s

theorem text_unstarred {s : Shape} (h : s.Plain) : s.unstarred.text = s.text := by
  cases s with
  | star symbols =>
    have hsome : symbols.isEmpty = false := List.isEmpty_eq_false_iff.mpr h.1
    simp [unstarred, text, hsome]
  | _ => rfl

theorem denotes_unstarred (s : Shape) (text : String) :
    s.unstarred.Denotes text ↔ s.Denotes text := by
  cases s with
  | star symbols => simp [unstarred, denotes_path_iff, denotes_star_iff]
  | _ => rfl

/-- A plain shape is a path, but for repetitions, or has one of a few texts. -/
theorem Plain.path_or_fixed {s : Shape} (h : s.Plain) :
    (∃ stem loops, PlainPath stem loops ∧ s.unstarred = .path stem loops) ∨
      ((∃ lack, s = .empty lack) ∨ s = .emptyWord) := by
  cases s with
  | empty lack => exact .inr (.inl ⟨lack, rfl⟩)
  | emptyWord => exact .inr (.inr rfl)
  | star symbols => exact .inl ⟨"", symbols, ⟨rfl, rfl, h.2⟩, rfl⟩
  | path stem loops => exact .inl ⟨stem, loops, h, rfl⟩
  | description => cases h

theorem fixed_text {s : Shape} (h : (∃ lack, s = .empty lack) ∨ s = .emptyWord) :
    (letters s.text = [] ∧ signCount s.text = 1) ∨ signCount s.text = 3 := by
  rcases h with ⟨lack, rfl⟩ | rfl
  · cases lack <;> decide
  · decide

theorem eq_of_fixed_text_eq {s t : Shape} (hs : (∃ lack, s = .empty lack) ∨ s = .emptyWord)
    (ht : (∃ lack, t = .empty lack) ∨ t = .emptyWord) (heq : s.text = t.text) : s = t := by
  rcases hs with ⟨lack, rfl⟩ | rfl <;> rcases ht with ⟨lack', rfl⟩ | rfl
  · cases lack <;> cases lack' <;> first | rfl | exact absurd heq (by decide)
  · cases lack <;> exact absurd heq (by decide)
  · cases lack' <;> exact absurd heq (by decide)
  · rfl

/-- Plain shapes with one text are the same but for repetitions. -/
theorem unstarred_eq_of_text_eq {s t : Shape} (hs : s.Plain) (ht : t.Plain)
    (heq : s.text = t.text) : s.unstarred = t.unstarred := by
  rcases hs.path_or_fixed with ⟨stem, loops, hpath, hsame⟩ | hfixed <;>
    rcases ht.path_or_fixed with ⟨stem', loops', hpath', hsame'⟩ | hfixed'
  · rw [← text_unstarred hs, ← text_unstarred ht, hsame, hsame'] at heq
    obtain ⟨rfl, rfl⟩ := hpath.eq_of_text_eq hpath' heq
    rw [hsame, hsame']
  · rw [← text_unstarred hs, hsame] at heq
    exact absurd heq (hpath.text_ne (fixed_text hfixed'))
  · rw [← text_unstarred ht, hsame'] at heq
    exact absurd heq.symm (hpath'.text_ne (fixed_text hfixed))
  · rw [eq_of_fixed_text_eq hfixed hfixed' heq]

/-- The same shape twice, or a repetition and a path that repeats the same behind an empty stem. -/
def SameButStar (s t : Shape) : Prop :=
  s = t ∨ ∃ symbols, (s = .star symbols ∧ t = .path "" symbols) ∨
    (s = .path "" symbols ∧ t = .star symbols)

theorem sameButStar_iff {s t : Shape} : SameButStar s t ↔ s.unstarred = t.unstarred := by
  constructor
  · rintro (rfl | ⟨symbols, ⟨rfl, rfl⟩ | ⟨rfl, rfl⟩⟩) <;> rfl
  · intro h
    cases s <;> cases t <;> simp_all [unstarred, SameButStar]

theorem text_eq_iff {s t : Shape} (hs : s.Plain) (ht : t.Plain) :
    s.text = t.text ↔ SameButStar s t := by
  rw [sameButStar_iff]
  refine ⟨unstarred_eq_of_text_eq hs ht, fun h => ?_⟩
  rw [← text_unstarred hs, ← text_unstarred ht, h]

theorem SameButStar.denotes_iff {s t : Shape} (h : SameButStar s t) (text : String) :
    s.Denotes text ↔ t.Denotes text := by
  rw [← s.denotes_unstarred, sameButStar_iff.mp h, t.denotes_unstarred]

end Shape

/-! ### Main statement -/

namespace Graph

variable {g h : Graph}

/-- Every transition has a plain symbol. -/
def HasPlainSymbols (g : Graph) : Prop := ∀ t ∈ g.transitions, Shape.IsPlain t.symbol

instance (g : Graph) : Decidable g.HasPlainSymbols :=
  inferInstanceAs (Decidable (∀ t ∈ g.transitions, Shape.IsPlain t.symbol))

theorem HasPlainSymbols.loops (hg : g.HasPlainSymbols) (id : StateId) :
    ∀ a ∈ g.loopSymbols id, Shape.IsPlain a := by
  intro a ha
  obtain ⟨t, hout, -, rfl⟩ := mem_loopSymbols.mp ha
  exact hg t (mem_outgoing.mp hout).1

/-- All symbols along a run are plain. -/
theorem HasPlainSymbols.run (hg : g.HasPlainSymbols) {a b : StateId} {ts : List Transition}
    (hrun : g.Run a ts b) : ∀ symbol ∈ ts.map (·.symbol), Shape.IsPlain symbol := by
  induction hrun with
  | stay => exact List.forall_mem_nil _
  | @step t ts last ht _ ih => exact List.forall_mem_cons.mpr ⟨hg t ht, ih⟩

theorem HasPlainSymbols.shape (hg : g.HasPlainSymbols)
    (hexact : ∀ alphabet starred, g.shape ≠ .description alphabet starred) : g.shape.Plain := by
  have hshape := recognized_shape g
  generalize heq : g.shape = shape at hexact hshape ⊢
  cases hshape with
  | lacking => trivial
  | bare => trivial
  | looping hs hcount haccepting =>
    refine ⟨fun hnone => ?_, hg.loops _⟩
    have hempty : (g.loopSymbols _).isEmpty := List.isEmpty_iff.mpr hnone
    rw [shape_of_single hcount hs haccepting, if_pos hempty] at heq
    cases heq
  | walked hwalk =>
    obtain ⟨first, ts, -, hchain, rfl⟩ := chain_of_walk? hwalk
    have hsymbols := hg.run hchain.run
    exact ⟨Shape.letters_join hsymbols, Shape.signCount_join hsymbols, hg.loops _⟩
  | other => exact absurd rfl (hexact _ _)

/-- Two graphs of plain symbols, whatever else they are, have one expression exactly if they have
one shape, or one repeats what the other has behind an empty stem. Graphs with one expression stand
for the same texts. -/
theorem expression_legible (hg : g.HasPlainSymbols) (hh : h.HasPlainSymbols)
    (hgexact : ∀ alphabet starred, g.shape ≠ .description alphabet starred)
    (hhexact : ∀ alphabet starred, h.shape ≠ .description alphabet starred) :
    (g.expression = h.expression ↔ Shape.SameButStar g.shape h.shape) ∧
      (g.expression = h.expression → ∀ text, g.shape.Denotes text ↔ h.shape.Denotes text) := by
  have hiff : g.expression = h.expression ↔ Shape.SameButStar g.shape h.shape :=
    Shape.text_eq_iff (hg.shape hgexact) (hh.shape hhexact)
  exact ⟨hiff, fun heq => (hiff.mp heq).denotes_iff⟩

/-- A state with two loops where reading begins and ends. -/
def ring : Supply × Graph :=
  editAll .initial (.named "ring")
    [.addLabeledState "p" ⟨0, 0⟩, .updateState ⟨0⟩ ⟨0, 0⟩ (some true) (some true),
      .addTransition ⟨0⟩ ⟨0⟩ "b", .addTransition ⟨0⟩ ⟨0⟩ "a"]

/-- The same with a way out. -/
def tailedRing : Supply × Graph :=
  editAll ring.1 ring.2 [.addLabeledState "q" ⟨0, 0⟩, .addTransition ⟨0⟩ ⟨1⟩ "c"]

theorem made_ring : Made ring.1 ring.2 := (Made.named .initial "ring").editedAll _

theorem made_tailedRing : Made tailedRing.1 tailedRing.2 := made_ring.editedAll _

theorem shape_ring : ring.2.shape = .star (.ofList ["a", "b"]) := by
  have hlisted : ring.2.listedStates = ring.2.states := List.mergeSort_of_pairwise (by decide)
  have hfirst : ring.2.initialState? = ring.2.states[0]? := by
    rw [initialState?, initialStates, hlisted]
    rfl
  rw [shape_of_single (by decide) hfirst rfl]
  decide

theorem shape_tailedRing : tailedRing.2.shape = .path "" (.ofList ["a", "b"]) := by
  have hlisted : tailedRing.2.listedStates = tailedRing.2.states :=
    List.mergeSort_of_pairwise (by decide)
  have hfirst : tailedRing.2.initialState? = tailedRing.2.states[0]? := by
    rw [initialState?, initialStates, hlisted]
    rfl
  rw [shape_eq_path made_tailedRing.wellFormed (by decide) hfirst (.stop rfl)]
  decide

theorem expression_legible_ring :
    Made ring.1 ring.2 ∧ Made tailedRing.1 tailedRing.2 ∧
      ring.2.expression = tailedRing.2.expression ∧ ring.2.shape ≠ tailedRing.2.shape ∧
      ∀ text, ring.2.shape.Denotes text ↔ tailedRing.2.shape.Denotes text := by
  have hplain : ring.2.HasPlainSymbols := by decide
  have hplain' : tailedRing.2.HasPlainSymbols := by decide
  obtain ⟨hiff, hdenotes⟩ := expression_legible hplain hplain' (by simp [shape_ring])
    (by simp [shape_tailedRing])
  have hsame : ring.2.expression = tailedRing.2.expression :=
    hiff.mpr (.inr ⟨_, .inl ⟨shape_ring, shape_tailedRing⟩⟩)
  exact ⟨made_ring, made_tailedRing, hsame, by simp [shape_ring, shape_tailedRing],
    hdenotes hsame⟩

end Graph

end FiniteAutomata
