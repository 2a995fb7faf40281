import FiniteAutomata.Analysis.Determinism
import FiniteAutomata.Proofs.Graph.Consistency
import FiniteAutomata.Proofs.Language.Run
import Mathlib.Data.List.Nodup
import Mathlib.Data.List.Perm.Subperm

/-!
What determinism and completeness mean for runs (`determined`). That no state has a symbol twice
says that a transition is known by its source and its symbol, so reading a word leaves no choice
(`Run.unique`). That every state has a move on every symbol of the alphabet lets each word over it
be read to its end (`exists_run`).
-/
namespace FiniteAutomata

theorem OrderedSet.nodup {α : Type} [Ord α] [Std.LawfulEqOrd α] (s : OrderedSet α) :
    s.toList.Nodup := by
  refine s.increasing.imp ?_
  rintro a b hlt rfl
  simp at hlt

/-- A set is as large as the list that it was made of only if nothing occurs twice in the list. -/
theorem OrderedSet.size_ofList_eq_length_iff {α : Type} [Ord α] [Std.TransOrd α]
    [Std.LawfulEqOrd α] {as : List α} : (OrderedSet.ofList as).size = as.length ↔ as.Nodup := by
  have hmem (x : α) : x ∈ (OrderedSet.ofList as).toList ↔ x ∈ as := OrderedSet.mem_ofList
  constructor
  · intro hsize
    have hsub : (OrderedSet.ofList as).toList.Subperm as :=
      List.subperm_of_subset (OrderedSet.nodup _) fun x hx => (hmem x).mp hx
    exact (hsub.perm_of_length_le (Nat.le_of_eq hsize.symm)).nodup_iff.mp (OrderedSet.nodup _)
  · intro has
    exact ((List.perm_ext_iff_of_nodup (OrderedSet.nodup _) has).mpr hmem).length_eq

namespace Graph

variable {supply : Supply} {g : Graph}

/-- A word is read symbol by symbol along transitions from an initial state. -/
def Reads (g : Graph) (word : List String) (ts : List Transition) : Prop :=
  ∃ first ∈ g.states, first.initial ∧ ∃ last, g.Run first.id ts last ∧ ts.map (·.symbol) = word

/-- What a transition reads and where it begins tell which one it is. -/
def Decided (g : Graph) : Prop :=
  ∀ t ∈ g.transitions, ∀ u ∈ g.transitions, t.source = u.source → t.symbol = u.symbol → t = u

/-- What determinism and completeness of a graph mean. -/
structure Determined (g : Graph) : Prop where
  deterministic_iff : g.isDeterministic ↔
    g.states = [] ∨
      (∃! s, s ∈ g.states ∧ s.initial) ∧
        (∀ t ∈ g.transitions, t.symbol ≠ "" ∧ t.symbol ≠ "ε" ∧ t.symbol ≠ "epsilon") ∧ g.Decided
  reads_unique : g.states ≠ [] → g.isDeterministic →
    ∀ word ts us, g.Reads word ts → g.Reads word us → ts = us
  complete_iff : g.isComplete ↔
    g.isDeterministic ∧ (∃ symbol, symbol ∈ g.alphabet) ∧
      ∀ s ∈ g.states, ∀ symbol, symbol ∈ g.alphabet →
        ∃! t, t ∈ g.transitions ∧ t.source = s.id ∧ t.symbol = symbol
  exists_unique_reads : g.isComplete →
    ∀ word : List String, (∀ symbol ∈ word, symbol ∈ g.alphabet) → ∃! ts, g.Reads word ts

/-! ### Initial states and moves -/

theorem WellFormed.length_initialStates_eq_one_iff (hwf : WellFormed supply g) :
    g.initialStates.length = 1 ↔ ∃! s, s ∈ g.states ∧ s.initial := by
  have hnodup : g.initialStates.Nodup :=
    (g.listedStates_perm.nodup_iff.mpr hwf.states_nodup).filter _
  rw [List.length_eq_one_iff]
  constructor
  · rintro ⟨s, hs⟩
    have hmem (s' : State) : s' ∈ g.states ∧ s'.initial ↔ s' = s := by
      rw [← mem_initialStates, hs, List.mem_singleton]
    exact ⟨s, (hmem s).mpr rfl, fun s' => (hmem s').mp⟩
  · rintro ⟨s, hs, honly⟩
    refine ⟨s, (eq_singleton_iff_of_nodup hnodup).mpr fun s' => ?_⟩
    rw [mem_initialStates]
    exact ⟨honly s', fun heq => heq ▸ hs⟩

theorem WellFormed.hasDistinctMoves_iff (hwf : WellFormed supply g) {id : StateId} :
    g.hasDistinctMoves id ↔
      ∀ t ∈ g.outgoing id, ∀ u ∈ g.outgoing id, t.symbol = u.symbol → t = u := by
  rw [hasDistinctMoves, decide_eq_true_eq, OrderedSet.size_ofList_eq_length_iff,
    List.nodup_map_iff_inj_on (hwf.outgoing_nodup id)]

theorem WellFormed.all_hasDistinctMoves_iff (hwf : WellFormed supply g) :
    (∀ s ∈ g.states, g.hasDistinctMoves s.id) ↔ g.Decided := by
  constructor
  · intro hdistinct t ht u hu hsource hsymbol
    obtain ⟨s, hs, hid⟩ := hasState_iff.mp (hwf.source_present t ht)
    refine hwf.hasDistinctMoves_iff.mp (hdistinct s hs) t ?_ u ?_ hsymbol
    · exact mem_outgoing.mpr ⟨ht, hid.symm⟩
    · exact mem_outgoing.mpr ⟨hu, (hid.trans hsource).symm⟩
  · intro hdecided s _
    refine hwf.hasDistinctMoves_iff.mpr fun t ht u hu hsymbol => ?_
    obtain ⟨ht, hsource⟩ := mem_outgoing.mp ht
    obtain ⟨hu, hsource'⟩ := mem_outgoing.mp hu
    exact hdecided t ht u hu (hsource.trans hsource'.symm) hsymbol

theorem WellFormed.isDeterministic_iff (hwf : WellFormed supply g) :
    g.isDeterministic ↔
      g.states = [] ∨
        (∃! s, s ∈ g.states ∧ s.initial) ∧
          (∀ t ∈ g.transitions, t.symbol ≠ "" ∧ t.symbol ≠ "ε" ∧ t.symbol ≠ "epsilon") ∧
            g.Decided := by
  have hread : (!g.transitions.any (·.isSilent)) ↔
      ∀ t ∈ g.transitions, t.symbol ≠ "" ∧ t.symbol ≠ "ε" ∧ t.symbol ≠ "epsilon" := by
    rw [Bool.not_eq_true', List.any_eq_false]
    exact forall₂_congr fun t _ => by rw [← isSilent_eq_false_iff, Bool.not_eq_true]
  rw [isDeterministic, Bool.or_eq_true, isEmpty, List.isEmpty_iff, Bool.and_eq_true,
    Bool.and_eq_true, decide_eq_true_eq, hwf.length_initialStates_eq_one_iff, hread,
    List.all_eq_true, hwf.all_hasDistinctMoves_iff, and_assoc]

theorem hasMove_iff {id : StateId} {symbol : String} :
    g.hasMove id symbol ↔ ∃ t ∈ g.transitions, t.source = id ∧ t.symbol = symbol := by
  simp only [hasMove, List.any_eq_true, mem_outgoing, decide_eq_true_eq, and_assoc]

/-- What is in the alphabet is on some transition, so there is a state. -/
theorem WellFormed.states_ne_nil (hwf : WellFormed supply g) {symbol : String}
    (hsymbol : symbol ∈ g.alphabet) : g.states ≠ [] := by
  rw [hwf.alphabet_eq, mem_symbolsOf] at hsymbol
  obtain ⟨t, ht, -⟩ := hsymbol
  obtain ⟨s, hs, -⟩ := hasState_iff.mp (hwf.source_present t ht)
  exact List.ne_nil_of_mem hs

/-- A graph is complete if it is deterministic and has a move on every symbol at every state. -/
theorem isComplete_iff_moves :
    g.isComplete ↔
      g.isDeterministic ∧ (∃ symbol, symbol ∈ g.alphabet) ∧
        ∀ s ∈ g.states, ∀ symbol, symbol ∈ g.alphabet →
          ∃ t ∈ g.transitions, t.source = s.id ∧ t.symbol = symbol := by
  have hsome : (!g.alphabet.isEmpty) ↔ ∃ symbol, symbol ∈ g.alphabet := by
    rw [OrderedSet.isEmpty, Bool.not_eq_true', List.isEmpty_eq_false_iff_exists_mem]
    exact Iff.rfl
  have hmoves : (g.states.all fun s => g.alphabet.toList.all (g.hasMove s.id)) ↔
      ∀ s ∈ g.states, ∀ symbol, symbol ∈ g.alphabet →
        ∃ t ∈ g.transitions, t.source = s.id ∧ t.symbol = symbol := by
    simp only [List.all_eq_true, hasMove_iff]
    exact Iff.rfl
  rw [isComplete, Bool.and_eq_true, Bool.and_eq_true, hsome, hmoves, and_assoc]

/-- In a deterministic graph a transition is known by its source and its symbol, and every
transition reads something. -/
theorem WellFormed.decided (hwf : WellFormed supply g) (hdeterministic : g.isDeterministic) :
    (∀ t ∈ g.transitions, t.isSilent = false) ∧ g.Decided := by
  rcases hwf.isDeterministic_iff.mp hdeterministic with hnone | ⟨-, hread, hdecided⟩
  · -- without states there are no transitions
    have hempty : ∀ t ∈ g.transitions, False := by
      intro t ht
      obtain ⟨s, hs, -⟩ := hasState_iff.mp (hwf.source_present t ht)
      rw [hnone] at hs
      exact List.not_mem_nil hs
    exact ⟨fun t ht => (hempty t ht).elim, fun t ht => (hempty t ht).elim⟩
  · exact ⟨fun t ht => isSilent_eq_false_iff.mpr (hread t ht), hdecided⟩

theorem WellFormed.isComplete_iff (hwf : WellFormed supply g) :
    g.isComplete ↔
      g.isDeterministic ∧ (∃ symbol, symbol ∈ g.alphabet) ∧
        ∀ s ∈ g.states, ∀ symbol, symbol ∈ g.alphabet →
          ∃! t, t ∈ g.transitions ∧ t.source = s.id ∧ t.symbol = symbol := by
  rw [isComplete_iff_moves]
  refine and_congr_right fun hdeterministic => and_congr_right fun _ => ?_
  -- a move is the only one because the graph is deterministic
  obtain ⟨-, hdecided⟩ := hwf.decided hdeterministic
  constructor
  · intro hmove s hs symbol hsymbol
    obtain ⟨t, ht, hsource, hread⟩ := hmove s hs symbol hsymbol
    refine ⟨t, ⟨ht, hsource, hread⟩, ?_⟩
    rintro u ⟨hu, hsource', hread'⟩
    exact hdecided u hu t ht (hsource'.trans hsource.symm) (hread'.trans hread.symm)
  · intro hmove s hs symbol hsymbol
    obtain ⟨t, ht, -⟩ := hmove s hs symbol hsymbol
    exact ⟨t, ht⟩

/-! ### Runs -/

/-- Where transitions are known by source and symbol, a word is read in one way from a state. -/
theorem Run.unique (hdecided : g.Decided) {a b c : StateId} {ts us : List Transition}
    (hts : g.Run a ts b) (hus : g.Run a us c) (hword : ts.map (·.symbol) = us.map (·.symbol)) :
    ts = us := by
  induction ts generalizing a us with
  | nil => exact (List.map_eq_nil_iff.mp hword.symm).symm
  | cons t ts ih =>
    cases us with
    | nil => cases hword
    | cons u us =>
      obtain ⟨ht, hts⟩ := run_cons_iff.mp hts
      obtain ⟨hu, hus⟩ := run_cons_iff.mp hus
      obtain ⟨ht, hsource⟩ := mem_outgoing.mp ht
      obtain ⟨hu, hsource'⟩ := mem_outgoing.mp hu
      obtain ⟨hsymbol, hrest⟩ := List.cons.inj hword
      obtain rfl : t = u := hdecided t ht u hu (hsource.trans hsource'.symm) hsymbol
      rw [ih hts hus hrest]

/-- Where every state has a move on every symbol, each word can be read from every state. -/
theorem WellFormed.exists_run (hwf : WellFormed supply g)
    (hmoves : ∀ s ∈ g.states, ∀ symbol, symbol ∈ g.alphabet →
      ∃ t ∈ g.transitions, t.source = s.id ∧ t.symbol = symbol)
    {word : List String} (hword : ∀ symbol ∈ word, symbol ∈ g.alphabet) {s : State}
    (hs : s ∈ g.states) : ∃ ts last, g.Run s.id ts last ∧ ts.map (·.symbol) = word := by
  induction word generalizing s with
  | nil => exact ⟨[], s.id, .stay s.id, rfl⟩
  | cons symbol word ih =>
    obtain ⟨hsymbol, hrest⟩ := List.forall_mem_cons.mp hword
    obtain ⟨t, ht, hsource, rfl⟩ := hmoves s hs symbol hsymbol
    obtain ⟨next, hnext, htarget⟩ := hasState_iff.mp (hwf.target_present t ht)
    obtain ⟨ts, last, hrun, rfl⟩ := ih hrest hnext
    refine ⟨t :: ts, last, ?_, rfl⟩
    rw [← hsource]
    exact .step ht (htarget ▸ hrun)

/-! ### Main statement -/

theorem WellFormed.reads_unique (hwf : WellFormed supply g) (hstates : g.states ≠ [])
    (hdeterministic : g.isDeterministic) {word : List String} {ts us : List Transition}
    (hts : g.Reads word ts) (hus : g.Reads word us) : ts = us := by
  obtain ⟨s, hs, hinitial, a, hrun, hword⟩ := hts
  obtain ⟨s', hs', hinitial', b, hrun', hword'⟩ := hus
  rcases hwf.isDeterministic_iff.mp hdeterministic with hnone | ⟨honly, -, hdecided⟩
  · exact absurd hnone hstates
  · obtain rfl : s = s' := honly.unique ⟨hs, hinitial⟩ ⟨hs', hinitial'⟩
    exact hrun.unique hdecided hrun' (hword.trans hword'.symm)

theorem determined (hmade : Made supply g) : g.Determined where
  deterministic_iff := hmade.wellFormed.isDeterministic_iff
  reads_unique hstates hdeterministic _ _ _ :=
    hmade.wellFormed.reads_unique hstates hdeterministic
  complete_iff := hmade.wellFormed.isComplete_iff
  exists_unique_reads hcomplete word hword := by
    have hwf := hmade.wellFormed
    obtain ⟨hdeterministic, ⟨symbol, hsymbol⟩, hmoves⟩ := hwf.isComplete_iff.mp hcomplete
    have hstates := hwf.states_ne_nil hsymbol
    rcases hwf.isDeterministic_iff.mp hdeterministic with hnone | ⟨⟨s, ⟨hs, hinitial⟩, -⟩, -, -⟩
    · exact absurd hnone hstates
    · obtain ⟨ts, last, hrun, hread⟩ :=
        hwf.exists_run (fun s hs symbol hsymbol => (hmoves s hs symbol hsymbol).exists) hword hs
      have hreads : g.Reads word ts := ⟨s, hs, hinitial, last, hrun, hread⟩
      exact ⟨ts, hreads, fun us hus => hwf.reads_unique hstates hdeterministic hus hreads⟩

/-- Two states that every `a` leads from the one to the other and no `b` leads away from. -/
def parity : Supply × Graph :=
  editAll .initial .unnamed
    [.addState ⟨0, 0⟩, .addState ⟨1, 0⟩, .updateState ⟨0⟩ ⟨0, 0⟩ (some true) none,
      .addTransition ⟨0⟩ ⟨1⟩ "a", .addTransition ⟨1⟩ ⟨0⟩ "a", .addTransition ⟨0⟩ ⟨0⟩ "b",
      .addTransition ⟨1⟩ ⟨1⟩ "b"]

theorem determined_parity :
    Made parity.1 parity.2 ∧ parity.2.isComplete ∧ ∃! ts, parity.2.Reads ["a", "b", "a"] ts := by
  have hmade : Made parity.1 parity.2 := (Made.named .initial "Automate").editedAll _
  have hinitial : parity.2.initialStates.length = 1 :=
    (parity.2.listedStates_perm.filter State.initial).length_eq.trans (by decide)
  have hcomplete : parity.2.isComplete := by
    rw [isComplete, isDeterministic, hinitial]
    decide
  exact ⟨hmade, hcomplete, (determined hmade).exists_unique_reads hcomplete _ (by decide)⟩

end Graph
end FiniteAutomata
