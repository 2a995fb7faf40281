import FiniteAutomata.Proofs.Language.Expression
import FiniteAutomata.Proofs.Language.Determinism
import FiniteAutomata.Proofs.Spelling.Load
import FiniteAutomata.Proofs.Text.Joining

/-!
Expressions and the marks for the empty word. Symbols stand in an expression as they are, so a
transition that reads nothing shows there by which mark it does so: each one on the chain writes its
mark, and those among the loops at its end write it once (`length_written_spelled`). All marks give
one expression exactly where no such transition is written (`marks_written`).
-/
namespace FiniteAutomata.Graph

variable {mark : String} {supply : Supply} {g : Graph}

/-- The symbol of a transition stands in the expression. -/
def Writes (g : Graph) (t : Transition) : Prop :=
  ∃ ts last, g.Arrives ts last ∧ (t ∈ ts ∨ t ∈ g.loops last.id)

/-! ### Chains under other marks -/

theorem outgoing_spelled (g : Graph) (id : StateId) :
    (g.spelled mark).outgoing id = (g.outgoing id).map (·.spelled mark) := by
  rw [outgoing, spelled, List.filter_map]
  rfl

theorem loops_spelled (g : Graph) (id : StateId) :
    (g.spelled mark).loops id = (g.loops id).map (·.spelled mark) := by
  rw [loops, outgoing_spelled, List.filter_map]
  rfl

theorem chain_spelled_iff {s last : State} {us : List Transition} :
    (g.spelled mark).Chain s us last ↔
      ∃ ts, g.Chain s ts last ∧ ts.map (·.spelled mark) = us := by
  constructor
  · intro h
    induction h with
    | stop haccepting => exact ⟨[], .stop haccepting, rfl⟩
    | on hgoes hway hmoves hnext _ ih =>
      rw [outgoing_spelled, List.map_eq_singleton_iff] at hway
      obtain ⟨t, hway, rfl⟩ := hway
      obtain ⟨ts, hchain, rfl⟩ := ih
      exact ⟨t :: ts, .on hgoes hway hmoves hnext hchain, rfl⟩
  · rintro ⟨ts, h, rfl⟩
    induction h with
    | stop haccepting => exact .stop haccepting
    | on hgoes hway hmoves hnext _ ih =>
      refine .on hgoes ?_ hmoves hnext ih
      rw [outgoing_spelled, hway]
      rfl

theorem arrives_spelled_iff {us : List Transition} {last : State} :
    (g.spelled mark).Arrives us last ↔ ∃ ts, g.Arrives ts last ∧ ts.map (·.spelled mark) = us := by
  constructor
  · rintro ⟨first, hfirst, hspelled⟩
    obtain ⟨ts, hchain, rfl⟩ := chain_spelled_iff.mp hspelled
    exact ⟨ts, ⟨first, hfirst, hchain⟩, rfl⟩
  · rintro ⟨ts, ⟨first, hfirst, hchain⟩, rfl⟩
    exact ⟨first, hfirst, chain_spelled_iff.mpr ⟨ts, hchain, rfl⟩⟩

theorem writes_spelled_iff {u : Transition} :
    (g.spelled mark).Writes u ↔ ∃ t, g.Writes t ∧ t.spelled mark = u := by
  constructor
  · rintro ⟨us, last, hspelled, hu⟩
    obtain ⟨ts, harrives, rfl⟩ := arrives_spelled_iff.mp hspelled
    rw [loops_spelled, List.mem_map, List.mem_map] at hu
    obtain ⟨t, ht, rfl⟩ | ⟨t, ht, rfl⟩ := hu
    · exact ⟨t, ⟨ts, last, harrives, .inl ht⟩, rfl⟩
    · exact ⟨t, ⟨ts, last, harrives, .inr ht⟩, rfl⟩
  · rintro ⟨t, ⟨ts, last, harrives, ht⟩, rfl⟩
    refine ⟨_, last, arrives_spelled_iff.mpr ⟨ts, harrives, rfl⟩, ?_⟩
    rw [loops_spelled]
    exact ht.imp List.mem_map_of_mem List.mem_map_of_mem

/-! ### Where nothing silent is written -/

theorem shape_spelled_of_not_arrives (hnone : ∀ ts last, ¬g.Arrives ts last) :
    (g.spelled mark).shape = g.shape := by
  have hnone' : ∀ us last, ¬(g.spelled mark).Arrives us last := by
    intro us last h
    obtain ⟨ts, harrives, -⟩ := arrives_spelled_iff.mp h
    exact hnone ts last harrives
  have hdescribed : (g.spelled mark).describedShape = g.describedShape := by
    rw [describedShape, spelled, List.any_map]
    rfl
  rw [shape_of_not_arrives hnone, shape_of_not_arrives hnone', hdescribed]
  rfl

theorem expression_spelled (hmade : Made supply g) (hmark : isEpsilon mark)
    (hread : ∀ t, g.Writes t → t.isSilent = false) :
    (g.spelled mark).expression = g.expression := by
  by_cases hchain : ∃ ts last, g.Arrives ts last
  · obtain ⟨ts, last, harrives⟩ := hchain
    have hstem : ts.map (·.spelled mark) = ts :=
      map_spelled_of_not_isSilent fun t ht => hread t ⟨ts, last, harrives, .inl ht⟩
    have hloops : (g.spelled mark).loops last.id = g.loops last.id := by
      rw [loops_spelled]
      exact map_spelled_of_not_isSilent fun t ht => hread t ⟨ts, last, harrives, .inr ht⟩
    have harrives' : (g.spelled mark).Arrives ts last :=
      arrives_spelled_iff.mpr ⟨ts, harrives, hstem⟩
    rw [expression_of_arrives hmade.wellFormed harrives,
      expression_of_arrives (hmade.spelled hmark).wellFormed harrives', hloops]
    rfl
  · rw [expression, expression,
      shape_spelled_of_not_arrives fun ts last harrives => hchain ⟨ts, last, harrives⟩]

/-! ### Where something silent is written -/

/-- Each transition on a chain that reads nothing writes the mark. -/
theorem length_spelling_spelled (mark : String) (ts : List Transition) :
    (spelling (ts.map (·.spelled mark))).length =
      (spelling (ts.filter fun t => !t.isSilent)).length +
        ts.countP (·.isSilent) * mark.length := by
  induction ts with
  | nil => simp
  | cons t ts ih =>
    rw [List.map_cons, spelling_cons, String.length_append, ih]
    cases ht : t.isSilent with
    | true =>
      have hsymbol : (t.spelled mark).symbol = mark := respell_of_isEpsilon ht
      simp only [hsymbol, List.filter_cons, ht, List.countP_cons, Bool.not_true, if_true,
        Bool.false_eq_true, if_false, Nat.succ_mul]
      omega
    | false =>
      rw [Transition.spelled_of_not_isSilent ht]
      simp only [List.filter_cons, ht, List.countP_cons, Bool.not_false, if_true,
        Bool.false_eq_true, if_false, spelling_cons, String.length_append, Nat.add_zero]
      omega

/-- Of transitions that read nothing only the mark is left. -/
theorem ofList_symbols_spelled (mark : String) (ts : List Transition) :
    OrderedSet.ofList ((ts.map (·.spelled mark)).map (·.symbol)) =
      if ts.any (·.isSilent) then (symbolsOf ts).insert mark else symbolsOf ts := by
  have hmem (symbol : String) :
      symbol ∈ OrderedSet.ofList ((ts.map (·.spelled mark)).map (·.symbol)) ↔
        (∃ t ∈ ts, t.isSilent) ∧ symbol = mark ∨ symbol ∈ symbolsOf ts := by
    simp only [OrderedSet.mem_ofList, mem_symbolsOf, List.mem_map, exists_exists_and_eq_and]
    constructor
    · rintro ⟨t, ht, rfl⟩
      cases hsilent : t.isSilent with
      | true => exact .inl ⟨⟨t, ht, hsilent⟩, respell_of_isEpsilon hsilent⟩
      | false => exact .inr ⟨t, ht, hsilent, (respell_of_not_isEpsilon hsilent).symm⟩
    · rintro (⟨⟨t, ht, hsilent⟩, rfl⟩ | ⟨t, ht, hsilent, rfl⟩)
      · exact ⟨t, ht, respell_of_isEpsilon hsilent⟩
      · exact ⟨t, ht, respell_of_not_isEpsilon hsilent⟩
  apply OrderedSet.ext
  intro symbol
  rw [hmem, ← List.any_eq_true]
  cases ts.any (·.isSilent) with
  | true => simp
  | false => simp

theorem length_intercalate_plus (a : String) (as : List String) :
    ("+".intercalate (a :: as)).length = (String.join (a :: as)).length + as.length := by
  have hplus : "+".length = 1 := rfl
  rw [Text.length_intercalate, hplus, Nat.one_mul, String.length_join, List.length_cons,
    Nat.add_sub_cancel]

/-- The length of a repetition: its symbols, a sign behind each, and brackets around several. -/
theorem length_repeated {symbols : OrderedSet String} (h : symbols.toList ≠ []) :
    (Shape.repeated symbols).length =
      (String.join symbols.toList).length + symbols.size + if symbols.size = 1 then 0 else 2 := by
  have hstar : "*".length = 1 := rfl
  have hopen : "(".length = 1 := rfl
  have hclose : ")".length = 1 := rfl
  rw [Shape.repeated, String.length_append, hstar, OrderedSet.size, Shape.union]
  cases hsymbols : symbols.toList with
  | nil => exact absurd hsymbols h
  | cons a as =>
    cases as with
    | nil => simp
    | cons b as =>
      simp only [String.length_append, length_intercalate_plus, hopen, hclose, List.length_cons]
      rw [if_neg (by omega)]
      omega

/-- One more symbol adds to the length of a repetition what does not depend on it but its own. -/
theorem length_repeated_insert {symbols : OrderedSet String} {a : String} (h : ¬a ∈ symbols) :
    (Shape.repeated (symbols.insert a)).length =
      a.length + ((String.join symbols.toList).length + symbols.size + 1 +
        if symbols.size = 0 then 0 else 2) := by
  have hperm : (symbols.insert a).toList.Perm (a :: symbols.toList) := by
    rw [List.perm_ext_iff_of_nodup (OrderedSet.nodup _)
      (List.nodup_cons.mpr ⟨h, OrderedSet.nodup symbols⟩)]
    exact fun x => OrderedSet.mem_insert.trans List.mem_cons.symm
  have hsize : (symbols.insert a).size = symbols.size + 1 := hperm.length_eq
  have hjoin : (String.join (symbols.insert a).toList).length =
      a.length + (String.join symbols.toList).length := by
    rw [String.length_join, (hperm.map String.length).sum_nat, ← String.length_join,
      String.join_cons, String.length_append]
  have hsome : (symbols.insert a).toList ≠ [] := by
    intro hnone
    rw [OrderedSet.size, hnone] at hsize
    exact absurd hsize (Nat.succ_ne_zero _).symm
  rw [length_repeated hsome, hjoin, hsize]
  simp only [Nat.add_eq_right]
  omega

/-- How often the mark is written. -/
def marksWritten (ts loops : List Transition) : Nat :=
  ts.countP (·.isSilent) + if loops.any (·.isSilent) then 1 else 0

/-- The loops that read nothing write the mark once, however many they are. -/
theorem length_repeated_spelled (loops : List Transition) :
    ∃ n, ∀ mark, isEpsilon mark →
      (Shape.repeated (.ofList ((loops.map (·.spelled mark)).map (·.symbol)))).length =
        n + (if loops.any (·.isSilent) then 1 else 0) * mark.length := by
  cases hsilent : loops.any (·.isSilent) with
  | true =>
    let read := symbolsOf loops
    refine ⟨(String.join read.toList).length + read.size + 1 + if read.size = 0 then 0 else 2,
      fun mark hmark => ?_⟩
    have hnew : ¬mark ∈ symbolsOf loops := by
      intro hmem
      obtain ⟨t, -, hread, rfl⟩ := mem_symbolsOf.mp hmem
      exact absurd hmark (Bool.eq_false_iff.mp hread)
    rw [ofList_symbols_spelled, hsilent, if_pos rfl, length_repeated_insert hnew, if_pos rfl,
      Nat.one_mul, Nat.add_comm]
  | false =>
    refine ⟨(Shape.repeated (symbolsOf loops)).length, fun mark _ => ?_⟩
    rw [ofList_symbols_spelled, hsilent, if_neg Bool.false_ne_true, if_neg Bool.false_ne_true,
      Nat.zero_mul, Nat.add_zero]

/-- Under a longer mark an expression is longer by what the mark is longer, as often as the mark is
written. -/
theorem length_written_spelled (ts loops : List Transition) :
    ∃ n, ∀ mark, isEpsilon mark →
      (written (ts.map (·.spelled mark)) (loops.map (·.spelled mark))).length =
        n + marksWritten ts loops * mark.length := by
  cases loops with
  | nil =>
    refine ⟨(spelling (ts.filter fun t => !t.isSilent)).length, fun mark _ => ?_⟩
    simp only [written, marksWritten, List.map_nil, List.isEmpty_nil, if_true, String.append_empty,
      List.any_nil, Bool.false_eq_true, if_false, Nat.add_zero]
    exact length_spelling_spelled mark ts
  | cons t loops =>
    obtain ⟨n, hn⟩ := length_repeated_spelled (t :: loops)
    refine ⟨(spelling (ts.filter fun t => !t.isSilent)).length + n, fun mark hmark => ?_⟩
    rw [written, String.length_append, length_spelling_spelled, marksWritten, Nat.add_mul]
    simp only [List.map_cons, List.isEmpty_cons, Bool.false_eq_true, if_false] at hn ⊢
    rw [hn mark hmark]
    omega

theorem marksWritten_pos {ts loops : List Transition} {t : Transition} (ht : t ∈ ts ∨ t ∈ loops)
    (hsilent : t.isSilent) : 0 < marksWritten ts loops := by
  unfold marksWritten
  rcases ht with ht | ht
  · have hpos : 0 < ts.countP (·.isSilent) := List.countP_pos_iff.mpr ⟨t, ht, hsilent⟩
    omega
  · rw [if_pos (List.any_eq_true.mpr ⟨t, ht, hsilent⟩)]
    omega

/-- Where a transition that reads nothing is written, two marks give two expressions. -/
theorem expression_ne_of_writes (hmade : Made supply g) {t : Transition} (ht : g.Writes t)
    (hsilent : t.isSilent) : (g.spelled "").expression ≠ (g.spelled epsilon).expression := by
  obtain ⟨ts, last, harrives, hwritten⟩ := ht
  obtain ⟨n, hn⟩ := length_written_spelled ts (g.loops last.id)
  have hpos := marksWritten_pos hwritten hsilent
  have hother : ¬(g.stateCount = 1 ∧ g.loops last.id = []) := by
    rintro ⟨hcount, hloops⟩
    obtain ⟨first, hfirst, hchain⟩ := harrives
    obtain ⟨rfl, -⟩ := chain_of_single hcount (initialState?_spec hfirst).1 hchain
    rw [hloops] at hwritten
    exact hwritten.elim List.not_mem_nil List.not_mem_nil
  have hlength (mark : String) (hmark : isEpsilon mark) :
      (g.spelled mark).expression.length = n + marksWritten ts (g.loops last.id) * mark.length := by
    have harrives' : (g.spelled mark).Arrives (ts.map (·.spelled mark)) last :=
      arrives_spelled_iff.mpr ⟨ts, harrives, rfl⟩
    rw [expression_of_arrives (hmade.spelled hmark).wellFormed harrives', loops_spelled, if_neg,
      hn mark hmark]
    rwa [List.map_eq_nil_iff]
  intro heq
  have hempty := hlength "" rfl
  rw [heq, hlength epsilon rfl] at hempty
  have hone : epsilon.length = 1 := rfl
  have hzero : "".length = 0 := rfl
  rw [hone, hzero] at hempty
  omega

/-! ### Main statement -/

/-- If nothing silent is written in a graph, nothing silent is in one that differs in its marks. -/
theorem writes_respelled (hmark : isEpsilon mark) {h : Graph}
    (heq : h.spelled mark = g.spelled mark) (hread : ∀ t, g.Writes t → t.isSilent = false)
    {t : Transition} (ht : h.Writes t) : t.isSilent = false := by
  have hspelled : (h.spelled mark).Writes (t.spelled mark) := writes_spelled_iff.mpr ⟨t, ht, rfl⟩
  rw [heq] at hspelled
  obtain ⟨u, hu, hsame⟩ := writes_spelled_iff.mp hspelled
  rw [← t.isSilent_spelled hmark, ← hsame, u.isSilent_spelled hmark]
  exact hread u hu

/-- The marks for the empty word can be put one for another in an expression exactly where none of
them is written, and it is the empty text exactly where the chain has empty symbols alone. -/
theorem marks_written (hmade : Made supply g) :
    ((∀ later h, Made later h → Respelled g h → h.expression = g.expression) ↔
        ∀ t, g.Writes t → t.isSilent = false) ∧
      (g.expression = "" ↔ g.stateCount ≠ 1 ∧
        ∃ ts last, g.Arrives ts last ∧ (∀ t ∈ ts, t.symbol = "") ∧ g.loops last.id = []) := by
  refine ⟨⟨fun hsame t ht => ?_, fun hread later h hh hsame => ?_⟩,
    expression_eq_empty_iff hmade.wellFormed⟩
  · have hexpression {mark : String} (hmark : isEpsilon mark) :
        (g.spelled mark).expression = g.expression :=
      hsame supply _ (hmade.spelled hmark) (g.respelled_spelled hmark)
    by_contra hsilent
    apply expression_ne_of_writes hmade ht (Bool.not_eq_false _ ▸ hsilent)
    rw [hexpression rfl, hexpression rfl]
  · have hmark : isEpsilon epsilon := rfl
    have heq := (respelled_iff hmark hmade.wellFormed hh.wellFormed).mp hsame
    have hread' : ∀ t, h.Writes t → t.isSilent = false :=
      fun t ht => writes_respelled hmark heq hread ht
    calc
      h.expression = (h.spelled epsilon).expression := (expression_spelled hh hmark hread').symm
      _ = (g.spelled epsilon).expression := by rw [heq]
      _ = g.expression := expression_spelled hmade hmark hread

/-- A saved graph of two states with a way there, where it accepts, and a way back. -/
def shuttle (there back : String) : Snapshot :=
  { name := "shuttle"
    states := [⟨⟨0⟩, "q0", ⟨0, 0⟩, true, false⟩, ⟨⟨1⟩, "q1", ⟨0, 0⟩, false, true⟩]
    transitions := [⟨⟨0⟩, ⟨0⟩, ⟨1⟩, there⟩, ⟨⟨1⟩, ⟨1⟩, ⟨0⟩, back⟩]
    alphabet := [] }

def shuttled (there back : String) : Graph :=
  ((shuttle there back).toGraph .initial).outcome.toOption.getD .unnamed

theorem made_shuttled (there back : String) : Made ⟨2, 2⟩ (shuttled there back) := by
  have hok : ((shuttle there back).toGraph .initial).outcome = .ok (shuttled there back) := rfl
  have hmade := Made.loaded (shuttle there back) hok
  exact hmade

theorem arrives_shuttled (there back : String) :
    (shuttled there back).Arrives [⟨⟨0⟩, ⟨0⟩, ⟨1⟩, there⟩] ⟨⟨1⟩, "q1", ⟨0, 0⟩, false, true⟩ := by
  have hlisted : (shuttled there back).listedStates = (shuttled there back).states :=
    List.mergeSort_of_pairwise (of_decide_eq_true rfl)
  refine ⟨⟨⟨0⟩, "q0", ⟨0, 0⟩, true, false⟩, ?_, .on Bool.false_ne_true rfl ?_ rfl (.stop rfl)⟩
  · rw [initialState?, initialStates, hlisted]
    rfl
  · exact Bool.false_ne_true

theorem expression_shuttled (there back : String) : (shuttled there back).expression = there := by
  rw [expression_of_arrives (made_shuttled there back).wellFormed (arrives_shuttled there back)]
  have hloops : (shuttled there back).loops ⟨1⟩ = [] := rfl
  have hcount : (shuttled there back).stateCount = 2 := rfl
  simp [hloops, hcount, written]

/-- On the way there the mark is written, and if it is the empty text nothing is. -/
theorem not_marks_written_shuttle :
    Made ⟨2, 2⟩ (shuttled "" "a") ∧ Made ⟨2, 2⟩ (shuttled "epsilon" "a") ∧
      Respelled (shuttled "" "a") (shuttled "epsilon" "a") ∧
      (shuttled "" "a").expression = "" ∧ (shuttled "epsilon" "a").expression = "epsilon" := by
  have hsame : Respelled (shuttled "" "a") (shuttled "epsilon" "a") :=
    ⟨rfl, rfl, .cons ⟨rfl, rfl, rfl, .inr ⟨rfl, rfl⟩⟩ <| .cons ⟨rfl, rfl, rfl, .inl rfl⟩ .nil⟩
  exact ⟨made_shuttled _ _, made_shuttled _ _, hsame, expression_shuttled _ _,
    expression_shuttled _ _⟩

/-- On the way back no mark is written. -/
theorem marks_written_shuttle :
    Made ⟨2, 2⟩ (shuttled "a" "") ∧ Made ⟨2, 2⟩ (shuttled "a" "epsilon") ∧
      (∀ t, (shuttled "a" "").Writes t → t.isSilent = false) ∧
      (shuttled "a" "epsilon").expression = (shuttled "a" "").expression ∧
      (shuttled "a" "").expression ≠ "" := by
  have hmade := made_shuttled "a" ""
  have hread : ∀ t, (shuttled "a" "").Writes t → t.isSilent = false := by
    rintro t ⟨ts, last, harrives, ht⟩
    obtain ⟨rfl, rfl⟩ := harrives.unique (arrives_shuttled "a" "")
    have hloops : (shuttled "a" "").loops ⟨1⟩ = [] := rfl
    rw [hloops, List.mem_singleton] at ht
    obtain rfl | ht := ht
    · rfl
    · exact absurd ht List.not_mem_nil
  have hsame : Respelled (shuttled "a" "") (shuttled "a" "epsilon") :=
    ⟨rfl, rfl, .cons ⟨rfl, rfl, rfl, .inl rfl⟩ <| .cons ⟨rfl, rfl, rfl, .inr ⟨rfl, rfl⟩⟩ .nil⟩
  obtain ⟨hmarks, hempty⟩ := marks_written hmade
  refine ⟨hmade, made_shuttled _ _, hread,
    hmarks.mpr hread ⟨2, 2⟩ _ (made_shuttled "a" "epsilon") hsame, ?_⟩
  intro h
  obtain ⟨-, ts, last, harrives, hsymbols, -⟩ := hempty.mp h
  obtain ⟨rfl, -⟩ := harrives.unique (arrives_shuttled "a" "")
  exact absurd (hsymbols _ (List.mem_singleton_self _)) (by decide)

end FiniteAutomata.Graph
