import FiniteAutomata.Proofs.Language.Chain

/-!
What the shape of a graph says of the texts that the graph accepts. Each shape but a description
denotes a set of texts (`Shape.Denotes`). All of them are accepted (`accepts_of_denotes`), and they
are all that is accepted unless the shape is a path with more than one beginning or with a way on
from its end (`accepts_iff_denotes`).
-/
namespace FiniteAutomata

/-- The texts that a shape stands for. Symbols to be repeated may follow each other in any order and
number. No text is denoted by the shape of a graph without words, nor by a description. -/
inductive Shape.Denotes : Shape → String → Prop
  | emptyWord : Denotes .emptyWord ""
  | star {symbols : OrderedSet String} {parts : List String} (h : ∀ p ∈ parts, p ∈ symbols) :
      Denotes (.star symbols) (String.join parts)
  | path {stem : String} {loops : OrderedSet String} {parts : List String}
      (h : ∀ p ∈ parts, p ∈ loops) : Denotes (.path stem loops) (stem ++ String.join parts)

namespace Shape

theorem not_denotes_empty (lack : Lack) (text : String) : ¬(Shape.empty lack).Denotes text := by
  intro h
  cases h

theorem denotes_emptyWord_iff {text : String} : emptyWord.Denotes text ↔ text = "" := by
  constructor
  · intro h
    cases h with
    | emptyWord => rfl
  · rintro rfl
    exact .emptyWord

theorem denotes_star_iff {symbols : OrderedSet String} {text : String} :
    (star symbols).Denotes text ↔
      ∃ parts, (∀ p ∈ parts, p ∈ symbols) ∧ text = String.join parts := by
  constructor
  · intro h
    cases h with
    | star hparts => exact ⟨_, hparts, rfl⟩
  · rintro ⟨parts, hparts, rfl⟩
    exact .star hparts

theorem denotes_path_iff {stem : String} {loops : OrderedSet String} {text : String} :
    (path stem loops).Denotes text ↔
      ∃ parts, (∀ p ∈ parts, p ∈ loops) ∧ text = stem ++ String.join parts := by
  constructor
  · intro h
    cases h with
    | path hparts => exact ⟨_, hparts, rfl⟩
  · rintro ⟨parts, hparts, rfl⟩
    exact .path hparts

end Shape

namespace Graph

variable {supply : Supply} {g : Graph}

/-! ### How a shape is found -/

/-- What is known of a graph by each shape that it can have. -/
inductive Recognized (g : Graph) : Shape → Prop
  | lacking {lack : Shape.Lack} (h : g.lack? = some lack) : Recognized g (.empty lack)
  | bare {s : State} (hs : g.initialState? = some s) (hcount : g.stateCount = 1)
      (haccepting : s.accepting) (hloops : (g.loopSymbols s.id).isEmpty) : Recognized g .emptyWord
  | looping {s : State} (hs : g.initialState? = some s) (hcount : g.stateCount = 1)
      (haccepting : s.accepting) : Recognized g (.star (g.loopSymbols s.id))
  | walked {stem : String} {last : State} (h : g.walk? = some (stem, last)) :
      Recognized g (.path stem (g.loopSymbols last.id))
  | other : Recognized g g.describedShape

theorem recognized_single {shape : Shape} (h : g.singleShape? = some shape) :
    g.Recognized shape := by
  unfold singleShape? at h
  split at h
  · cases h
  · rename_i s hs
    split at h
    · rename_i hsingle
      obtain ⟨hcount, haccepting⟩ := hsingle
      cases h
      by_cases hloops : (g.loopSymbols s.id).isEmpty
      · rw [if_pos hloops]
        exact .bare hs hcount haccepting hloops
      · rw [if_neg hloops]
        exact .looping hs hcount haccepting
    · cases h

theorem pathShape?_eq (g : Graph) :
    g.pathShape? = g.walk?.map fun (stem, last) => .path stem (g.loopSymbols last.id) := by
  unfold pathShape? walk?
  cases g.initialState? with
  | none => rfl
  | some s => rfl

theorem recognized_shape (g : Graph) : g.Recognized g.shape := by
  unfold shape
  cases hempty : g.emptyShape? with
  | some shape =>
    obtain ⟨lack, hlack, rfl⟩ := Option.map_eq_some_iff.mp hempty
    exact .lacking hlack
  | none =>
  cases hsingle : g.singleShape? with
  | some shape => exact recognized_single hsingle
  | none =>
  cases hpath : g.pathShape? with
  | some shape =>
    rw [pathShape?_eq] at hpath
    obtain ⟨⟨stem, last⟩, hwalk, rfl⟩ := Option.map_eq_some_iff.mp hpath
    exact .walked hwalk
  | none => exact .other

/-- Nothing is lacking where a chain leads from the first initial state. -/
theorem lack?_of_chain {first last : State} {ts : List Transition}
    (hfirst : g.initialState? = some first) (hchain : g.Chain first ts last) : g.lack? = none := by
  obtain ⟨hmem, -⟩ := initialState?_spec hfirst
  have haccepting : last ∈ g.acceptingStates :=
    mem_acceptingStates.mpr ⟨hchain.last_mem hmem, hchain.last_accepting⟩
  have hstates : g.isEmpty = false := List.isEmpty_eq_false_iff_exists_mem.mpr ⟨first, hmem⟩
  have hends : g.acceptingStates.isEmpty = false :=
    List.isEmpty_eq_false_iff_exists_mem.mpr ⟨last, haccepting⟩
  simp only [lack?, hstates, hfirst, hends, Option.isNone_some, Bool.false_eq_true, if_false]

/-- A graph of several states with a chain from its first initial state has the shape of a path. -/
theorem shape_eq_path (hwf : WellFormed supply g) (hcount : g.stateCount ≠ 1) {first last : State}
    {ts : List Transition} (hfirst : g.initialState? = some first)
    (hchain : g.Chain first ts last) :
    g.shape = .path (spelling ts) (g.loopSymbols last.id) := by
  have hlack := lack?_of_chain hfirst hchain
  have hsingle : g.singleShape? = none := by
    simp only [singleShape?, hfirst, hcount, false_and, if_false]
  have hwalk : g.walk? = some (spelling ts, last) :=
    (walk?_eq_some_iff hwf).mpr ⟨first, ts, hfirst, hchain, rfl⟩
  rw [shape, emptyShape?, hlack, hsingle, pathShape?_eq, hwalk]
  rfl

/-! ### Texts accepted along a chain -/

theorem accepts_of_chain {first last : State} {ts : List Transition} {parts : List String}
    (hfirst : first ∈ g.states) (hinitial : first.initial) (hchain : g.Chain first ts last)
    (hparts : ∀ p ∈ parts, p ∈ g.loopSymbols last.id) :
    g.Accepts (spelling ts ++ String.join parts) := by
  obtain ⟨us, hloops, hspell⟩ := exists_run_of_loopSymbols hparts
  refine ⟨first, hfirst, hinitial, last, hchain.last_mem hfirst, hchain.last_accepting, ts ++ us,
    hchain.run.append hloops, ?_⟩
  rw [spelling_append, hspell]

/-- From the beginning of a chain, a run that ends in an accepting state goes along the whole chain
and then through loops at its end. -/
theorem spelling_of_run_of_chain (hwf : WellFormed supply g) {first last final : State}
    {ts us : List Transition} (hchain : g.Chain first ts last) (hfirst : first ∈ g.states)
    (hloops : ∀ t ∈ g.outgoing last.id, t.isLoop) (hfinal : final ∈ g.states)
    (haccepting : final.accepting) (hrun : g.Run first.id us final.id) :
    ∃ parts, (∀ p ∈ parts, p ∈ g.loopSymbols last.id) ∧
      spelling us = spelling ts ++ String.join parts := by
  induction hchain generalizing us with
  | stop =>
    refine ⟨us.map (·.symbol), symbols_of_run_of_loops hloops hrun, ?_⟩
    rw [spelling_nil, String.empty_append, spelling]
  | @on s next last t ts hgoes hway hmoves hnext hrest ih =>
    cases us with
    | nil =>
      -- The run stays at a state that does not accept.
      have hsame : s = final := hwf.state_eq hfirst hfinal (run_nil_iff.mp hrun)
      rw [hsame] at hgoes
      exact absurd haccepting hgoes
    | cons u us =>
      obtain ⟨hout, hrun'⟩ := run_cons_iff.mp hrun
      have hu : u = t := by
        rw [hway] at hout
        exact List.mem_singleton.mp hout
      obtain ⟨hmem, hid⟩ := mem_of_state?_eq_some hnext
      rw [hu, ← hid] at hrun'
      obtain ⟨parts, hparts, hspell⟩ := ih hmem hloops hrun'
      refine ⟨parts, hparts, ?_⟩
      rw [spelling_cons, spelling_cons, hspell, hu, String.append_assoc]

theorem accepts_iff_of_chain (hwf : WellFormed supply g) {first last : State}
    {ts : List Transition} (hchain : g.Chain first ts last) (hfirst : first ∈ g.states)
    (hinitial : first.initial) (honly : ∀ s ∈ g.states, s.initial → s = first)
    (hloops : ∀ t ∈ g.outgoing last.id, t.isLoop) (text : String) :
    g.Accepts text ↔ ∃ parts, (∀ p ∈ parts, p ∈ g.loopSymbols last.id) ∧
      text = spelling ts ++ String.join parts := by
  constructor
  · rintro ⟨s, hs, hsinitial, final, hfinal, haccepting, us, hrun, rfl⟩
    rw [honly s hs hsinitial] at hrun
    exact spelling_of_run_of_chain hwf hchain hfirst hloops hfinal haccepting hrun
  · rintro ⟨parts, hparts, rfl⟩
    exact accepts_of_chain hfirst hinitial hchain hparts

/-! ### Texts denoted and texts accepted -/

/-- Every text that the shape of a graph denotes is accepted by the graph. -/
theorem accepts_of_denotes (g : Graph) {text : String} (htext : g.shape.Denotes text) :
    g.Accepts text := by
  have hshape := recognized_shape g
  generalize g.shape = shape at htext hshape
  cases hshape with
  | lacking => cases htext
  | bare hs _ haccepting _ =>
    cases htext
    obtain ⟨hmem, hinitial⟩ := initialState?_spec hs
    have haccepts := accepts_of_chain hmem hinitial (.stop haccepting) (List.forall_mem_nil _)
    simpa using haccepts
  | looping hs _ haccepting =>
    cases htext with
    | star hparts =>
      obtain ⟨hmem, hinitial⟩ := initialState?_spec hs
      simpa using accepts_of_chain hmem hinitial (.stop haccepting) hparts
  | walked hwalk =>
    cases htext with
    | path hparts =>
      obtain ⟨first, ts, hfirst, hchain, rfl⟩ := chain_of_walk? hwalk
      obtain ⟨hmem, hinitial⟩ := initialState?_spec hfirst
      exact accepts_of_chain hmem hinitial hchain hparts
  | other => cases htext

/-- A saved graph with two initial states, loops side by side and a way on from the state that
accepts. -/
def fork : Snapshot :=
  let origin : Point := ⟨0, 0⟩
  { name := "fork"
    states := [⟨⟨4⟩, "q0", origin, true, false⟩, ⟨⟨2⟩, "q1", origin, false, true⟩,
      ⟨⟨9⟩, "q2", origin, true, false⟩]
    transitions := [⟨⟨0⟩, ⟨4⟩, ⟨2⟩, "a"⟩, ⟨⟨0⟩, ⟨2⟩, ⟨2⟩, "b"⟩, ⟨⟨0⟩, ⟨2⟩, ⟨2⟩, "b"⟩,
      ⟨⟨0⟩, ⟨2⟩, ⟨2⟩, "c"⟩, ⟨⟨0⟩, ⟨2⟩, ⟨9⟩, "d"⟩]
    alphabet := [] }

def forked : Graph := (fork.toGraph .initial).outcome.toOption.getD .unnamed

theorem made_forked : Made (fork.toGraph .initial).supply forked := .loaded fork rfl

theorem shape_forked : forked.shape = .path "a" (.ofList ["b", "c"]) := by
  have hlisted : forked.listedStates = forked.states := List.mergeSort_of_pairwise (by decide)
  have hfirst : forked.initialState? = forked.states[0]? := by
    rw [initialState?, initialStates, hlisted]
    rfl
  exact shape_eq_path made_forked.wellFormed (by decide) hfirst
    (.on (by decide) rfl (by decide) rfl (.stop rfl))

theorem accepts_of_denotes_forked : forked.shape.Denotes "abcb" ∧ forked.Accepts "abcb" := by
  have htext : forked.shape.Denotes "abcb" := by
    rw [shape_forked]
    exact Shape.denotes_path_iff.mpr ⟨["b", "c", "b"], by decide, by decide⟩
  exact ⟨htext, accepts_of_denotes forked htext⟩

theorem not_accepts_of_lack {lack : Shape.Lack} (h : g.lack? = some lack) (text : String) :
    ¬g.Accepts text := by
  rintro ⟨first, hfirst, hinitial, final, hfinal, haccepting, -⟩
  unfold lack? at h
  split at h
  · rename_i hempty
    rw [isEmpty, List.isEmpty_iff] at hempty
    rw [hempty] at hfirst
    exact List.not_mem_nil hfirst
  · split at h
    · rename_i hnone
      have hmem : first ∈ g.initialStates := mem_initialStates.mpr ⟨hfirst, hinitial⟩
      rw [Option.isNone_iff_eq_none, initialState?, List.head?_eq_none_iff] at hnone
      rw [hnone] at hmem
      exact List.not_mem_nil hmem
    · split at h
      · rename_i hnone
        have hmem : final ∈ g.acceptingStates := mem_acceptingStates.mpr ⟨hfinal, haccepting⟩
        rw [List.isEmpty_iff] at hnone
        rw [hnone] at hmem
        exact List.not_mem_nil hmem
      · cases h

/-- In a graph with a single accepting state that is initial, words are made of loops. -/
theorem accepts_iff_of_single (hwf : WellFormed supply g) {s : State}
    (hs : g.initialState? = some s) (hcount : g.stateCount = 1) (haccepting : s.accepting)
    (text : String) :
    g.Accepts text ↔
      ∃ parts, (∀ p ∈ parts, p ∈ g.loopSymbols s.id) ∧ text = String.join parts := by
  obtain ⟨hmem, hinitial⟩ := initialState?_spec hs
  have honly : ∀ t ∈ g.states, t = s := by
    obtain ⟨u, hu⟩ := List.length_eq_one_iff.mp hcount
    rw [hu, List.mem_singleton] at hmem
    intro t ht
    rw [hu, List.mem_singleton] at ht
    rw [ht, hmem]
  have hloops : ∀ t ∈ g.outgoing s.id, t.isLoop := by
    intro t ht
    obtain ⟨htrans, hsource⟩ := mem_outgoing.mp ht
    obtain ⟨u, hu, hid⟩ := hasState_iff.mp (hwf.target_present t htrans)
    rw [honly u hu] at hid
    exact decide_eq_true (hsource.trans hid)
  rw [accepts_iff_of_chain hwf (.stop haccepting) hmem hinitial (fun t ht _ => honly t ht) hloops]
  simp only [spelling_nil, String.empty_append]

theorem accepts_iff_of_bare (hwf : WellFormed supply g) {s : State}
    (hs : g.initialState? = some s) (hcount : g.stateCount = 1) (haccepting : s.accepting)
    (hloops : (g.loopSymbols s.id).isEmpty) (text : String) : g.Accepts text ↔ text = "" := by
  rw [accepts_iff_of_single hwf hs hcount haccepting]
  constructor
  · rintro ⟨parts, hparts, rfl⟩
    have hnone : parts = [] := by
      apply List.eq_nil_iff_forall_not_mem.mpr
      intro p hp
      have hmem := OrderedSet.mem_def.mp (hparts p hp)
      rw [List.isEmpty_iff.mp hloops] at hmem
      exact List.not_mem_nil hmem
    rw [hnone, String.join_nil]
  · rintro rfl
    exact ⟨[], by simp, String.join_nil.symm⟩

/-- An only initial state is the one where reading begins. -/
theorem eq_initialState? {s t : State} (hlength : g.initialStates.length = 1)
    (hs : g.initialState? = some s) (ht : t ∈ g.states) (hinitial : t.initial) : t = s := by
  have hmem : t ∈ g.initialStates := mem_initialStates.mpr ⟨ht, hinitial⟩
  obtain ⟨u, hu⟩ := List.length_eq_one_iff.mp hlength
  rw [initialState?, hu, List.head?_cons, Option.some.injEq] at hs
  rw [hu, List.mem_singleton] at hmem
  rw [hmem, hs]

/-- A shape without words, the empty word and a repetition denote exactly what is accepted. So does
a path, if its beginning is the only initial state and nothing but loops leaves its end. -/
theorem accepts_iff_denotes (h : Made supply g) :
    (((∃ lack, g.shape = .empty lack) ∨ g.shape = .emptyWord ∨ ∃ symbols, g.shape = .star symbols) →
      ∀ text, g.Accepts text ↔ g.shape.Denotes text) ∧
    ∀ stem loops, g.shape = .path stem loops → ∃ last, g.walk? = some (stem, last) ∧
      (g.initialStates.length = 1 → (∀ t ∈ g.outgoing last.id, t.isLoop) →
        ∀ text, g.Accepts text ↔ g.shape.Denotes text) := by
  have hwf := h.wellFormed
  have hshape := recognized_shape g
  generalize g.shape = shape at hshape ⊢
  constructor
  · intro hplain text
    cases hshape with
    | lacking hlack =>
      exact iff_of_false (not_accepts_of_lack hlack text) (Shape.not_denotes_empty _ text)
    | bare hs hcount haccepting hloops =>
      rw [Shape.denotes_emptyWord_iff]
      exact accepts_iff_of_bare hwf hs hcount haccepting hloops text
    | looping hs hcount haccepting =>
      rw [Shape.denotes_star_iff]
      exact accepts_iff_of_single hwf hs hcount haccepting text
    | walked => simp at hplain
    | other => simp [describedShape] at hplain
  · intro stem loops hpath
    cases hshape with
    | @walked stem' last hwalk =>
      cases hpath
      obtain ⟨first, ts, hfirst, hchain, rfl⟩ := chain_of_walk? hwalk
      obtain ⟨hmem, hinitial⟩ := initialState?_spec hfirst
      refine ⟨last, hwalk, ?_⟩
      intro hlength hloops text
      rw [Shape.denotes_path_iff]
      exact accepts_iff_of_chain hwf hchain hmem hinitial (fun s => eq_initialState? hlength hfirst)
        hloops text
    | other => simp [describedShape] at hpath
    | _ => cases hpath

/-- The graph with one initial state and no way on from the state that accepts. -/
def trimmed : Supply × Graph :=
  editAll (fork.toGraph .initial).supply forked
    [.removeTransition ⟨4⟩, .updateState ⟨0⟩ ⟨1, 2⟩ (some true) none]

theorem made_trimmed : Made trimmed.1 trimmed.2 := made_forked.editedAll _

theorem chain_trimmed :
    trimmed.2.Chain ⟨⟨0⟩, "q0", ⟨1, 2⟩, true, false⟩ [⟨⟨0⟩, ⟨0⟩, ⟨1⟩, "a"⟩]
      ⟨⟨1⟩, "q1", ⟨0, 0⟩, false, true⟩ :=
  .on (by decide) rfl (by decide) rfl (.stop rfl)

theorem accepts_iff_denotes_trimmed :
    Made trimmed.1 trimmed.2 ∧ trimmed.2.shape = .path "a" (.ofList ["b", "c"]) ∧
      ∀ text, trimmed.2.Accepts text ↔ trimmed.2.shape.Denotes text := by
  have hlisted : trimmed.2.listedStates = trimmed.2.states :=
    List.mergeSort_of_pairwise (by decide)
  have hinitial : trimmed.2.initialStates = [⟨⟨0⟩, "q0", ⟨1, 2⟩, true, false⟩] := by
    rw [initialStates, hlisted]
    rfl
  have hfirst : trimmed.2.initialState? = some ⟨⟨0⟩, "q0", ⟨1, 2⟩, true, false⟩ := by
    rw [initialState?, hinitial]
    rfl
  have hwf := made_trimmed.wellFormed
  have hshape : trimmed.2.shape = .path "a" (.ofList ["b", "c"]) :=
    shape_eq_path hwf (by decide) hfirst chain_trimmed
  obtain ⟨last, hwalk, hexact⟩ := (accepts_iff_denotes made_trimmed).2 _ _ hshape
  have hend : trimmed.2.walk? = some ("a", ⟨⟨1⟩, "q1", ⟨0, 0⟩, false, true⟩) :=
    (walk?_eq_some_iff hwf).mpr ⟨_, _, hfirst, chain_trimmed, rfl⟩
  cases hwalk.symm.trans hend
  refine ⟨made_trimmed, hshape, hexact ?_ (by decide)⟩
  rw [hinitial]
  rfl

end Graph

end FiniteAutomata
