import FiniteAutomata.Analysis.Shape
import FiniteAutomata.Proofs.Graph.Consistency
import FiniteAutomata.Proofs.Language.Run

/-!
Chains: states from which there is one way on, up to the first that accepts. What `walk` finds is a
chain, a chain is a run, and the loops at its end can be run through in any order. Where nothing but
loops leaves the end of the chain, no other run from its beginning reaches an accepting state.
-/
namespace FiniteAutomata.Graph

/-- The only way on from a state, followed to the first accepting state. -/
inductive Chain (g : Graph) : State → List Transition → State → Prop
  | stop {s : State} (haccepting : s.accepting) : Chain g s [] s
  | on {s next last : State} {t : Transition} {ts : List Transition} (hgoes : ¬s.accepting)
      (hway : g.outgoing s.id = [t]) (hmoves : ¬t.isLoop) (hnext : g.state? t.target = some next)
      (hrest : Chain g next ts last) : Chain g s (t :: ts) last

/-- A walk that arrives has gone along a chain. -/
theorem chain_of_walk {g : Graph} {fresh : List StateId} {s last : State} {stem text : String}
    (h : g.walk fresh s stem = some (text, last)) :
    ∃ ts, g.Chain s ts last ∧ text = stem ++ spelling ts := by
  fun_induction walk g fresh s stem with
  | case1 fresh s stem haccepting =>
    cases h
    exact ⟨[], .stop haccepting, by simp⟩
  | case2 => cases h
  | case3 fresh s stem hgoes hfresh t hway hmoves next hnext ih =>
    obtain ⟨ts, hchain, rfl⟩ := ih h
    exact ⟨t :: ts, .on hgoes hway hmoves hnext hchain, by simp [String.append_assoc]⟩
  | case4 => cases h
  | case5 => cases h
  | case6 => cases h

namespace Chain

variable {g : Graph} {s last : State} {ts : List Transition}

theorem last_accepting (h : g.Chain s ts last) : last.accepting := by
  induction h with
  | stop haccepting => exact haccepting
  | on _ _ _ _ _ ih => exact ih

theorem last_mem (h : g.Chain s ts last) (hs : s ∈ g.states) : last ∈ g.states := by
  induction h with
  | stop => exact hs
  | on _ _ _ hnext _ ih => exact ih (mem_of_state?_eq_some hnext).1

theorem run (h : g.Chain s ts last) : g.Run s.id ts last.id := by
  induction h with
  | stop => exact .stay _
  | on _ hway _ hnext _ ih =>
    rw [run_cons_iff, hway, ← (mem_of_state?_eq_some hnext).2]
    exact ⟨List.mem_singleton_self _, ih⟩

/-- There is only one chain from a state. -/
theorem unique {s last last' : State} {ts us : List Transition} (h : g.Chain s ts last)
    (h' : g.Chain s us last') : ts = us ∧ last = last' := by
  induction h generalizing us with
  | stop haccepting =>
    cases h' with
    | stop => exact ⟨rfl, rfl⟩
    | on hgoes => exact absurd haccepting hgoes
  | on hgoes hway _ hnext _ ih =>
    cases h' with
    | stop haccepting => exact absurd haccepting hgoes
    | on _ hway' _ hnext' hrest' =>
      rw [hway] at hway'
      cases hway'
      rw [hnext] at hnext'
      cases hnext'
      obtain ⟨rfl, rfl⟩ := ih hrest'
      exact ⟨rfl, rfl⟩

end Chain

/-- A walk follows a chain to its end, if the states from which there is a chain no longer than this
one are all fresh. It never meets a state again, because from there the chain would be longer. -/
theorem walk_of_chain {supply : Supply} {g : Graph} (hwf : WellFormed supply g)
    {fresh : List StateId} {s last : State} {ts : List Transition} (stem : String)
    (hchain : g.Chain s ts last) (hs : s ∈ g.states)
    (hfresh : ∀ u ∈ g.states, ∀ us final, g.Chain u us final → us.length ≤ ts.length →
      u.id ∈ fresh) :
    g.walk fresh s stem = some (stem ++ spelling ts, last) := by
  induction hchain generalizing fresh stem with
  | stop haccepting =>
    unfold walk
    rw [if_pos haccepting, spelling_nil, String.append_empty]
  | @on s next last t ts hgoes hway hmoves hnext hrest ih =>
    have hchain : g.Chain s (t :: ts) last := .on hgoes hway hmoves hnext hrest
    have hmem : s.id ∈ fresh := hfresh s hs _ _ hchain (Nat.le_refl _)
    have hfresh' : ∀ u ∈ g.states, ∀ us final, g.Chain u us final → us.length ≤ ts.length →
        u.id ∈ fresh.erase s.id := by
      intro u hu us final hu_chain hlength
      have hne : u.id ≠ s.id := by
        intro hid
        rw [hwf.state_eq hu hs hid] at hu_chain
        obtain ⟨heq, -⟩ := hu_chain.unique hchain
        rw [heq, List.length_cons] at hlength
        omega
      have hu_fresh : u.id ∈ fresh :=
        hfresh u hu us final hu_chain (Nat.le_trans hlength (Nat.le_succ _))
      exact (List.mem_erase_of_ne hne).mpr hu_fresh
    unfold walk
    rw [if_neg hgoes, dif_pos hmem, hway]
    simp only [hmoves, hnext, Bool.false_eq_true, if_false]
    rw [ih (stem ++ t.symbol) (mem_of_state?_eq_some hnext).1 hfresh', spelling_cons,
      String.append_assoc]

/-- The walk along the only way on from the first initial state, and the state at its end. -/
def walk? (g : Graph) : Option (String × State) :=
  g.initialState?.bind fun s => g.walk (g.states.map (·.id)) s ""

theorem initialState?_spec {g : Graph} {s : State} (h : g.initialState? = some s) :
    s ∈ g.states ∧ s.initial :=
  mem_initialStates.mp (List.mem_of_head? h)

theorem chain_of_walk? {g : Graph} {stem : String} {last : State}
    (h : g.walk? = some (stem, last)) :
    ∃ first ts, g.initialState? = some first ∧ g.Chain first ts last ∧ stem = spelling ts := by
  obtain ⟨first, hfirst, hwalk⟩ := Option.bind_eq_some_iff.mp h
  obtain ⟨ts, hchain, hstem⟩ := chain_of_walk hwalk
  exact ⟨first, ts, hfirst, hchain, by rw [hstem, String.empty_append]⟩

/-- The walk arrives exactly where a chain leads. -/
theorem walk?_eq_some_iff {supply : Supply} {g : Graph} (hwf : WellFormed supply g) {stem : String}
    {last : State} :
    g.walk? = some (stem, last) ↔
      ∃ first ts, g.initialState? = some first ∧ g.Chain first ts last ∧ stem = spelling ts := by
  constructor
  · exact chain_of_walk?
  · rintro ⟨first, ts, hfirst, hchain, rfl⟩
    have hwalk : g.walk (g.states.map (·.id)) first "" = some ("" ++ spelling ts, last) :=
      walk_of_chain hwf "" hchain (initialState?_spec hfirst).1
        fun u hu _ _ _ _ => List.mem_map_of_mem hu
    rw [walk?, hfirst, Option.bind_some, hwalk, String.empty_append]

theorem mem_loopSymbols {g : Graph} {id : StateId} {symbol : String} :
    symbol ∈ g.loopSymbols id ↔ ∃ t ∈ g.outgoing id, t.isLoop ∧ t.symbol = symbol := by
  simp only [loopSymbols, OrderedSet.mem_ofList, List.mem_map, List.mem_filter, and_assoc]

theorem target_of_loop {g : Graph} {id : StateId} {t : Transition} (hout : t ∈ g.outgoing id)
    (hloop : t.isLoop) : t.target = id := by
  obtain ⟨-, hsource⟩ := mem_outgoing.mp hout
  have hends : t.source = t.target := of_decide_eq_true hloop
  rw [← hends, hsource]

/-- Loops at a state can be run through in any order and any number. -/
theorem exists_run_of_loopSymbols {g : Graph} {id : StateId} {parts : List String}
    (h : ∀ p ∈ parts, p ∈ g.loopSymbols id) :
    ∃ ts, g.Run id ts id ∧ spelling ts = String.join parts := by
  induction parts with
  | nil => exact ⟨[], .stay id, by simp⟩
  | cons p parts ih =>
    obtain ⟨t, hout, hloop, rfl⟩ := mem_loopSymbols.mp (h p (List.mem_cons_self ..))
    obtain ⟨ts, hrun, hspell⟩ := ih fun q hq => h q (List.mem_cons_of_mem _ hq)
    refine ⟨t :: ts, run_cons_iff.mpr ⟨hout, ?_⟩, ?_⟩
    · rw [target_of_loop hout hloop]
      exact hrun
    · rw [spelling_cons, hspell, String.join_cons]

/-- Where nothing but loops leaves a state, a run from it reads nothing but their symbols. -/
theorem symbols_of_run_of_loops {g : Graph} {a b : StateId} {ts : List Transition}
    (hloops : ∀ t ∈ g.outgoing a, t.isLoop) (h : g.Run a ts b) :
    ∀ p ∈ ts.map (·.symbol), p ∈ g.loopSymbols a := by
  induction ts with
  | nil => exact fun p hp => absurd hp List.not_mem_nil
  | cons t ts ih =>
    obtain ⟨hout, hrest⟩ := run_cons_iff.mp h
    have hloop := hloops t hout
    rw [target_of_loop hout hloop] at hrest
    intro p hp
    rcases List.mem_cons.mp hp with rfl | hp
    · exact mem_loopSymbols.mpr ⟨t, hout, hloop, rfl⟩
    · exact ih hrest p hp

end FiniteAutomata.Graph
