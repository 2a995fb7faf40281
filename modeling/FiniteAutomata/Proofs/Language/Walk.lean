import FiniteAutomata.Proofs.Language.Shape

/-!
How the walk from an initial state goes, pace by pace (`walked`). It arrives exactly if there is a
row of states along which the only way on leads, up to the first that accepts. No state can occur
twice in such a row, so a walk that comes back to a state it has passed may be given up. It passes a
new state at every pace, so it ends after as many paces as there are states, on graphs with circles
too, and whatever it follows leads to a state of the graph.
-/
namespace FiniteAutomata.Graph

variable {supply : Supply} {g : Graph}

/-- States in a row. From each but the last there is exactly one way on, which leads to the next
one, and only the last accepts. -/
structure Straight (g : Graph) (s : Nat → State) (ts : List Transition) : Prop where
  member : ∀ i ≤ ts.length, s i ∈ g.states
  goes_on : ∀ i < ts.length, (s i).accepting = false
  only_way : ∀ i (hi : i < ts.length), ∀ u, u ∈ g.transitions ∧ u.source = (s i).id ↔ u = ts[i]
  leads : ∀ i (hi : i < ts.length), ts[i].target = (s (i + 1)).id
  moves : ∀ i < ts.length, (s (i + 1)).id ≠ (s i).id
  arrives : (s ts.length).accepting

/-! ### Paces -/

/-- Where a walk has come to: the states that it has passed, the state that it is at, and the
symbols on the way. -/
structure Walker where
  passed : List StateId
  here : State
  stem : String

/-- Why a walk ends: its state accepts, or was passed before, or has no way on or several, or only
a way back to itself, or one to a state that is not there. -/
inductive Halt
  | arrived
  | circled
  | undecided
  | looping
  | lost (id : StateId)
deriving DecidableEq

/-- What a walk does next: it goes on to another state, or it ends. -/
def pace (g : Graph) (w : Walker) : Except Halt Walker :=
  if w.here.accepting then .error .arrived
  else if w.here.id ∈ w.passed then .error .circled
  else
    match g.outgoing w.here.id with
    | [t] =>
      if t.isLoop then .error .looping
      else
        match g.state? t.target with
        | some next => .ok ⟨w.here.id :: w.passed, next, w.stem ++ t.symbol⟩
        | none => .error (.lost t.target)
    | _ => .error .undecided

/-- A walk goes so many paces from one place to another. -/
inductive Paces (g : Graph) : Nat → Walker → Walker → Prop
  | none (w : Walker) : Paces g 0 w w
  | more {n : Nat} {w next last : Walker} (hpace : g.pace w = .ok next)
      (hrest : Paces g n next last) : Paces g (n + 1) w last

/-- A walk ends after so many paces. -/
def Ends (g : Graph) (n : Nat) (start last : Walker) (halt : Halt) : Prop :=
  g.Paces n start last ∧ g.pace last = .error halt

/-- What the shape of a path tells of a graph, and how it is looked for. -/
structure Walked (g : Graph) : Prop where
  pathShape?_iff : ∀ shape, g.pathShape? = some shape ↔
    ∃ s ts loops, g.initialState? = some (s 0) ∧ g.Straight s ts ∧
      shape = .path (String.join (ts.map (·.symbol))) loops ∧
      ∀ symbol, symbol ∈ loops ↔ ∃ u ∈ g.transitions,
        u.source = (s ts.length).id ∧ u.target = (s ts.length).id ∧ u.symbol = symbol
  distinct : ∀ s ts, g.Straight s ts →
    ∀ i ≤ ts.length, ∀ j ≤ ts.length, (s i).id = (s j).id → i = j
  ends : ∀ first, g.initialState? = some first →
    ∃ n ≤ g.stateCount, ∃ last halt, g.Ends n ⟨[], first, ""⟩ last halt ∧
      (∀ id, halt ≠ .lost id) ∧
      g.pathShape? =
        if halt = .arrived then some (.path last.stem (g.loopSymbols last.here.id)) else none

/-! ### Rows of states -/

theorem WellFormed.outgoing_eq_singleton_iff (hwf : WellFormed supply g) {id : StateId}
    {t : Transition} :
    g.outgoing id = [t] ↔ ∀ u, u ∈ g.transitions ∧ u.source = id ↔ u = t := by
  simp only [eq_singleton_iff_of_nodup (hwf.outgoing_nodup id), mem_outgoing]

namespace Straight

variable {s : Nat → State} {t : Transition} {ts : List Transition}

theorem drop (h : g.Straight s ts) {k : Nat} (hk : k ≤ ts.length) :
    g.Straight (fun i => s (k + i)) (ts.drop k) where
  member i hi := h.member (k + i) (by rw [List.length_drop] at hi; omega)
  goes_on i hi := h.goes_on (k + i) (by rw [List.length_drop] at hi; omega)
  only_way i hi u := by
    rw [List.getElem_drop]
    exact h.only_way (k + i) _ u
  leads i hi := by
    rw [List.getElem_drop]
    exact h.leads (k + i) _
  moves i hi := h.moves (k + i) (by rw [List.length_drop] at hi; omega)
  arrives := by
    have hlength : k + (ts.drop k).length = ts.length := by
      rw [List.length_drop]
      omega
    rw [hlength]
    exact h.arrives

/-- A row of states is a chain. -/
theorem chain (hwf : WellFormed supply g) (h : g.Straight s ts) :
    g.Chain (s 0) ts (s ts.length) := by
  induction ts generalizing s with
  | nil => exact .stop h.arrives
  | cons t ts ih =>
    have hpos : 0 < (t :: ts).length := Nat.succ_pos _
    have hgoes : ¬(s 0).accepting := by
      rw [h.goes_on 0 hpos]
      exact Bool.false_ne_true
    have hway : g.outgoing (s 0).id = [t] := hwf.outgoing_eq_singleton_iff.mpr (h.only_way 0 hpos)
    have hleads : t.target = (s 1).id := h.leads 0 hpos
    have hmoves : ¬t.isLoop := by
      have hsource : t ∈ g.outgoing (s 0).id := hway ▸ List.mem_singleton_self t
      intro hloop
      exact h.moves 0 hpos (hleads.symm.trans (target_of_loop hsource hloop))
    have hnext : g.state? t.target = some (s 1) :=
      hwf.state?_eq_some_iff.mpr ⟨h.member 1 hpos, hleads.symm⟩
    have htail : g.Straight (fun i => s (i + 1)) ts := by
      simpa only [Nat.add_comm, List.drop_one, List.tail_cons] using h.drop hpos
    exact .on hgoes hway hmoves hnext (ih htail)

/-- From two places in a row the way to its end differs in length, so no state stands in both. -/
theorem eq_of_id_eq (hwf : WellFormed supply g) (h : g.Straight s ts) {i j : Nat}
    (hi : i ≤ ts.length) (hj : j ≤ ts.length) (hid : (s i).id = (s j).id) : i = j := by
  have hsame : s i = s j := hwf.state_eq (h.member i hi) (h.member j hj) hid
  have hchain := (h.drop hi).chain hwf
  have hchain' := (h.drop hj).chain hwf
  simp only [Nat.add_zero, hsame] at hchain hchain'
  have hlength := congrArg List.length (hchain.unique hchain').1
  rw [List.length_drop, List.length_drop] at hlength
  omega

end Straight

/-- A row with one state before the others. -/
def before (first : State) (s : Nat → State) : Nat → State
  | 0 => first
  | i + 1 => s i

theorem Straight.cons {first : State} {s : Nat → State} {t : Transition} {ts : List Transition}
    (hfirst : first ∈ g.states) (hgoes : first.accepting = false)
    (hway : ∀ u, u ∈ g.transitions ∧ u.source = first.id ↔ u = t) (hleads : t.target = (s 0).id)
    (hmoves : (s 0).id ≠ first.id) (h : g.Straight s ts) :
    g.Straight (before first s) (t :: ts) where
  member
    | 0, _ => hfirst
    | i + 1, hi => h.member i (Nat.le_of_succ_le_succ hi)
  goes_on
    | 0, _ => hgoes
    | i + 1, hi => h.goes_on i (Nat.lt_of_succ_lt_succ hi)
  only_way
    | 0, _ => hway
    | i + 1, hi => h.only_way i (Nat.lt_of_succ_lt_succ hi)
  leads
    | 0, _ => hleads
    | i + 1, hi => h.leads i (Nat.lt_of_succ_lt_succ hi)
  moves
    | 0, _ => hmoves
    | i + 1, hi => h.moves i (Nat.lt_of_succ_lt_succ hi)
  arrives := h.arrives

/-- The states along a chain are in a row. -/
theorem Chain.exists_straight (hwf : WellFormed supply g) {first last : State}
    {ts : List Transition} (h : g.Chain first ts last) (hfirst : first ∈ g.states) :
    ∃ s, s 0 = first ∧ s ts.length = last ∧ g.Straight s ts := by
  induction h with
  | @stop state haccepting =>
    refine ⟨fun _ => state, rfl, rfl, ?_⟩
    constructor
    case member => exact fun _ _ => hfirst
    case arrives => exact haccepting
    all_goals exact fun _ hi => absurd hi (Nat.not_lt_zero _)
  | @on state next last t ts hgoes hway hmoves hnext hrest ih =>
    obtain ⟨hmem, hid⟩ := mem_of_state?_eq_some hnext
    obtain ⟨s, rfl, rfl, hstraight⟩ := ih hmem
    have hsource : t.source = state.id :=
      (mem_outgoing.mp (hway ▸ List.mem_singleton_self t)).2
    have hother : (s 0).id ≠ state.id := by
      intro hback
      exact hmoves (decide_eq_true (hsource.trans (hback.symm.trans hid)))
    exact ⟨before state s, rfl, rfl, .cons hfirst (by simpa using hgoes)
      (hwf.outgoing_eq_singleton_iff.mp hway) hid.symm hother hstraight⟩

/-! ### Paces -/

/-- A walk that ends without a pace has taken none. -/
theorem ends_of_pace {start : Walker} {halt : Halt} (hpace : g.pace start = .error halt) :
    g.Ends 0 start start halt := ⟨.none start, hpace⟩

theorem Ends.more {n : Nat} {start next last : Walker} {halt : Halt}
    (hpace : g.pace start = .ok next) (hrest : g.Ends n next last halt) :
    g.Ends (n + 1) start last halt := ⟨.more hpace hrest.1, hrest.2⟩

/-- A walk passes a fresh state at every pace, so it ends before it has taken more paces than there
were fresh states. It ends as `walk` does. -/
theorem WellFormed.exists_ends (hwf : WellFormed supply g) {fresh : List StateId} {s : State}
    (stem : String) (passed : List StateId) (hnodup : fresh.Nodup)
    (hfresh : ∀ u ∈ g.states, u.id ∈ fresh ↔ u.id ∉ passed) (hs : s ∈ g.states) :
    ∃ n ≤ fresh.length, ∃ last halt, g.Ends n ⟨passed, s, stem⟩ last halt ∧
      (∀ id, halt ≠ .lost id) ∧
      g.walk fresh s stem = if halt = .arrived then some (last.stem, last.here) else none := by
  fun_induction walk g fresh s stem generalizing passed with
  | case1 fresh s stem haccepting =>
    exact ⟨0, Nat.zero_le _, _, .arrived, ends_of_pace (if_pos haccepting),
      fun _ => Halt.noConfusion, rfl⟩
  | case2 fresh s stem hgoes hmem t hway hloop =>
    have hnew := (hfresh s hs).mp hmem
    refine ⟨0, Nat.zero_le _, _, .looping, ends_of_pace ?_, fun _ => Halt.noConfusion, rfl⟩
    simp [pace, hgoes, hnew, hway, hloop]
  | case3 fresh s stem hgoes hmem t hway hmoves next hnext ih =>
    have hnew := (hfresh s hs).mp hmem
    have hpace : g.pace ⟨passed, s, stem⟩ = .ok ⟨s.id :: passed, next, stem ++ t.symbol⟩ := by
      simp [pace, hgoes, hnew, hway, hmoves, hnext]
    have hfresh' : ∀ u ∈ g.states, u.id ∈ fresh.erase s.id ↔ u.id ∉ s.id :: passed := by
      intro u hu
      rw [hnodup.mem_erase_iff, hfresh u hu, List.mem_cons, not_or]
    obtain ⟨n, hn, last, halt, hends, hfound, hwalk⟩ :=
      ih (s.id :: passed) (hnodup.erase s.id) hfresh' (mem_of_state?_eq_some hnext).1
    refine ⟨n + 1, ?_, last, halt, hends.more hpace, hfound, hwalk⟩
    rw [List.length_erase_of_mem hmem] at hn
    have := List.length_pos_of_mem hmem
    omega
  | case4 fresh s stem hgoes hmem t hway hmoves hnone =>
    -- the end of a transition is a state of the graph
    have ht : t ∈ g.outgoing s.id := hway ▸ List.mem_singleton_self t
    obtain ⟨u, hu, hid⟩ := hasState_iff.mp (hwf.target_present t (mem_outgoing.mp ht).1)
    cases hnone.symm.trans (hwf.state?_eq_some_iff.mpr ⟨hu, hid⟩)
  | case5 fresh s stem hgoes hmem hway =>
    have hnew := (hfresh s hs).mp hmem
    refine ⟨0, Nat.zero_le _, _, .undecided, ends_of_pace ?_, fun _ => Halt.noConfusion, rfl⟩
    simp [pace, hgoes, hnew]
  | case6 fresh s stem hgoes hmem =>
    have hold : s.id ∈ passed := by
      by_contra hnew
      exact hmem ((hfresh s hs).mpr hnew)
    refine ⟨0, Nat.zero_le _, _, .circled, ends_of_pace ?_, fun _ => Halt.noConfusion, rfl⟩
    simp [pace, hgoes, hold]

/-! ### Main statement -/

theorem mem_loopSymbols_iff {id : StateId} {symbol : String} :
    symbol ∈ g.loopSymbols id ↔
      ∃ u ∈ g.transitions, u.source = id ∧ u.target = id ∧ u.symbol = symbol := by
  rw [mem_loopSymbols]
  constructor
  · rintro ⟨u, hout, hloop, hsymbol⟩
    obtain ⟨hu, hsource⟩ := mem_outgoing.mp hout
    exact ⟨u, hu, hsource, target_of_loop hout hloop, hsymbol⟩
  · rintro ⟨u, hu, hsource, htarget, hsymbol⟩
    exact ⟨u, mem_outgoing.mpr ⟨hu, hsource⟩, decide_eq_true (hsource.trans htarget.symm), hsymbol⟩

theorem WellFormed.pathShape?_iff (hwf : WellFormed supply g) (shape : Shape) :
    g.pathShape? = some shape ↔
      ∃ s ts loops, g.initialState? = some (s 0) ∧ g.Straight s ts ∧
        shape = .path (String.join (ts.map (·.symbol))) loops ∧
        ∀ symbol, symbol ∈ loops ↔ ∃ u ∈ g.transitions,
          u.source = (s ts.length).id ∧ u.target = (s ts.length).id ∧ u.symbol = symbol := by
  rw [pathShape?_eq, Option.map_eq_some_iff]
  constructor
  · rintro ⟨⟨stem, last⟩, hwalk, rfl⟩
    obtain ⟨first, ts, hfirst, hchain, rfl⟩ := (walk?_eq_some_iff hwf).mp hwalk
    obtain ⟨s, rfl, rfl, hstraight⟩ := hchain.exists_straight hwf (initialState?_spec hfirst).1
    exact ⟨s, ts, _, hfirst, hstraight, rfl, fun _ => mem_loopSymbols_iff⟩
  · rintro ⟨s, ts, loops, hfirst, hstraight, rfl, hloops⟩
    have hwalk : g.walk? = some (spelling ts, s ts.length) :=
      (walk?_eq_some_iff hwf).mpr ⟨s 0, ts, hfirst, hstraight.chain hwf, rfl⟩
    obtain rfl : g.loopSymbols (s ts.length).id = loops :=
      OrderedSet.ext fun symbol => mem_loopSymbols_iff.trans (hloops symbol).symm
    exact ⟨_, hwalk, rfl⟩

theorem walked (hmade : Made supply g) : g.Walked := by
  have hwf := hmade.wellFormed
  constructor
  case pathShape?_iff => exact hwf.pathShape?_iff
  case distinct => exact fun s ts h i hi j hj => h.eq_of_id_eq hwf hi hj
  case ends =>
    intro first hfirst
    have hfresh : ∀ u ∈ g.states, u.id ∈ g.states.map (·.id) ↔ u.id ∉ ([] : List StateId) :=
      fun u hu => iff_of_true (List.mem_map_of_mem hu) List.not_mem_nil
    obtain ⟨n, hn, last, halt, hends, hfound, hwalk⟩ :=
      hwf.exists_ends "" [] hwf.state_ids_nodup hfresh (initialState?_spec hfirst).1
    rw [List.length_map] at hn
    refine ⟨n, hn, last, halt, hends, hfound, ?_⟩
    simp only [pathShape?, hfirst, hwalk]
    split
    · rfl
    · rfl

/-- Three states in a row, with a move that reads nothing on the way and a way back from the end. -/
def corridor : Supply × Graph :=
  editAll .initial .unnamed
    [.addState ⟨0, 0⟩, .addState ⟨1, 0⟩, .addState ⟨2, 0⟩,
      .updateState ⟨0⟩ ⟨0, 0⟩ (some true) none, .updateState ⟨2⟩ ⟨2, 0⟩ none (some true),
      .addTransition ⟨0⟩ ⟨1⟩ "a", .addTransition ⟨1⟩ ⟨2⟩ "epsilon", .addTransition ⟨2⟩ ⟨2⟩ "b",
      .addTransition ⟨2⟩ ⟨0⟩ "c"]

theorem walked_corridor :
    Made corridor.1 corridor.2 ∧
      corridor.2.pathShape? = some (.path "aepsilon" (.ofList ["b"])) ∧
      ∃ n ≤ 3, ∃ first last halt, corridor.2.Ends n ⟨[], first, ""⟩ last halt := by
  have hmade : Made corridor.1 corridor.2 := (Made.named .initial "Automate").editedAll _
  have hlisted : corridor.2.listedStates = corridor.2.states :=
    List.mergeSort_of_pairwise (by decide)
  have hfirst : corridor.2.initialState? = some ⟨⟨0⟩, "q0", ⟨0, 0⟩, true, false⟩ := by
    rw [initialState?, initialStates, hlisted]
    rfl
  have hchain : corridor.2.Chain ⟨⟨0⟩, "q0", ⟨0, 0⟩, true, false⟩
      [⟨⟨0⟩, ⟨0⟩, ⟨1⟩, "a"⟩, ⟨⟨1⟩, ⟨1⟩, ⟨2⟩, "epsilon"⟩] ⟨⟨2⟩, "q2", ⟨2, 0⟩, false, true⟩ :=
    .on (by decide) rfl (by decide) rfl (.on (by decide) rfl (by decide) rfl (.stop rfl))
  obtain ⟨s, hs, hlast, hstraight⟩ :=
    hchain.exists_straight hmade.wellFormed (initialState?_spec hfirst).1
  have hpath : corridor.2.pathShape? = some (.path "aepsilon" (.ofList ["b"])) := by
    refine ((walked hmade).pathShape?_iff _).mpr ⟨s, _, .ofList ["b"], hs ▸ hfirst, hstraight,
      by decide, fun symbol => ?_⟩
    rw [hlast, ← mem_loopSymbols_iff]
    exact Iff.rfl
  obtain ⟨n, hn, last, halt, hends, -, -⟩ := (walked hmade).ends _ hfirst
  exact ⟨hmade, hpath, n, hn, _, last, halt, hends⟩

end FiniteAutomata.Graph
