import FiniteAutomata.Proofs.Graph.Effect
import FiniteAutomata.Proofs.Session.Separation

/-!
No change to the graph of a session is lost (`accounted_after`). The commands of all clients come in
one order, whatever it is, and those that change the graph of a session reach it by its token or by
a handle held for it. As long as nobody puts another graph there, each of them changes the graph
that the one before it left. So what the graph holds at the end was there at first or was added, and
has not been taken away since.
-/
namespace FiniteAutomata.Session

open FiniteAutomata.Graph

namespace Moment

variable {m : Moment} {t : Token} {h : Handle}

/-- The change that a moment makes to the graph of a session. -/
def change? (m : Moment) (t : Token) (h : Handle) : Option Edit :=
  match m.command with
  | .edit target e => if target = .session t ∨ target = .held h then some e else none
  | _ => none

/-- A moment deletes a session or puts another graph in the place of its own. -/
def Overwrites (m : Moment) (t : Token) (h : Handle) : Prop :=
  m.Rebinds t ∨ m.command = .reload (.session t) ∨ m.command = .reload (.held h)

/-- A moment adds a state to the graph of a session and answers with it. -/
def Adds (m : Moment) (t : Token) (h : Handle) (p : State) : Prop :=
  ∃ e, m.change? t h = some e ∧ e.places ∧ m.answer = .ok (.effect (.state p))

/-- A moment adds a transition to the graph of a session and answers with it. -/
def Joins (m : Moment) (t : Token) (h : Handle) (u : Transition) : Prop :=
  (m.change? t h).isSome ∧ m.answer = .ok (.effect (.transition u))

/-- A moment takes a state from the graph of a session. -/
def Drops (m : Moment) (t : Token) (h : Handle) (id : StateId) : Prop :=
  ∃ e g, m.change? t h = some e ∧ m.before.graph? h = some g ∧ g.Drops e id

/-- A moment takes a transition from the graph of a session. -/
def Cuts (m : Moment) (t : Token) (h : Handle) (u : Transition) : Prop :=
  ∃ e g, m.change? t h = some e ∧ m.before.graph? h = some g ∧ g.Cuts e u

/-- A moment adds a state to the graph of a session under a label that a client gives. -/
def GivesLabel (m : Moment) (t : Token) (h : Handle) : Prop :=
  ∃ label position, m.change? t h = some (.addLabeledState label position)

theorem change?_eq_some_iff {e : Edit} :
    m.change? t h = some e ↔
      ∃ target, m.command = .edit target e ∧ (target = .session t ∨ target = .held h) := by
  unfold change?
  split
  · rename_i target e' hcommand
    constructor
    · intro hchange
      split at hchange
      · rename_i htarget
        cases hchange
        exact ⟨target, hcommand, htarget⟩
      · cases hchange
    · rintro ⟨target', hcommand', htarget⟩
      rw [hcommand] at hcommand'
      cases hcommand'
      exact if_pos htarget
  · rename_i hother
    refine iff_of_false nofun ?_
    rintro ⟨target, hcommand, -⟩
    exact hother target e hcommand

end Moment

namespace Store

variable {s : Store} {c : Command} {t : Token} {h : Handle} {g : Graph} {cs : List Command}

/-- A token is registered for a handle, in a store such as commands lead to. -/
structure Holds (s : Store) (t : Token) (h : Handle) : Prop where
  sound : s.Sound
  made : s.AllMade
  registered : s.get? t = some h

/-- What the changes of a run make of a graph, each carried out on what the one before it left. -/
def settle (t : Token) (h : Handle) (g : Graph) (ms : List Moment) : Graph :=
  ms.foldl (fun g m => ((m.change? t h).map fun e => (g.edit m.before.supply e).graph).getD g) g

/-- The graph of a session before and after a run is accounted for by the commands of the run. -/
structure Accounted (s : Store) (cs : List Command) (t : Token) (h : Handle) (g g' : Graph) :
    Prop where
  graph_eq : g' = settle t h g (s.history cs)
  states_iff : ∀ r, r ∈ g'.refs ↔
    (r ∈ g.refs ∧ ∀ m ∈ s.history cs, ¬m.Drops t h r.id) ∨
      Moment.Lasts (fun m => ∃ p, m.Adds t h p ∧ .ofState p = r) (·.Drops t h r.id) (s.history cs)
  transitions_iff : ∀ u, u ∈ g'.transitions ↔
    (u ∈ g.transitions ∧ ∀ m ∈ s.history cs, ¬m.Cuts t h u) ∨
      Moment.Lasts (·.Joins t h u) (·.Cuts t h u) (s.history cs)
  labels_distinct : g.labels.Nodup → (∀ m ∈ s.history cs, ¬m.GivesLabel t h) →
    ∀ m ∈ s.history cs, ∃ k, m.after.graph? h = some k ∧ k.labels.Nodup
  labels_counted : g.states = [] → (∀ m ∈ s.history cs, ¬m.GivesLabel t h) →
    (∀ m ∈ s.history cs, ∀ id, ¬m.Drops t h id) →
    ∃ ps : List State,
      ((s.history cs).filter fun m => (m.change? t h).any (·.places)).map (·.answer) =
          ps.map (fun p => .ok (.effect (.state p))) ∧
        ps.map (·.label) = (List.range ps.length).map (fun n => "q" ++ toString n) ∧
        (ps.map (·.id)).Nodup

/-! ### Moments -/

namespace Holds

variable {m : Moment}

theorem after (hs : m.before.Holds t h) (hkept : ¬m.Overwrites t h) : m.after.Holds t h where
  sound := m.move.sound hs.sound
  made := hs.made.perform m.command
  registered := get?_perform_of_not_rebinds hs.registered fun hrebinds => hkept (Or.inl hrebinds)

theorem exists_graph (hs : s.Holds t h) : ∃ g, s.graph? h = some g :=
  hs.sound.exists_graph hs.registered

theorem wellFormed (hs : s.Holds t h) (hgraph : s.graph? h = some g) : g.WellFormed s.supply :=
  hs.made.wellFormed hgraph

theorem handle?_eq (hs : s.Holds t h) {target : Target}
    (htarget : target = .session t ∨ target = .held h) : target.handle? s = some h := by
  rcases htarget with rfl | rfl
  · exact hs.registered
  · rfl

/-- Only a command for the session or for the handle changes the graph. -/
theorem graph?_after (hs : m.before.Holds t h) (hkept : ¬m.Overwrites t h)
    (hchange : m.change? t h = none) : m.after.graph? h = m.before.graph? h := by
  refine m.move.graph?_eq (Or.inl (hs.sound.leads t h hs.registered)) fun hedited => ?_
  obtain ⟨target, hchanged, hhandle⟩ := Option.bind_eq_some_iff.mp hedited
  -- no other token leads to the graph, so what reaches it names the session or the handle
  have htarget : target = .session t ∨ target = .held h := by
    cases target with
    | session u => exact Or.inl (congrArg _ (hs.sound.distinct u t h hhandle hs.registered))
    | held k => exact Or.inr (congrArg _ (Option.some.inj hhandle))
  cases hcommand : m.command with
  | edit target' e =>
    rw [hcommand] at hchanged
    cases hchanged
    have hsome := Moment.change?_eq_some_iff.mpr ⟨target, hcommand, htarget⟩
    rw [hchange] at hsome
    cases hsome
  | reload target' =>
    rw [hcommand] at hchanged
    cases hchanged
    refine hkept (Or.inr (htarget.imp ?_ ?_))
    · rintro rfl
      exact hcommand
    · rintro rfl
      exact hcommand
  | _ =>
    rw [hcommand] at hchanged
    cases hchanged

theorem edit_after (hs : m.before.Holds t h) (hgraph : m.before.graph? h = some g) {e : Edit}
    (hchange : m.change? t h = some e) :
    m.after.graph? h = some (g.edit m.before.supply e).graph ∧
      m.answer = ((g.edit m.before.supply e).answer.map .effect).mapError .ofGraph := by
  obtain ⟨target, hcommand, htarget⟩ := Moment.change?_eq_some_iff.mp hchange
  have hhandle : target.handle? m.before = some h := hs.handle?_eq htarget
  have hfind : m.before.find target = .ok (h, g) := find_of_graph? hhandle hgraph
  rw [Moment.after, Moment.answer, hcommand]
  refine ⟨hs.sound.separated.edit_here target h g e hhandle hgraph, ?_⟩
  simp only [perform, hfind]

theorem answer_eq_iff (hs : m.before.Holds t h) (hgraph : m.before.graph? h = some g) {e : Edit}
    (hchange : m.change? t h = some e) {effect : Effect} :
    m.answer = .ok (.effect effect) ↔ (g.edit m.before.supply e).answer = .ok effect := by
  rw [(hs.edit_after hgraph hchange).2]
  cases (g.edit m.before.supply e).answer with
  | error fault => simp [Except.map, Except.mapError]
  | ok made => simp [Except.map, Except.mapError]

theorem mem_refs_after (hs : m.before.Holds t h) (hkept : ¬m.Overwrites t h) (r : StateRef) :
    (∃ g, m.after.graph? h = some g ∧ r ∈ g.refs) ↔
      (∃ g, m.before.graph? h = some g ∧ r ∈ g.refs) ∧ ¬m.Drops t h r.id ∨
        ∃ p, m.Adds t h p ∧ .ofState p = r := by
  obtain ⟨g, hgraph⟩ := hs.exists_graph
  cases hchange : m.change? t h with
  | none => simp [hs.graph?_after hkept hchange, Moment.Drops, Moment.Adds, hchange]
  | some e =>
    simp [(hs.edit_after hgraph hchange).1, mem_refs_edit (hs.wellFormed hgraph), Moment.Drops,
      Moment.Adds, hchange, hgraph, hs.answer_eq_iff hgraph hchange, and_assoc]

theorem mem_transitions_after (hs : m.before.Holds t h) (hkept : ¬m.Overwrites t h)
    (u : Transition) :
    (∃ g, m.after.graph? h = some g ∧ u ∈ g.transitions) ↔
      (∃ g, m.before.graph? h = some g ∧ u ∈ g.transitions) ∧ ¬m.Cuts t h u ∨ m.Joins t h u := by
  obtain ⟨g, hgraph⟩ := hs.exists_graph
  cases hchange : m.change? t h with
  | none => simp [hs.graph?_after hkept hchange, Moment.Cuts, Moment.Joins, hchange]
  | some e =>
    simp [(hs.edit_after hgraph hchange).1, mem_transitions_edit (hs.wellFormed hgraph),
      Moment.Cuts, Moment.Joins, hchange, hgraph, hs.answer_eq_iff hgraph hchange]

end Holds

/-! ### Runs -/

namespace Holds

theorem forall_before (hs : s.Holds t h) (hkept : ∀ m ∈ s.history cs, ¬m.Overwrites t h) :
    (∀ m ∈ s.history cs, m.before.Holds t h) ∧ (s.after cs).Holds t h :=
  forall_history (P := (Holds · t h)) hs fun m hm hbefore => hbefore.after (hkept m hm)

/-- What every change to the graph of a session keeps of it is kept throughout a run. -/
theorem forall_graphs {Q : Graph → Prop} (hs : s.Holds t h)
    (hkept : ∀ m ∈ s.history cs, ¬m.Overwrites t h)
    (hedit : ∀ m ∈ s.history cs, ∀ e k, m.change? t h = some e → m.before.graph? h = some k →
      k.WellFormed m.before.supply → Q k → Q (k.edit m.before.supply e).graph)
    (hgraph : s.graph? h = some g) (hg : Q g) :
    (∀ m ∈ s.history cs, ∃ k, m.after.graph? h = some k ∧ Q k) ∧
      ∃ k, (s.after cs).graph? h = some k ∧ Q k := by
  obtain ⟨hholds, -⟩ := hs.forall_before hkept
  have hstep (m : Moment) (hm : m ∈ s.history cs)
      (hbefore : ∃ k, m.before.graph? h = some k ∧ Q k) :
      ∃ k, m.after.graph? h = some k ∧ Q k := by
    obtain ⟨k, hk, hQ⟩ := hbefore
    have hm' := hholds m hm
    cases hchange : m.change? t h with
    | none => exact ⟨k, (hm'.graph?_after (hkept m hm) hchange).trans hk, hQ⟩
    | some e =>
      exact ⟨_, (hm'.edit_after hk hchange).1, hedit m hm e k hchange hk (hm'.wellFormed hk) hQ⟩
  obtain ⟨hbefore, hend⟩ :=
    forall_history (P := fun s => ∃ k, s.graph? h = some k ∧ Q k) ⟨g, hgraph, hg⟩ hstep
  exact ⟨fun m hm => hstep m hm (hbefore m hm), hend⟩

theorem settle_eq (hs : s.Holds t h) (hkept : ∀ m ∈ s.history cs, ¬m.Overwrites t h)
    (hgraph : s.graph? h = some g) :
    (s.after cs).graph? h = some (settle t h g (s.history cs)) := by
  induction cs generalizing s g with
  | nil => exact hgraph
  | cons c cs ih =>
    obtain ⟨hfirst, hrest⟩ := List.forall_mem_cons.mp hkept
    have hs : (⟨s, c⟩ : Moment).before.Holds t h := hs
    rw [after_cons, history_cons, settle, List.foldl_cons]
    cases hchange : (⟨s, c⟩ : Moment).change? t h with
    | none => exact ih (hs.after hfirst) hrest ((hs.graph?_after hfirst hchange).trans hgraph)
    | some e => exact ih (hs.after hfirst) hrest (hs.edit_after hgraph hchange).1

/-- As long as no state is taken away, the states that are added stand behind those that were there
at first, in the order of the commands. -/
theorem refs_after_of_keeps (hs : s.Holds t h) (hkept : ∀ m ∈ s.history cs, ¬m.Overwrites t h)
    (hkeeps : ∀ m ∈ s.history cs, ∀ id, ¬m.Drops t h id) (hgraph : s.graph? h = some g) :
    ∃ ps : List State, ∃ k,
      ((s.history cs).filter fun m => (m.change? t h).any (·.places)).map (·.answer) =
          ps.map (fun p => .ok (.effect (.state p))) ∧
        (s.after cs).graph? h = some k ∧ k.refs = g.refs ++ ps.map .ofState := by
  induction cs generalizing s g with
  | nil => exact ⟨[], g, rfl, hgraph, (List.append_nil _).symm⟩
  | cons c cs ih =>
    obtain ⟨hfirst, hrest⟩ := List.forall_mem_cons.mp hkept
    obtain ⟨hfirstKeeps, hrestKeeps⟩ := List.forall_mem_cons.mp hkeeps
    have hs : (⟨s, c⟩ : Moment).before.Holds t h := hs
    have hnext : (s.perform c).2.Holds t h := hs.after hfirst
    rw [history_cons, after_cons]
    cases hchange : (⟨s, c⟩ : Moment).change? t h with
    | none =>
      have hsame : (s.perform c).2.graph? h = some g :=
        (hs.graph?_after hfirst hchange).trans hgraph
      rw [List.filter_cons_of_neg (by simp [hchange])]
      exact ih hnext hrest hrestKeeps hsame
    | some e =>
      have hafter : (s.perform c).2.graph? h = some (g.edit s.supply e).graph :=
        (hs.edit_after hgraph hchange).1
      obtain ⟨ps, k, hanswers, hk, hrefs⟩ := ih hnext hrest hrestKeeps hafter
      cases hplaces : e.places with
      | false =>
        rw [List.filter_cons_of_neg (by simp [hchange, hplaces])]
        refine ⟨ps, k, hanswers, hk, ?_⟩
        rw [hrefs, refs_edit_of_keeps (hs.wellFormed hgraph) hplaces fun id hdrops =>
          hfirstKeeps id ⟨e, g, hchange, hgraph, hdrops⟩]
      | true =>
        obtain ⟨p, hanswer, hstates⟩ := states_edit_of_places hplaces g s.supply
        rw [List.filter_cons_of_pos (by simp [hchange, hplaces]), List.map_cons, hanswers]
        refine ⟨p :: ps, k, ?_, hk, ?_⟩
        · rw [List.map_cons, (hs.answer_eq_iff hgraph hchange).mpr hanswer]
        · rw [hrefs, refs, hstates, List.map_append, List.append_assoc]
          rfl

/-- On a graph without states the states that are added are numbered in the order of the
commands. -/
theorem exists_added (hs : s.Holds t h) (hkept : ∀ m ∈ s.history cs, ¬m.Overwrites t h)
    (hgraph : s.graph? h = some g) (hnone : g.states = [])
    (hunlabeled : ∀ m ∈ s.history cs, ¬m.GivesLabel t h)
    (hkeeps : ∀ m ∈ s.history cs, ∀ id, ¬m.Drops t h id) :
    ∃ ps : List State,
      ((s.history cs).filter fun m => (m.change? t h).any (·.places)).map (·.answer) =
          ps.map (fun p => .ok (.effect (.state p))) ∧
        ps.map (·.label) = (List.range ps.length).map numberedLabel ∧ (ps.map (·.id)).Nodup := by
  obtain ⟨ps, k, hanswers, hk, hrefs⟩ := hs.refs_after_of_keeps hkept hkeeps hgraph
  -- the labels are read off the graph at the end, where no state is missing
  have hcounted : k.Counted := by
    obtain ⟨-, k', hk', hcounted⟩ := hs.forall_graphs (Q := Counted) hkept
      (fun m hm e l hchange hl hwf hl' => hl'.edit hwf
        (fun label position heq => hunlabeled m hm ⟨label, position, heq ▸ hchange⟩)
        fun id hdrops => hkeeps m hm id ⟨e, l, hchange, hl, hdrops⟩)
      hgraph (by simp [Counted, labels, hnone])
    rw [hk] at hk'
    cases hk'
    exact hcounted
  have hadded : k.refs = ps.map .ofState := by simpa [refs, hnone] using hrefs
  have hlabels : k.labels = ps.map (·.label) := by
    rw [labels_eq, hadded, List.map_map]
    rfl
  have hids : k.states.map (·.id) = ps.map (·.id) := by
    have hmapped := congrArg (List.map StateRef.id) hadded
    rwa [refs, List.map_map, List.map_map] at hmapped
  refine ⟨ps, hanswers, ?_, ?_⟩
  · rw [Counted, hlabels, List.length_map] at hcounted
    exact hcounted
  · rw [← hids]
    exact ((hs.forall_before hkept).2.wellFormed hk).state_ids_nodup

theorem accounted (hs : s.Holds t h) (hkept : ∀ m ∈ s.history cs, ¬m.Overwrites t h)
    {g' : Graph} (hgraph : s.graph? h = some g) (hgraph' : (s.after cs).graph? h = some g') :
    s.Accounted cs t h g g' where
  graph_eq := by
    rw [hs.settle_eq hkept hgraph] at hgraph'
    exact (Option.some.inj hgraph').symm
  states_iff r := by
    have hrun := after_iff (P := fun s => ∃ g, s.graph? h = some g ∧ r ∈ g.refs)
      fun m hm => ((hs.forall_before hkept).1 m hm).mem_refs_after (hkept m hm) r
    simpa [hgraph, hgraph'] using hrun
  transitions_iff u := by
    have hrun := after_iff (P := fun s => ∃ g, s.graph? h = some g ∧ u ∈ g.transitions)
      fun m hm => ((hs.forall_before hkept).1 m hm).mem_transitions_after (hkept m hm) u
    simpa [hgraph, hgraph'] using hrun
  labels_distinct hlabels hunlabeled := by
    refine (hs.forall_graphs hkept (fun m hm e k hchange _ hwf hk => ?_) hgraph hlabels).1
    exact nodup_labels_edit hwf hk fun label position heq =>
      hunlabeled m hm ⟨label, position, heq ▸ hchange⟩
  labels_counted := hs.exists_added hkept hgraph

end Holds

/-! ### Main statement -/

/-- Between two commands of one client any commands of others may stand, for this session or for
any other. -/
theorem accounted_after {defaultName : String} {supply : Supply} {generator : Generator}
    {setup : List Command} (hstart : (emptyWith generator defaultName supply).after setup = s)
    (hget : s.get? t = some h)
    (hkept : ∀ m ∈ s.history cs, ¬m.Overwrites t h) :
    ∃ g g', s.graph? h = some g ∧ (s.after cs).get? t = some h ∧
      (s.after cs).graph? h = some g' ∧ s.Accounted cs t h g g' := by
  have hs : s.Holds t h := by
    rw [← hstart] at hget ⊢
    exact ⟨(Sound.empty defaultName supply generator).after setup,
      (allMade_empty defaultName supply generator).after setup, hget⟩
  obtain ⟨-, hend⟩ := hs.forall_before hkept
  obtain ⟨g, hgraph⟩ := hs.exists_graph
  obtain ⟨g', hgraph'⟩ := hend.exists_graph
  exact ⟨g, g', hgraph, hend.registered, hgraph', hs.accounted hkept hgraph hgraph'⟩

/-- A session that was just created. -/
def opened : Store := (empty "Mon Automate" .initial).after [.create none]

/-- Two clients add states, the one by the token and the other by a handle, while a third works on a
session of its own. -/
def crowd : List Command :=
  [.edit (.session (.drawn 0)) (.addState ⟨0, 0⟩), .create none,
    .edit (.held ⟨0⟩) (.addState ⟨1, 0⟩), .edit (.session (.drawn 1)) (.addState ⟨0, 0⟩),
    .edit (.held ⟨0⟩) (.addTransition ⟨0⟩ ⟨1⟩ "a"), .delete (.drawn 1),
    .edit (.session (.drawn 0)) (.addState ⟨2, 0⟩)]

theorem accounted_after_crowd :
    opened.get? (.drawn 0) = some ⟨0⟩ ∧
      (∀ m ∈ opened.history crowd, ¬m.Overwrites (.drawn 0) ⟨0⟩) ∧
      ∃ g g', opened.graph? ⟨0⟩ = some g ∧ (opened.after crowd).graph? ⟨0⟩ = some g' ∧
        opened.Accounted crowd (.drawn 0) ⟨0⟩ g g' ∧
        ∃ ps : List State, ps.map (·.label) = ["q0", "q1", "q2"] ∧ (ps.map (·.id)).Nodup := by
  have hkept : ∀ m ∈ opened.history crowd, ¬m.Overwrites (.drawn 0) ⟨0⟩ := by
    simp [crowd, Moment.Overwrites, Moment.Rebinds]
  have hunlabeled : ∀ m ∈ opened.history crowd, ¬m.GivesLabel (.drawn 0) ⟨0⟩ := by
    simp [crowd, Moment.GivesLabel, Moment.change?]
  have hkeeps : ∀ m ∈ opened.history crowd, ∀ id, ¬m.Drops (.drawn 0) ⟨0⟩ id := by
    have hadds (g : Graph) (id : StateId) (position : Point) :
        ¬g.Drops (.addState position) id := nofun
    have hjoins (g : Graph) (id source target : StateId) (symbol : String) :
        ¬g.Drops (.addTransition source target symbol) id := nofun
    simp [crowd, Moment.Drops, Moment.change?, hadds, hjoins]
  obtain ⟨g, g', hgraph, -, hgraph', haccounted⟩ :=
    accounted_after (s := opened) rfl rfl hkept
  refine ⟨rfl, hkept, g, g', hgraph, hgraph', haccounted, ?_⟩
  obtain rfl : .named "Mon Automate" = g := Option.some.inj hgraph
  obtain ⟨ps, hanswers, hlabels, hids⟩ := haccounted.labels_counted rfl hunlabeled hkeeps
  have hlength : ps.length = 3 := by
    have hadds := congrArg List.length hanswers
    rw [List.length_map, List.length_map] at hadds
    rw [← hadds]
    rfl
  rw [hlength] at hlabels
  exact ⟨ps, hlabels, hids⟩

end Store
end FiniteAutomata.Session
