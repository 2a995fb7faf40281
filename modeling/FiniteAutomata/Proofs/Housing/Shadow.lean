import FiniteAutomata.Proofs.Housing.Edit

/-!
Histories of a graph in lists and of a graph in an arena, side by side (`Shadows`). Both begin with
a name, take in the same states, go through the same changes and wait while others take numbers. At
every moment the one keeps what the other holds (`Shadows.keeps`), and every well-formed graph has
such a shadow in every arena (`exists_shadow`).
-/
namespace FiniteAutomata.Housed

variable {A : Arena State Transition} {a : Housed A} {supply : Supply} {g : Graph}

/-- A graph in an arena that has become what it is along with a graph in lists. -/
inductive Shadows (A : Arena State Transition) : Supply → Graph → Housed A → Prop
  | named (supply : Supply) (name : String) : Shadows A supply (.named name) (named name)
  | imported {supply : Supply} {g : Graph} {a b : Housed A} (h : Shadows A supply g a) (s : State)
      (hid : s.id = supply.nextState) (hb : (importState s).run a = .ok () b) :
      Shadows A supply.afterState (g.insertState s) b
  | edited {supply : Supply} {g : Graph} {a : Housed A} (h : Shadows A supply g a)
      (e : Graph.Edit) :
      Shadows A (g.edit supply e).supply (g.edit supply e).graph (a.edit supply e).graph
  | kept {supply later : Supply} {g : Graph} {a : Housed A} (h : Shadows A supply g a)
      (hle : supply ≤ later) : Shadows A later g a

namespace Shadows

theorem wellFormed (h : Shadows A supply g a) : g.WellFormed supply := by
  induction h with
  | named supply name => exact Graph.wellFormed_named supply name
  | imported _ s hid _ ih => exact ih.insertState s hid
  | edited _ e ih => exact (Graph.strokes_edit _ _ e).wellFormed ih
  | kept _ hle ih => exact ih.wait hle

theorem keeps (hA : A.Lawful) (h : Shadows A supply g a) : a.Keeps g := by
  induction h with
  | named supply name => exact keeps_named hA name
  | imported h s hid hb ih =>
    have hwf := h.wellFormed
    obtain ⟨b', hb', hkept⟩ := ih.importState hA (s := s) fun t ht =>
      hid ▸ hwf.state_id_ne_nextState ht
    cases hb.symm.trans hb'
    exact hkept
  | edited h e ih => exact (ih.edit hA h.wellFormed e).keeps
  | kept _ _ ih => exact ih

/-- A graph in an arena goes along with a row of changes by its own supply. -/
theorem editedAll (hA : A.Lawful) (h : Shadows A supply g a) (es : List Graph.Edit) :
    Shadows A (Graph.editAll supply g es).1 (Graph.editAll supply g es).2
      (a.editAll supply es).2 := by
  induction es generalizing supply g a with
  | nil => exact h
  | cons e es ih =>
    have hsupply := ((h.keeps hA).edit hA h.wellFormed e).supply_eq
    rw [Graph.editAll, Housed.editAll, hsupply]
    exact ih (h.edited e)

/-- One more state is taken in. -/
theorem exists_imported (hA : A.Lawful) (h : Shadows A supply g a) {s : State}
    (hid : s.id = supply.nextState) : ∃ b, Shadows A supply.afterState (g.insertState s) b := by
  have hwf := h.wellFormed
  obtain ⟨b, hb, -⟩ := (h.keeps hA).importState hA (s := s) fun t ht =>
    hid ▸ hwf.state_id_ne_nextState ht
  exact ⟨b, h.imported s hid hb⟩

/-- One more transition is made. -/
theorem exists_joined (h : Shadows A supply g a) {t : Transition}
    (hid : t.id = supply.nextTransition) (hsource : g.hasState t.source)
    (htarget : g.hasState t.target) :
    ∃ b, Shadows A supply.afterTransition (g.insertTransition t) b := by
  have hedit : g.edit supply (.addTransition t.source t.target t.symbol) =
      ⟨.ok (.transition t), supply.afterTransition, g.insertTransition t⟩ := by
    rw [Graph.edit_addTransition_of_known hsource htarget, ← hid]
  have hedited := h.edited (.addTransition t.source t.target t.symbol)
  rw [hedit] at hedited
  exact ⟨_, hedited⟩

end Shadows

/-- States are taken in one after the other. Between any two, others take as many numbers as lie
between theirs. -/
theorem exists_shadow_states (hA : A.Lawful) (name : String) (ss : List State)
    (hincreasing : ss.Pairwise fun s t => s.id.number < t.id.number)
    (hgiven : ∀ s ∈ ss, s.id.number < supply.states) :
    ∃ a, Shadows A supply { Graph.named name with states := ss } a := by
  induction ss using List.reverseRecOn generalizing supply with
  | nil => exact ⟨_, .named supply name⟩
  | append_singleton ss s ih =>
    obtain ⟨hss, -, hlast⟩ := List.pairwise_append.mp hincreasing
    let before : Supply := ⟨s.id.number, supply.transitions⟩
    have hs := hgiven s (List.mem_append_right _ (List.mem_singleton_self s))
    have hle : before.afterState ≤ supply := ⟨hs, Nat.le_refl _⟩
    obtain ⟨a, ha⟩ : ∃ a, Shadows A before { Graph.named name with states := ss } a :=
      ih hss fun t ht => hlast t ht s (List.mem_singleton_self s)
    obtain ⟨b, hb⟩ := ha.exists_imported hA (s := s) rfl
    exact ⟨b, hb.kept hle⟩

theorem exists_shadow_transitions (g : Graph) (ts : List Transition)
    (hstart : ∃ a, Shadows A ⟨supply.states, 0⟩ { g with transitions := [], alphabet := ∅ } a)
    (hincreasing : ts.Pairwise fun t u => t.id.number < u.id.number)
    (hgiven : ∀ t ∈ ts, t.id.number < supply.transitions)
    (hsource : ∀ t ∈ ts, g.hasState t.source) (htarget : ∀ t ∈ ts, g.hasState t.target) :
    ∃ a, Shadows A supply { g with transitions := ts, alphabet := Graph.symbolsOf ts } a := by
  induction ts using List.reverseRecOn generalizing supply with
  | nil =>
    obtain ⟨a, ha⟩ := hstart
    exact ⟨a, ha.kept ⟨Nat.le_refl _, Nat.zero_le _⟩⟩
  | append_singleton ts t ih =>
    obtain ⟨hts, -, hlast⟩ := List.pairwise_append.mp hincreasing
    let before : Supply := ⟨supply.states, t.id.number⟩
    have ht : t ∈ ts ++ [t] := List.mem_append_right _ (List.mem_singleton_self t)
    have hle : before.afterTransition ≤ supply := ⟨Nat.le_refl _, hgiven t ht⟩
    obtain ⟨a, ha⟩ : ∃ a, Shadows A before
        { g with transitions := ts, alphabet := Graph.symbolsOf ts } a :=
      ih hstart hts (fun u hu => hlast u hu t (List.mem_singleton_self t))
        (fun u hu => hsource u (List.mem_append_left _ hu))
        fun u hu => htarget u (List.mem_append_left _ hu)
    obtain ⟨b, hb⟩ := ha.exists_joined (t := t) rfl (hsource t ht) (htarget t ht)
    refine ⟨b, ?_⟩
    rw [Graph.symbolsOf_concat]
    exact hb.kept hle

/-- Every arena can house every graph. -/
theorem exists_shadow (hA : A.Lawful) (hwf : g.WellFormed supply) :
    ∃ a : Housed A, Shadows A supply g a := by
  have hstates : ∃ a, Shadows A ⟨supply.states, 0⟩ { g with transitions := [], alphabet := ∅ } a :=
    exists_shadow_states hA g.name g.states hwf.states_increasing hwf.state_given_out
  have hall : ∃ a, Shadows A supply { g with alphabet := Graph.symbolsOf g.transitions } a :=
    exists_shadow_transitions g g.transitions hstates hwf.transitions_increasing
      hwf.transition_given_out hwf.source_present hwf.target_present
  rwa [← hwf.alphabet_eq] at hall

end FiniteAutomata.Housed
