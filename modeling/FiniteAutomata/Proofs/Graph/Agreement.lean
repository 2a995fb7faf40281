import FiniteAutomata.Proofs.Graph.Refusal
import FiniteAutomata.Proofs.Housing.Shadow
import FiniteAutomata.Proofs.Housing.Shelf
import FiniteAutomata.Proofs.Mirror.Table

/-!
The listings of a graph agree. What the single states list, by way of their slots and the edges that
these see, is what is listed of all transitions, and put together it is all of them, however often
slots were given up and given out again (`listings_agree`).
-/
namespace FiniteAutomata

structure Listings.Agree (l : Listings) : Prop where
  transitions_increasing : l.transitions.Pairwise fun t u => t.id.number < u.id.number
  states_increasing : l.states.Pairwise fun s t =>
    s.label < t.label ∨ s.label = t.label ∧ s.id.number < t.id.number
  state_once : ∀ id, l.states.filter (·.id = id) = (l.state? id).toList
  transition_once : ∀ id, l.transitions.filter (·.id = id) = (l.transition? id).toList
  outgoing_eq : ∀ id, l.outgoing id = l.transitions.filter (·.source = id)
  incoming_eq : ∀ id, l.incoming id = l.transitions.filter (·.target = id)
  of_unknown : ∀ id, l.state? id = none → l.outgoing id = [] ∧ l.incoming id = []
  outgoing_perm : (l.states.flatMap fun s => l.outgoing s.id).Perm l.transitions
  incoming_perm : (l.states.flatMap fun s => l.incoming s.id).Perm l.transitions
  loop_once : ∀ t ∈ l.transitions, t.isLoop →
    (l.states.flatMap fun s => l.outgoing s.id).count t = 1 ∧
      (l.states.flatMap fun s => l.incoming s.id).count t = 1

/-- Where no key occurs twice, what has a key is what is found for it. -/
theorem filter_key_eq_toList {α κ : Type} [DecidableEq κ] {key : α → κ} {as bs : List α}
    (hkeys : (bs.map key).Nodup) (h : as.Perm bs) (k : κ) :
    as.filter (key · = k) = (bs.find? (key · = k)).toList := by
  cases hfound : bs.find? (key · = k) with
  | none =>
    rw [Option.toList_none, List.filter_eq_nil_iff]
    exact fun a ha => List.find?_eq_none.mp hfound a (h.mem_iff.mp ha)
  | some b =>
    have has : as.Nodup := h.nodup_iff.mpr hkeys.of_map
    rw [Option.toList_some, Graph.eq_singleton_iff_of_nodup (has.filter _)]
    intro a
    rw [List.mem_filter, decide_eq_true_eq, h.mem_iff, ← Graph.find?_key_eq_some_iff hkeys, hfound,
      Option.some.injEq, eq_comm]

namespace Graph

variable {supply : Supply} {g : Graph}

namespace WellFormed

/-- Each transition is seen from one state only, and from that once. -/
theorem seen_perm (hwf : WellFormed supply g) (d : Direction) :
    (g.listedStates.flatMap fun s => g.transitions.filter (·.seenFrom d = s.id)).Perm
      g.transitions := by
  have hapart : g.listedStates.Pairwise fun s t => s.id ≠ t.id :=
    List.pairwise_map.mp hwf.consistent.state_ids_nodup
  have hnodup : (g.listedStates.flatMap fun s =>
      g.transitions.filter (·.seenFrom d = s.id)).Nodup := by
    refine List.nodup_flatMap.mpr ⟨fun s _ => hwf.transitions_nodup.filter _, ?_⟩
    refine hapart.imp fun {s t} hne u hs ht => hne ?_
    have hs := (List.mem_filter.mp hs).2
    have ht := (List.mem_filter.mp ht).2
    exact (of_decide_eq_true hs).symm.trans (of_decide_eq_true ht)
  rw [List.perm_ext_iff_of_nodup hnodup hwf.transitions_nodup]
  intro t
  simp only [List.mem_flatMap, List.mem_filter, mem_listedStates, decide_eq_true_eq]
  constructor
  · rintro ⟨s, -, ht, -⟩
    exact ht
  · intro ht
    obtain ⟨s, hs, hid⟩ := hasState_iff.mp (hwf.end_present ht d)
    exact ⟨s, hs, ht, hid.symm⟩

theorem agree (hwf : WellFormed supply g) : g.listings.Agree where
  transitions_increasing := hwf.transitions_increasing
  states_increasing := hwf.listedStates_increasing
  state_once := filter_key_eq_toList hwf.state_ids_nodup g.listedStates_perm
  transition_once := filter_key_eq_toList hwf.transition_ids_nodup (List.Perm.refl _)
  outgoing_eq _ := rfl
  incoming_eq _ := rfl
  of_unknown _ hid :=
    have hunknown := state?_eq_none_iff.mp hid
    ⟨hwf.seen_of_unknown hunknown .outgoing, hwf.seen_of_unknown hunknown .incoming⟩
  outgoing_perm := hwf.seen_perm .outgoing
  incoming_perm := hwf.seen_perm .incoming
  loop_once t ht _ := by
    have honce := List.count_eq_one_of_mem hwf.transitions_nodup ht
    exact ⟨((hwf.seen_perm .outgoing).count_eq t).trans honce,
      ((hwf.seen_perm .incoming).count_eq t).trans honce⟩

end WellFormed

/-- In every graph that can be made the listings agree, and in whatever arena it is, they are the
same. -/
theorem listings_agree (hmade : Made supply g) :
    g.listings.Agree ∧
      ∀ A : Arena State Transition, A.Lawful →
        (∃ a : Housed A, Housed.Shadows A supply g a) ∧
          ∀ a : Housed A, Housed.Shadows A supply g a →
            a.listings = g.listings ∧ a.listings.Agree := by
  have hwf := hmade.wellFormed
  refine ⟨hwf.agree, fun A hA => ⟨Housed.exists_shadow hA hwf, fun a h => ?_⟩⟩
  have heq : a.listings = g.listings := (h.keeps hA).listings_eq hA hwf
  exact ⟨heq, heq ▸ hwf.agree⟩

/-- Edits by which a state goes with a transition, so that younger ones get their slots. The state
in the middle has a loop. -/
def reshuffle : List Edit :=
  [.addLabeledState "b" ⟨0, 0⟩, .addLabeledState "a" ⟨100, 0⟩, .addLabeledState "c" ⟨200, 0⟩,
    .addTransition ⟨0⟩ ⟨1⟩ "x", .addTransition ⟨1⟩ ⟨1⟩ "y", .addTransition ⟨2⟩ ⟨1⟩ "x",
    .removeState ⟨0⟩, .addLabeledState "a" ⟨0, 100⟩, .addTransition ⟨3⟩ ⟨1⟩ "x",
    .addTransition ⟨1⟩ ⟨3⟩ "ε"]

def reshuffled : Supply × Graph := editAll .initial .unnamed reshuffle

def reshuffledHouse : Housed (shelves State Transition) :=
  (Housed.editAll .initial (.named "Automate") reshuffle).2

theorem made_reshuffled : Made reshuffled.1 reshuffled.2 := (Made.named ..).editedAll reshuffle

theorem shadows_reshuffled :
    Housed.Shadows (shelves State Transition) reshuffled.1 reshuffled.2 reshuffledHouse :=
  (Housed.Shadows.named ..).editedAll (lawful_shelves ..) reshuffle

/-- The transition made last but one is in the first slot. -/
theorem listings_agree_reshuffled :
    Made reshuffled.1 reshuffled.2 ∧
      reshuffledHouse.arrows.map (·.id) = [⟨3⟩, ⟨1⟩, ⟨2⟩, ⟨4⟩] ∧
      reshuffledHouse.transitions.map (·.id) = [⟨1⟩, ⟨2⟩, ⟨3⟩, ⟨4⟩] ∧
      (reshuffledHouse.incoming ⟨1⟩).map (·.id) = [⟨1⟩, ⟨2⟩, ⟨3⟩] ∧
      (reshuffledHouse.listedStates.flatMap fun s => reshuffledHouse.incoming s.id).count
        ⟨⟨1⟩, ⟨1⟩, ⟨1⟩, "y"⟩ = 1 := by
  obtain ⟨-, hhoused⟩ := listings_agree made_reshuffled
  obtain ⟨heq, hagree⟩ := (hhoused _ (lawful_shelves ..)).2 _ shadows_reshuffled
  have htransitions : reshuffledHouse.transitions = reshuffled.2.transitions :=
    congrArg Listings.transitions heq
  have hincoming : reshuffledHouse.incoming = reshuffled.2.incoming :=
    congrArg Listings.incoming heq
  have hloop : (⟨⟨1⟩, ⟨1⟩, ⟨1⟩, "y"⟩ : Transition) ∈ reshuffledHouse.transitions := by
    rw [htransitions]
    decide
  refine ⟨made_reshuffled, by decide, ?_, ?_, (hagree.loop_once _ hloop (by decide)).2⟩
  · rw [htransitions]
    decide
  · rw [hincoming]
    decide

end Graph
end FiniteAutomata
