import FiniteAutomata.Proofs.Json.Record
import FiniteAutomata.Proofs.Snapshot.RoundTrip
import FiniteAutomata.Snapshot.Text

/-!
Graphs saved as texts and loaded from them. The text of a snapshot is read as this snapshot, as long
as all its states lie at finite points; a coordinate that is no number is missed when the state is
read. What is loaded is then what the snapshot itself makes.
-/
namespace FiniteAutomata

def Point.isFinite (p : Point) : Bool := p.x.isFinite && p.y.isFinite

/-- The coordinates that are numbers are read back as they are. -/
def Point.ReadsBack (p : Point) : Prop :=
  (p.x.isFinite → Json.ReadsBack p.x) ∧ (p.y.isFinite → Json.ReadsBack p.y)

instance (p : Point) : Decidable p.ReadsBack := inferInstanceAs (Decidable (_ ∧ _))

namespace Snapshot

open Json.Decoder

theorem state_reading {s : State} (hid : s.id.number < UInt64.size)
    (hposition : s.position.ReadsBack) :
    state (stateJson s).reading =
      if s.position.isFinite then .ok s else .error .mismatch := by
  obtain ⟨hx, hy⟩ := hposition
  rw [stateJson, state, record_object rfl (by decide), Json.reading]
  simp only [record, List.map_cons, List.map_nil, Json.readings, readInOrder, member,
    natural_reading hid, text_reading, double_reading hx, double_reading hy, boolean_reading,
    Except.map, Point.isFinite]
  by_cases hxfinite : s.position.x.isFinite = true
  · by_cases hyfinite : s.position.y.isFinite = true
    · simp only [hxfinite, hyfinite, if_true, Bool.and_self]
      rfl
    · simp only [hxfinite, hyfinite, if_true, Bool.and_false, Bool.false_eq_true, if_false]
  · simp only [hxfinite, Bool.false_and, Bool.false_eq_true, if_false]

theorem transition_reading {t : Transition} (hid : t.id.number < UInt64.size)
    (hsource : t.source.number < UInt64.size) (htarget : t.target.number < UInt64.size) :
    transition (transitionJson t).reading = .ok t := by
  rw [transitionJson, transition, record_object rfl (by decide), Json.reading]
  simp only [record, List.map_cons, List.map_nil, Json.readings, readInOrder, member,
    natural_reading hid, natural_reading hsource, natural_reading htarget, text_reading,
    Except.map]
  rfl

/-- What is asked of a snapshot so that its numbers can be read: numbers of states and transitions
have 64 bits, and the coordinates that are numbers are read back. -/
structure Readable (s : Snapshot) : Prop where
  state_ids : ∀ t ∈ s.states, t.id.number < UInt64.size
  transition_ids : ∀ t ∈ s.transitions, t.id.number < UInt64.size
  sources : ∀ t ∈ s.transitions, t.source.number < UInt64.size
  targets : ∀ t ∈ s.transitions, t.target.number < UInt64.size
  positions : ∀ t ∈ s.states, t.position.ReadsBack

/-- A snapshot is read from its text as it is, unless a coordinate of a state is no number. -/
theorem decode_toJson {s : Snapshot} (hs : s.Readable) :
    decode s.toJson.reading =
      if s.states.all (·.position.isFinite) then .ok s else .error .mismatch := by
  have hstates : list state (Json.reading (.list (s.states.map stateJson))) =
      if s.states.all (·.position.isFinite) then .ok s.states else .error .mismatch :=
    list_reading fun t ht => state_reading (hs.state_ids t ht) (hs.positions t ht)
  have htransitions : list transition (Json.reading (.list (s.transitions.map transitionJson))) =
      .ok s.transitions :=
    list_reading_ok fun t ht =>
      transition_reading (hs.transition_ids t ht) (hs.sources t ht) (hs.targets t ht)
  have halphabet : list text (Json.reading (.list (s.alphabet.map .string))) = .ok s.alphabet :=
    list_reading_ok fun symbol _ => text_reading symbol
  rw [toJson, decode, record_object rfl (by decide), Json.reading]
  simp only [record, List.map_cons, List.map_nil, Json.readings, readInOrder, member, text_reading,
    hstates, htransitions, halphabet, Except.map]
  by_cases hfinite : s.states.all (·.position.isFinite) = true
  · simp only [hfinite, if_true]
    rfl
  · simp only [hfinite, Bool.false_eq_true, if_false]

end Snapshot

namespace Graph

variable {supply : Supply} {g : Graph}

/-- A graph whose numbers have 64 bits has a snapshot that can be read. -/
theorem readable_ofGraph (hg : WellFormed supply g) (hstates : supply.states ≤ UInt64.size)
    (htransitions : supply.transitions ≤ UInt64.size)
    (hpositions : ∀ s ∈ g.states, s.position.ReadsBack) : (Snapshot.ofGraph g).Readable := by
  have hid {id : StateId} (hid : g.hasState id) : id.number < UInt64.size := by
    obtain ⟨s, hs, rfl⟩ := hasState_iff.mp hid
    exact Nat.lt_of_lt_of_le (hg.state_given_out s hs) hstates
  refine ⟨?_, ?_, ?_, ?_, ?_⟩
  · intro s hs
    exact hid (hasState_of_mem (mem_listedStates.mp hs))
  · intro t ht
    exact Nat.lt_of_lt_of_le (hg.transition_given_out t ht) htransitions
  · intro t ht
    exact hid (hg.source_present t ht)
  · intro t ht
    exact hid (hg.target_present t ht)
  · intro s hs
    exact hpositions s (mem_listedStates.mp hs)

/-- Loading a saved text is loading the snapshot, if all points are finite. -/
theorem outcome_ofSnapshotText (hread : (Snapshot.ofGraph g).Readable) :
    (ofSnapshotText g.snapshotText supply).outcome =
      if g.states.all (·.position.isFinite) then
        ((Snapshot.ofGraph g).toGraph supply).outcome.mapError .rejected
      else .error (.unreadable .mismatch) := by
  have hall : (Snapshot.ofGraph g).states.all (·.position.isFinite) =
      g.states.all (·.position.isFinite) := g.listedStates_perm.all_eq
  rw [ofSnapshotText, snapshotText, Json.compactText, String.toList_ofList, Json.ofChars_compact]
  simp only [Snapshot.decode_toJson hread, hall]
  by_cases hfinite : g.states.all (·.position.isFinite) = true
  · have hfinished : Json.isFinished [] = true := rfl
    simp only [hfinite, hfinished, if_true]
    cases ((Snapshot.ofGraph g).toGraph supply).outcome <;> rfl
  · simp only [hfinite, Bool.false_eq_true, if_false]

/-- A saved text can be loaded exactly if all states lie at finite points. What is loaded is the
graph under new numbers; otherwise a value in the text is not of the kind that is wanted. Numbers of
states and transitions come from counters of 64 bits, and of the coordinates that are numbers it is
asked that their texts are read back as they are. -/
theorem ofSnapshotText_snapshotText (hmade : Made supply g) (hstates : supply.states ≤ UInt64.size)
    (htransitions : supply.transitions ≤ UInt64.size)
    (hpositions : ∀ s ∈ g.states, s.position.ReadsBack) :
    ((∃ h, (ofSnapshotText g.snapshotText supply).outcome = .ok h) ↔
        ∀ s ∈ g.states, s.position.isFinite) ∧
      ((∀ s ∈ g.states, s.position.isFinite) →
        ∃ h ρ τ, (ofSnapshotText g.snapshotText supply).outcome = .ok h ∧
          Renumbers supply ρ τ g h ∧ Views ρ τ g h) ∧
      ((∃ s ∈ g.states, ¬s.position.isFinite) →
        (ofSnapshotText g.snapshotText supply).outcome = .error (.unreadable .mismatch)) := by
  have hwf := hmade.wellFormed
  have hread := readable_ofGraph hwf hstates htransitions hpositions
  obtain ⟨h, ρ, τ, hload, hr⟩ := exists_renumbers hwf
  have hviews := hr.views hwf (Made.loaded _ hload).wellFormed
  have hloaded (hfinite : ∀ s ∈ g.states, s.position.isFinite) :
      (ofSnapshotText g.snapshotText supply).outcome = .ok h := by
    rw [outcome_ofSnapshotText hread, if_pos (List.all_eq_true.mpr hfinite), hload]
    rfl
  have hrefused (hinfinite : ¬∀ s ∈ g.states, s.position.isFinite) :
      (ofSnapshotText g.snapshotText supply).outcome = .error (.unreadable .mismatch) := by
    rw [outcome_ofSnapshotText hread, if_neg]
    exact fun hall => hinfinite (List.all_eq_true.mp hall)
  refine ⟨⟨?_, fun hfinite => ⟨h, hloaded hfinite⟩⟩, ?_, ?_⟩
  · rintro ⟨k, hk⟩
    by_contra hinfinite
    rw [hrefused hinfinite] at hk
    cases hk
  · intro hfinite
    exact ⟨h, ρ, τ, hloaded hfinite, hr, hviews⟩
  · rintro ⟨s, hs, hinfinite⟩
    exact hrefused fun hfinite => hinfinite (hfinite s hs)

/-- Texts that have to be escaped, an empty label, and coordinates of all sizes. -/
def quaint : Supply × Graph :=
  editAll .initial (.named "\"q\\")
    [.addLabeledState "\x01\n" ⟨1.5, -0.0⟩, .addLabeledState "" ⟨0.1, 1e300⟩,
      .addTransition ⟨0⟩ ⟨1⟩ "\"\\\t", .addTransition ⟨1⟩ ⟨1⟩ ""]

/-- The same graph with a state that is infinitely far away. -/
def distant : Supply × Graph := editAll quaint.1 quaint.2 [.addState ⟨0, 1.0 / 0.0⟩]

theorem made_quaint : Made quaint.1 quaint.2 := (Made.named ..).editedAll _

theorem made_distant : Made distant.1 distant.2 := made_quaint.editedAll _

theorem ofSnapshotText_snapshotText_quaint :
    (∃ h, (ofSnapshotText quaint.2.snapshotText quaint.1).outcome = .ok h ∧ h.name = "\"q\\" ∧
        h.transitions.map (·.symbol) = ["\"\\\t", ""]) ∧
      (ofSnapshotText distant.2.snapshotText distant.1).outcome =
        .error (.unreadable .mismatch) := by
  constructor
  · obtain ⟨-, hloaded, -⟩ := ofSnapshotText_snapshotText made_quaint (by decide) (by decide)
      (by decide +kernel)
    obtain ⟨h, ρ, τ, hload, hr, -⟩ := hloaded (by decide +kernel)
    have hsymbols : quaint.2.transitions.map (·.symbol) = ["\"\\\t", ""] := by decide +kernel
    refine ⟨h, hload, hr.name_eq, ?_⟩
    rw [hr.transitions_eq, List.map_map]
    exact hsymbols
  · obtain ⟨-, -, hrefused⟩ := ofSnapshotText_snapshotText made_distant (by decide) (by decide)
      (by decide +kernel)
    exact hrefused (by decide +kernel)

end Graph

end FiniteAutomata
