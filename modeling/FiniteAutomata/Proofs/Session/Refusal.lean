import FiniteAutomata.Proofs.Housing.Shadow
import FiniteAutomata.Proofs.Session.Run

/-!
When a command fails, and what it leaves then (`atomic_after`). A store refuses a command for a
token that is not registered, an edit that the graph refuses, and a load that gives no graph, and
nothing else (`perform_eq_error_iff`). What is refused has changed no token and no graph, and only a
load that broke off has taken numbers.
-/
namespace FiniteAutomata.Session

/-- Whether a command loads a graph from a text before it touches the store. -/
def Command.loads : Command → Bool
  | .replace .. | .reload _ => true
  | _ => false

namespace Store

variable {s : Store} {c : Command} {t : Token} {e : Error}

/-- Why a store refuses a command. -/
inductive Refuses (s : Store) : Command → Error → Prop
  | session {c : Command} {t : Token} (hasked : c.asked? = some t)
      (hunknown : s.contains t = false) :
      Refuses s c (.unknownSession t)
  | edit {target : Target} {h : Handle} {g : Graph} {change : Graph.Edit} {fault : Graph.Fault}
      (hfind : s.find target = .ok (h, g)) (hrefuses : g.Refuses change fault) :
      Refuses s (.edit target change) (.ofGraph fault)
  | load {t : Token} {source : Source} {e : Error}
      (hload : (source.load s.supply).outcome = .error e) : Refuses s (.replace t source) e
  | reload {target : Target} {h : Handle} {g : Graph} {fault : Snapshot.TextFault}
      (hfind : s.find target = .ok (h, g))
      (hload : (Graph.ofSnapshotText g.snapshotText s.supply).outcome = .error fault) :
      Refuses s (.reload target) (.snapshotText fault)

/-- All or nothing: what a command leaves if it fails, and when it fails. -/
structure Atomic (s : Store) : Prop where
  kept : ∀ c e, (s.perform c).1 = .error e →
    (s.perform c).2 = { s with supply := (s.perform c).2.supply }
  unspent : ∀ c e, (s.perform c).1 = .error e → c.loads = false → (s.perform c).2 = s
  fails_iff : ∀ c e, (s.perform c).1 = .error e ↔ s.Refuses c e
  unknownSession_iff : ∀ c t,
    (s.perform c).1 = .error (.unknownSession t) ↔ c.asked? = some t ∧ s.contains t = false
  registered : ∀ t, s.contains t → ∃ h g, s.get? t = some h ∧ s.graph? h = some g ∧
    ∀ c e, c.asked? = some t → c.loads = false →
      ((s.perform c).1 = .error e ↔
        ∃ change fault, c = .edit (.session t) change ∧ g.Refuses change fault ∧
          e = .ofGraph fault)

/-! ### Loading -/

theorem mapError_eq_error_iff {ε ε' α : Type} {f : ε → ε'} {r : Except ε α} {e : ε'} :
    r.mapError f = .error e ↔ ∃ fault, r = .error fault ∧ f fault = e := by
  cases r <;> simp [Except.mapError]

/-- No load ever looks for a session. -/
theorem load_ne_unknownSession (source : Source) (supply : Supply) (t : Token) :
    (source.load supply).outcome ≠ .error (.unknownSession t) := by
  intro hload
  cases source with
  | document text =>
    obtain ⟨fault, -, heq⟩ := mapError_eq_error_iff.mp hload
    cases heq
  | saved text =>
    obtain ⟨fault, -, heq⟩ := mapError_eq_error_iff.mp hload
    cases heq
  | snapshot text =>
    simp only [Source.load] at hload
    split at hload
    · cases hload
    · obtain ⟨fault, -, heq⟩ := mapError_eq_error_iff.mp hload
      cases fault <;> cases heq
  | named name => cases hload
  | unnamed => cases hload

/-! ### Failing -/

theorem refuses_of_perform (hfails : (s.perform c).1 = .error e) : s.Refuses c e := by
  have hstep := step_perform s c
  generalize s.perform c = outcome at hstep hfails
  cases hstep with
  | unknown hasked hget =>
    cases hfails
    exact .session hasked (contains_eq_false_iff.mpr hget)
  | unloaded hload =>
    cases hfails
    exact .load (congrArg Attempt.outcome hload)
  | refused hfind hanswer =>
    cases hfails
    exact .edit hfind (Graph.answer_edit_eq_error_iff.mp hanswer)
  | spoiled hfind hload =>
    cases hfails
    exact .reload hfind (congrArg Attempt.outcome hload)
  | _ => cases hfails

theorem perform_of_unknown (hasked : c.asked? = some t) (hunknown : s.contains t = false) :
    s.perform c = (.error (.unknownSession t), s) := by
  have hfind : s.find (.session t) = .error (.unknownSession t) :=
    find_eq_error_iff.mpr ⟨t, rfl, contains_eq_false_iff.mp hunknown, rfl⟩
  cases c with
  | copy u origin =>
    cases hasked
    simp only [perform, hfind]
  | inspect target =>
    cases target with
    | held h => cases hasked
    | session u =>
      cases hasked
      simp only [perform, hfind]
  | edit target change =>
    cases target with
    | held h => cases hasked
    | session u =>
      cases hasked
      simp only [perform, hfind]
  | reload target =>
    cases target with
    | held h => cases hasked
    | session u =>
      cases hasked
      simp only [perform, hfind]
  | _ => cases hasked

theorem perform_edit_of_refuses {target : Target} {h : Handle} {g : Graph} {change : Graph.Edit}
    {fault : Graph.Fault} (hfind : s.find target = .ok (h, g)) (hrefuses : g.Refuses change fault) :
    s.perform (.edit target change) = (.error (.ofGraph fault), s) := by
  have hanswer : (g.edit s.supply change).answer = .error fault :=
    Graph.answer_edit_eq_error_iff.mpr hrefuses
  have hsame := put_same (find_eq_ok_iff.mp hfind).2
  simp only [perform, hfind, Graph.edit_of_error hanswer]
  rw [hsame]
  rfl

/-- A command fails exactly if the store has a reason to refuse it. -/
theorem perform_eq_error_iff : (s.perform c).1 = .error e ↔ s.Refuses c e := by
  refine ⟨refuses_of_perform, fun hrefuses => ?_⟩
  cases hrefuses with
  | session hasked hunknown => rw [perform_of_unknown hasked hunknown]
  | edit hfind hrefuses => rw [perform_edit_of_refuses hfind hrefuses]
  | load hload => simp only [perform, hload]
  | @reload target h g fault hfind hload =>
    generalize hattempt : Graph.ofSnapshotText g.snapshotText s.supply = attempt at hload
    simp only [perform, hfind, hattempt, hload]

theorem unknownSession_iff :
    (s.perform c).1 = .error (.unknownSession t) ↔
      c.asked? = some t ∧ s.contains t = false := by
  constructor
  · intro hfails
    generalize he : Error.unknownSession t = e at hfails
    cases perform_eq_error_iff.mp hfails with
    | session hasked hunknown =>
      cases he
      exact ⟨hasked, hunknown⟩
    | @edit target h g change fault hfind hrefuses => cases fault <;> cases he
    | @load u source _ hload =>
      rw [← he] at hload
      exact (load_ne_unknownSession source s.supply t hload).elim
    | reload hfind hload => cases he
  · intro hunknown
    rw [perform_of_unknown hunknown.1 hunknown.2]

/-- Only a load takes numbers before it fails. -/
theorem perform_of_refuses (hrefuses : s.Refuses c e) (hloads : c.loads = false) :
    (s.perform c).2 = s := by
  cases hrefuses with
  | session hasked hunknown => rw [perform_of_unknown hasked hunknown]
  | edit hfind hrefuses => rw [perform_edit_of_refuses hfind hrefuses]
  | load => cases hloads
  | reload => cases hloads

/-- For a registered token only the two edits can fail that name a state of the graph. -/
theorem perform_eq_error_iff_of_registered {h : Handle} {g : Graph} (hget : s.get? t = some h)
    (hgraph : s.graph? h = some g) (hasked : c.asked? = some t) (hloads : c.loads = false) :
    (s.perform c).1 = .error e ↔
      ∃ change fault, c = .edit (.session t) change ∧ g.Refuses change fault ∧
        e = .ofGraph fault := by
  have hfind : s.find (.session t) = .ok (h, g) := find_of_graph? hget hgraph
  constructor
  · intro hfails
    cases perform_eq_error_iff.mp hfails with
    | session hasked' hunknown =>
      rw [hasked] at hasked'
      cases hasked'
      rw [contains_eq_false_iff, hget] at hunknown
      cases hunknown
    | @edit target k g' change fault hfind' hrefuses =>
      cases target with
      | held k => cases hasked
      | session u =>
        cases hasked
        rw [hfind] at hfind'
        cases hfind'
        exact ⟨change, fault, rfl, hrefuses, rfl⟩
    | load => cases hloads
    | reload => cases hloads
  · rintro ⟨change, fault, rfl, hrefuses, rfl⟩
    exact perform_eq_error_iff.mpr (.edit hfind hrefuses)

/-! ### Main statement -/

theorem Sound.atomic (hs : s.Sound) : s.Atomic where
  kept _ _ := perform_of_error
  unspent _ _ hfails := perform_of_refuses (perform_eq_error_iff.mp hfails)
  fails_iff _ _ := perform_eq_error_iff
  unknownSession_iff _ _ := unknownSession_iff
  registered t hcontains := by
    obtain ⟨h, hget⟩ := Option.isSome_iff_exists.mp hcontains
    obtain ⟨g, hgraph⟩ := hs.exists_graph hget
    exact ⟨h, g, hget, hgraph,
      fun _ _ hasked hloads => perform_eq_error_iff_of_registered hget hgraph hasked hloads⟩

/-- Whatever has been done to a store, a command that fails on it changes nothing. Every graph of
the store can be made, and an edit that fails leaves its graph and the supply: the lists of the
graph, and the arena, the tables and the alphabet in which it is housed. -/
theorem atomic_after (defaultName : String) (supply : Supply) (generator : Generator)
    (cs : List Command) :
    ((emptyWith generator defaultName supply).after cs).Atomic ∧
      ((emptyWith generator defaultName supply).after cs).AllMade ∧
      (∀ (g : Graph) (later : Supply) (change : Graph.Edit) (fault : Graph.Fault),
        ((g.edit later change).answer = .error fault ↔ g.Refuses change fault) ∧
          ((g.edit later change).answer = .error fault →
            g.edit later change = ⟨.error fault, later, g⟩)) ∧
      ∀ A : Arena State Transition, A.Lawful → ∀ (later : Supply) (g : Graph), Graph.Made later g →
        (∃ a : Housed A, Housed.Shadows A later g a) ∧
          ∀ a : Housed A, Housed.Shadows A later g a →
            ∀ (change : Graph.Edit) (fault : Graph.Fault),
              ((a.edit later change).answer = .error fault ↔ g.Refuses change fault) ∧
                ((a.edit later change).answer = .error fault →
                  a.edit later change = ⟨.error fault, later, a⟩) := by
  refine ⟨((Sound.empty defaultName supply generator).after cs).atomic,
    (allMade_empty defaultName supply generator).after cs,
    fun g later change fault => ⟨Graph.answer_edit_eq_error_iff, Graph.edit_of_error⟩, ?_⟩
  intro A hA later g hmade
  refine ⟨Housed.exists_shadow hA hmade.wellFormed, fun a h change fault => ?_⟩
  have hrefuses : (a.edit later change).answer = .error fault ↔ g.Refuses change fault :=
    (h.keeps hA).answer_edit_eq_error_iff hA h.wellFormed
  exact ⟨hrefuses, fun hfails => (h.keeps hA).edit_of_refuses (hrefuses.mp hfails)⟩

/-- A session with one state, after a session that is deleted. -/
def lonely : Store :=
  (empty "Mon Automate" .initial).after
    [.create none, .create none, .edit (.session (.drawn 1)) (.addState ⟨0, 0⟩),
      .delete (.drawn 0)]

theorem atomic_after_lonely :
    (lonely.perform (.inspect (.session (.drawn 0)))).1 = .error (.unknownSession (.drawn 0)) ∧
      (lonely.perform (.edit (.session (.drawn 1)) (.addTransition ⟨0⟩ ⟨4⟩ "a"))).1 =
        .error (.unknownEndpoint ⟨4⟩) ∧
      (lonely.perform (.edit (.session (.drawn 1)) (.addTransition ⟨0⟩ ⟨4⟩ "a"))).2 = lonely := by
  have hatomic : lonely.Atomic := (atomic_after ..).1
  have hrefused :
      (lonely.perform (.edit (.session (.drawn 1)) (.addTransition ⟨0⟩ ⟨4⟩ "a"))).1 =
        .error (.unknownEndpoint ⟨4⟩) := rfl
  exact ⟨(hatomic.unknownSession_iff _ _).mpr ⟨rfl, rfl⟩, hrefused,
    hatomic.unspent _ _ hrefused rfl⟩

end Store

end FiniteAutomata.Session
