import FiniteAutomata.Proofs.Session.Run

/-!
Every session has a graph of its own (`separated_after`). An edit changes the graph that it is for
and no other, whatever numbers the others carry. Who holds a handle shares the graph of the session
that the handle was taken from, until that token is replaced or deleted, and never again after that.
-/
namespace FiniteAutomata.Session

/-- The moment replaces or deletes what a token is registered for. -/
def Moment.Rebinds (m : Moment) (t : Token) : Prop :=
  m.answer.isOk ∧
    (m.command = .delete t ∨ (∃ source, m.command = .replace t source) ∨
      ∃ origin, m.command = .copy t origin)

namespace Store

variable {s : Store} {c : Command} {t : Token} {h : Handle}

/-- A token and a handle stand for one graph, which is seen and changed alike through either. -/
structure Shares (s : Store) (t : Token) (h : Handle) : Prop where
  registered : s.get? t = some h
  inspect_eq : s.perform (.inspect (.session t)) = s.perform (.inspect (.held h))
  edit_eq : ∀ e, s.perform (.edit (.session t) e) = s.perform (.edit (.held h) e)
  reload_eq : s.perform (.reload (.session t)) = s.perform (.reload (.held h))

/-- A handle leads to a graph that a token does not stand for, and what is done through the one
leaves the graph of the other. -/
structure Apart (s : Store) (t : Token) (h : Handle) : Prop where
  held : ∃ g, s.graph? h = some g
  unregistered : s.get? t ≠ some h
  by_token : ∀ c, c.changed? = some (.session t) ∨ c.bound? s = some t →
    (s.perform c).2.graph? h = s.graph? h
  by_handle : ∀ c, c.changed? = some (.held h) →
    (s.perform c).2.sessionGraph? t = s.sessionGraph? t

/-- The graphs of a store are kept apart from here on. -/
structure Separated (s : Store) : Prop where
  held : ∀ t h, s.get? t = some h → ∃ g, s.graph? h = some g
  tokens_distinct : ∀ t u h, s.get? t = some h → s.get? u = some h → t = u
  edit_here : ∀ target h g e, target.handle? s = some h → s.graph? h = some g →
    (s.perform (.edit target e)).2.graph? h = some (g.edit s.supply e).graph
  change_elsewhere : ∀ c h, c.edited? s = some h →
    (∀ k, k ≠ h → (s.perform c).2.graph? k = s.graph? k) ∧
      (∀ t, (s.perform c).2.get? t = s.get? t) ∧
      ∀ t, s.get? t ≠ some h → (s.perform c).2.sessionGraph? t = s.sessionGraph? t
  shares_until : ∀ t h cs, s.get? t = some h → (∀ m ∈ s.history cs, ¬m.Rebinds t) →
    (s.after cs).Shares t h
  apart_after : ∀ t h c cs, s.get? t = some h → (⟨s, c⟩ : Moment).Rebinds t →
    ((s.perform c).2.after cs).Apart t h

/-! ### Sharing -/

theorem shares_of_get? (hget : s.get? t = some h) : s.Shares t h := by
  have hfind : s.find (.session t) = s.find (.held h) := by
    simp only [find, hget]
  refine ⟨hget, ?_, fun e => ?_, ?_⟩
  · simp only [perform, hfind]
  · simp only [perform, hfind]
  · simp only [perform, hfind]

/-- A registered token is not drawn again, so only a client that replaces or deletes it changes what
it stands for. -/
theorem get?_perform_of_not_rebinds (hget : s.get? t = some h)
    (hkept : ¬(⟨s, c⟩ : Moment).Rebinds t) : (s.perform c).2.get? t = some h := by
  by_cases hbound : c.bound? s = some t
  · cases hanswer : (s.perform c).1 with
    | error e =>
      rw [perform_of_error hanswer]
      exact hget
    | ok a =>
      exfalso
      have hok : (⟨s, c⟩ : Moment).answer.isOk := by
        rw [Moment.answer, hanswer]
        rfl
      cases c with
      | create name =>
        have hdrawn : s.generator.draw s.nextDraw = t := Option.some.inj hbound
        have hfree := s.nextDraw_spec.2.1
        rw [hdrawn, contains_eq_false_iff, hget] at hfree
        cases hfree
      | delete u =>
        cases hbound
        exact hkept ⟨hok, Or.inl rfl⟩
      | replace u source =>
        cases hbound
        exact hkept ⟨hok, Or.inr (Or.inl ⟨source, rfl⟩)⟩
      | copy u origin =>
        cases hbound
        exact hkept ⟨hok, Or.inr (Or.inr ⟨origin, rfl⟩)⟩
      | _ => cases hbound
  · rw [(move_perform s c).get?_eq hbound]
    exact hget

theorem get?_after_of_not_rebinds {cs : List Command} (hget : s.get? t = some h)
    (hkept : ∀ m ∈ s.history cs, ¬m.Rebinds t) : (s.after cs).get? t = some h := by
  induction cs generalizing s with
  | nil => exact hget
  | cons c cs ih =>
    have hstep := get?_perform_of_not_rebinds hget (hkept _ (List.mem_cons_self ..))
    exact ih hstep fun m hm => hkept m (List.mem_cons_of_mem _ hm)

/-! ### Parting -/

theorem get?_of_rebinds (hrebinds : (⟨s, c⟩ : Moment).Rebinds t) :
    (s.perform c).2.get? t = none ∨ (s.perform c).2.get? t = some ⟨s.graphs.length⟩ := by
  obtain ⟨hok, rfl | ⟨source, rfl⟩ | ⟨origin, rfl⟩⟩ := hrebinds
  · exact Or.inl ((get?_delete s t t).trans (if_pos rfl))
  · simp only [Moment.answer, perform] at hok ⊢
    split at hok
    · cases hok
    · rename_i g hload
      have hget := get?_replace { s with supply := (source.load s.supply).supply } t t g
      rw [if_pos rfl] at hget
      exact Or.inr hget
  · simp only [Moment.answer, perform] at hok ⊢
    split at hok
    · cases hok
    · rename_i k g hfind
      have hget := get?_replace s t t g
      rw [if_pos rfl] at hget
      exact Or.inr hget

/-- New handles are further on than all old ones, so an old handle is not registered again. -/
theorem get?_after_ne (cs : List Command) (hlead : h.index < s.graphs.length)
    (hget : s.get? t ≠ some h) :
    h.index < (s.after cs).graphs.length ∧ (s.after cs).get? t ≠ some h := by
  refine after_induction (P := fun s => h.index < s.graphs.length ∧ s.get? t ≠ some h)
    (fun s₁ c hs₁ => ?_) cs ⟨hlead, hget⟩
  obtain ⟨hlead₁, hget₁⟩ := hs₁
  have hmove := move_perform s₁ c
  refine ⟨Nat.lt_of_lt_of_le hlead₁ hmove.length_le, ?_⟩
  rcases hmove.get?_cases t with heq | ⟨-, hnone | hnew⟩
  · rwa [heq]
  · simp [hnone]
  · rw [hnew]
    intro heq
    cases heq
    exact Nat.lt_irrefl _ hlead₁

theorem apart_of_get?_ne (hs : s.Sound) (hlead : h.index < s.graphs.length)
    (hget : s.get? t ≠ some h) : s.Apart t h where
  held := Option.isSome_iff_exists.mp (graph?_isSome_iff.mpr hlead)
  unregistered := hget
  by_token c hc := by
    have hfree : c.edited? s ≠ some h := by
      rcases hc with hchanged | hbound
      · rw [Command.edited?, hchanged]
        exact hget
      · rw [edited?_eq_none_of_bound hbound]
        simp
    exact (move_perform s c).graph?_eq (Or.inl hlead) hfree
  by_handle c hc := by
    have hunbound : c.bound? s ≠ some t := by simp [bound?_eq_none_of_changed hc]
    refine (move_perform s c).sessionGraph?_eq hs hunbound fun k hedited => ?_
    rw [Command.edited?, hc] at hedited
    cases hedited
    exact hget

/-! ### Main statement -/

theorem Sound.separated (hs : s.Sound) : s.Separated where
  held t h hget := hs.exists_graph hget
  tokens_distinct := hs.distinct
  edit_here _ _ _ e hhandle hgraph := graph?_perform_edit hhandle hgraph e
  change_elsewhere c h hedited := by
    obtain ⟨target, hchanged, -⟩ := Option.bind_eq_some_iff.mp hedited
    have hunbound : c.bound? s = none := bound?_eq_none_of_changed hchanged
    have hfree (t : Token) : c.bound? s ≠ some t := by simp [hunbound]
    have hmove := move_perform s c
    refine ⟨fun k hk => ?_, fun t => hmove.get?_eq (hfree t), fun t ht => ?_⟩
    · refine hmove.graph?_eq (Or.inr hunbound) ?_
      rw [hedited]
      exact fun heq => hk (Option.some.inj heq).symm
    · refine hmove.sessionGraph?_eq hs (hfree t) fun k hk => ?_
      rw [hedited] at hk
      exact Option.some.inj hk ▸ ht
  shares_until t h cs hget hkept := shares_of_get? (get?_after_of_not_rebinds hget hkept)
  apart_after t h c cs hget hrebinds := by
    have hmove := move_perform s c
    have hlead := hs.leads t h hget
    have hparted : (s.perform c).2.get? t ≠ some h := by
      rcases get?_of_rebinds hrebinds with hnone | hnew
      · simp [hnone]
      · rw [hnew]
        intro heq
        cases heq
        exact Nat.lt_irrefl _ hlead
    obtain ⟨hlead', hget'⟩ :=
      get?_after_ne cs (Nat.lt_of_lt_of_le hlead hmove.length_le) hparted
    exact apart_of_get?_ne ((hmove.sound hs).after cs) hlead' hget'

/-- In every run, the graphs of the store that it has led to are kept apart from there on. -/
theorem separated_after (defaultName : String) (supply : Supply) (generator : Generator)
    (cs : List Command) : ((emptyWith generator defaultName supply).after cs).Separated :=
  ((Sound.empty defaultName supply generator).after cs).separated

/-- A session, a copy of it that carries the same number, and a handle held for the copy. -/
def twinned : Store :=
  (empty "Mon Automate" .initial).after
    [.create none, .edit (.session (.drawn 0)) (.addState ⟨0, 0⟩), .copy (.given "b") (.drawn 0),
      .get (.given "b")]

/-- The state goes from the copy alone, and after the copy is deleted it stays with who held it. -/
theorem separated_after_twinned :
    twinned.sessionGraph? (.drawn 0) = twinned.sessionGraph? (.given "b") ∧
      (twinned.perform (.edit (.session (.given "b")) (.removeState ⟨0⟩))).2.sessionGraph?
        (.drawn 0) = twinned.sessionGraph? (.drawn 0) ∧
      (twinned.sessionGraph? (.drawn 0)).map (·.stateIds) = some [⟨0⟩] ∧
      ((twinned.perform (.edit (.session (.given "b")) (.removeState ⟨0⟩))).2.sessionGraph?
        (.given "b")).map (·.stateIds) = some [] ∧
      (twinned.perform (.delete (.given "b"))).2.Apart (.given "b") ⟨1⟩ := by
  have hseparated : twinned.Separated := separated_after ..
  refine ⟨rfl, ?_, rfl, rfl, ?_⟩
  · refine (hseparated.change_elsewhere _ ⟨1⟩ rfl).2.2 (.drawn 0) ?_
    decide
  · exact hseparated.apart_after _ _ (.delete (.given "b")) [] rfl ⟨rfl, Or.inl rfl⟩

end Store

end FiniteAutomata.Session
