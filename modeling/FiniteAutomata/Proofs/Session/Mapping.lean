import FiniteAutomata.Proofs.Session.Separation
import Mathlib.Data.Finset.Card
import Mathlib.Logic.Function.Basic

/-!
A store is a finite map from tokens to graphs (`maps_after`). A token is registered if it was
created, replaced or copied to and has not been deleted since, and every look-up says so. A command
that registers or deletes a token changes what that token is bound to and nothing else, and a token
that is created was free, whatever tokens clients have made up.
-/
namespace FiniteAutomata.Session

namespace Moment

/-- A moment registers a graph for a token. -/
inductive Gives (m : Moment) : Token → Graph → Prop
  | created {name : Option String} {t : Token} (hcommand : m.command = .create name)
      (hanswer : m.answer = .ok (.token t)) :
      Gives m t (.named (name.getD m.before.defaultName))
  | loaded {t : Token} {source : Source} {g : Graph} {later : Supply}
      (hcommand : m.command = .replace t source)
      (hload : source.load m.before.supply = ⟨.ok g, later⟩) : Gives m t g
  | copied {t origin : Token} {g : Graph} (hcommand : m.command = .copy t origin)
      (hgraph : m.before.sessionGraph? origin = some g) : Gives m t g

/-- A token was registered by one of some moments and has not been deleted by one after it. -/
def Registered (ms : List Moment) (t : Token) : Prop :=
  Lasts (fun m => ∃ g, m.Gives t g) (fun m => m.command = .delete t) ms

/-- A moment changes what a token is bound to, or the graph that it is bound to. -/
def Changes (m : Moment) (t : Token) : Prop :=
  m.Rebinds t ∨ ∃ h, m.before.get? t = some h ∧ m.command.edited? m.before = some h

/-- What a moment does to the map from tokens to graphs. -/
structure Maps (m : Moment) (defaultName : String) : Prop where
  created : ∀ name, m.command = .create name →
    ∃ t, m.answer = .ok (.token t) ∧ m.before.contains t = false ∧
      m.Gives t (.named (name.getD defaultName)) ∧ m.after.size = m.before.size + 1
  given : ∀ t g, m.Gives t g →
    m.after.sessionGraph? = Function.update m.before.sessionGraph? t (some g) ∧
      ∀ u, u ≠ t → m.after.get? u = m.before.get? u
  deleted : ∀ t, m.command = .delete t →
    m.answer = .ok (.flag (m.before.contains t)) ∧
      m.after.sessionGraph? = Function.update m.before.sessionGraph? t none ∧
      ∀ u, u ≠ t → m.after.get? u = m.before.get? u
  kept : (∀ t g, ¬m.Gives t g) → (∀ t, m.command ≠ .delete t) →
    m.after.get? = m.before.get? ∧
      (m.command.changed? = none → m.after.sessionGraph? = m.before.sessionGraph?)

end Moment

namespace Store

variable {s : Store} {c : Command} {t u : Token} {h : Handle} {g : Graph} {cs : List Command}

/-- A run from a store without sessions makes a map, and the store that it leads to agrees with
it. -/
structure Maps (start : Store) (cs : List Command) : Prop where
  moments : ∀ m ∈ start.history cs, m.Maps start.defaultName
  registered : ∀ t, Moment.Registered (start.history cs) t →
    ∃ h g, ((start.after cs).perform (.get t)).1 = .ok (.handle (some h)) ∧
      (start.after cs).graph? h = some g ∧
      ((start.after cs).perform (.contains t)).1 = .ok (.flag true) ∧
      ((start.after cs).perform (.inspect (.session t))).1 = .ok (.graph g)
  unregistered : ∀ t, ¬Moment.Registered (start.history cs) t →
    ((start.after cs).perform (.get t)).1 = .ok (.handle none) ∧
      ((start.after cs).perform (.contains t)).1 = .ok (.flag false) ∧
      ((start.after cs).perform (.inspect (.session t))).1 = .error (.unknownSession t)
  size : ∃ ts : Finset Token, (∀ t, t ∈ ts ↔ Moment.Registered (start.history cs) t) ∧
    ((start.after cs).perform .size).1 = .ok (.size ts.card) ∧
    ((start.after cs).isEmpty ↔ ts = ∅)
  last_given : ∀ t g, Moment.Lasts (·.Gives t g) (·.Changes t) (start.history cs) →
    (start.after cs).sessionGraph? t = some g

/-! ### Tokens -/

/-- No token is registered twice. -/
theorem nodup_tokens_perform (hs : (s.sessions.map (·.1)).Nodup) (c : Command) :
    ((s.perform c).2.sessions.map (·.1)).Nodup := by
  have hfiltered (u : Token) : ((s.sessions.filter (·.1 ≠ u)).map (·.1)).Nodup :=
    hs.sublist (List.filter_sublist.map _)
  have hmove := move_perform s c
  generalize (s.perform c).2 = s' at hmove ⊢
  cases hmove with
  | wait => exact hs
  | @register u =>
    refine List.nodup_cons.mpr ⟨fun hmem => ?_, hfiltered u⟩
    obtain ⟨p, hp, heq⟩ := List.mem_map.mp hmem
    have hne := (List.mem_filter.mp hp).2
    simp [heq] at hne
  | @forget u => exact hfiltered u
  | change => exact hs

theorem size_replace (hfree : s.contains t = false) (g : Graph) :
    (s.replace t g).size = s.size + 1 := by
  have hall : s.sessions.filter (·.1 ≠ t) = s.sessions := by
    rw [List.filter_eq_self]
    intro p hp
    rw [decide_eq_true_eq]
    rintro rfl
    rw [contains_iff_mem_tokens.mpr (List.mem_map_of_mem hp)] at hfree
    cases hfree
  rw [size, replace, List.length_cons, hall, size]

theorem nodup_tokens_after (defaultName : String) (supply : Supply) (generator : Generator)
    (cs : List Command) :
    (((emptyWith generator defaultName supply).after cs).sessions.map (·.1)).Nodup := by
  have hnone : ((emptyWith generator defaultName supply).sessions.map (·.1)).Nodup := List.nodup_nil
  exact after_induction (P := fun s => (s.sessions.map (·.1)).Nodup)
    (fun _ c hs => nodup_tokens_perform hs c) cs hnone

/-! ### Look-ups -/

theorem Sound.exists_answers (hs : s.Sound) (hcontains : s.contains t) :
    ∃ h g, (s.perform (.get t)).1 = .ok (.handle (some h)) ∧ s.graph? h = some g ∧
      (s.perform (.contains t)).1 = .ok (.flag true) ∧
      (s.perform (.inspect (.session t))).1 = .ok (.graph g) := by
  obtain ⟨h, hget⟩ := Option.isSome_iff_exists.mp hcontains
  obtain ⟨g, hgraph⟩ := hs.exists_graph hget
  have hfind : s.find (.session t) = .ok (h, g) := find_of_graph? hget hgraph
  refine ⟨h, g, ?_, hgraph, ?_, ?_⟩
  · simp only [perform, hget]
  · simp only [perform, hcontains]
  · simp only [perform, hfind]

theorem answers_of_not_contains (hcontains : s.contains t = false) :
    (s.perform (.get t)).1 = .ok (.handle none) ∧
      (s.perform (.contains t)).1 = .ok (.flag false) ∧
      (s.perform (.inspect (.session t))).1 = .error (.unknownSession t) := by
  have hget : s.get? t = none := contains_eq_false_iff.mp hcontains
  refine ⟨?_, ?_, ?_⟩
  · simp only [perform, hget]
  · simp only [perform, hcontains]
  · simp only [perform, find, hget]

theorem exists_tokens (hs : (s.sessions.map (·.1)).Nodup) :
    ∃ ts : Finset Token, (∀ t, t ∈ ts ↔ s.contains t) ∧
      (s.perform .size).1 = .ok (.size ts.card) ∧ (s.isEmpty ↔ ts = ∅) := by
  have hcard : (s.sessions.map (·.1)).toFinset.card = s.size := by
    rw [List.toFinset_card_of_nodup hs, List.length_map, size]
  refine ⟨(s.sessions.map (·.1)).toFinset, fun t => ?_, ?_, ?_⟩
  · rw [List.mem_toFinset, contains_iff_mem_tokens]
  · rw [hcard]
    rfl
  · rw [← Finset.card_eq_zero, hcard, isEmpty, decide_eq_true_eq]

end Store

/-! ### Moments -/

namespace Moment

open FiniteAutomata.Session.Store

variable {m : Moment} {t u : Token} {g : Graph}

theorem Gives.bound (hgives : m.Gives t g) : m.command.bound? m.before = some t := by
  cases hgives with
  | @created name _ hcommand hanswer =>
    rw [Moment.answer, hcommand] at hanswer
    rw [hcommand]
    cases hanswer
    rfl
  | loaded hcommand => rw [hcommand]; rfl
  | copied hcommand => rw [hcommand]; rfl

theorem Gives.sessionGraph?_after (hgives : m.Gives t g) : m.after.sessionGraph? t = some g := by
  cases hgives with
  | @created name _ hcommand hanswer =>
    rw [Moment.answer, hcommand] at hanswer
    cases hanswer
    rw [Moment.after, hcommand]
    exact sessionGraph?_replace_self m.before _ _
  | @loaded _ source _ later hcommand hload =>
    simp only [Moment.after, hcommand, perform, hload]
    exact sessionGraph?_replace_self ..
  | @copied _ origin _ hcommand hgraph =>
    obtain ⟨h, hget, hgraph⟩ := sessionGraph?_eq_some_iff.mp hgraph
    have hfind : m.before.find (.session origin) = .ok (h, g) := find_of_graph? hget hgraph
    simp only [Moment.after, hcommand, perform, hfind]
    exact sessionGraph?_replace_self ..

/-- The store is a map again, changed at one token. -/
theorem sessionGraph?_after_of_bound (hs : m.before.Sound)
    (hbound : m.command.bound? m.before = some t) {found : Option Graph}
    (hfound : m.after.sessionGraph? t = found) :
    m.after.sessionGraph? = Function.update m.before.sessionGraph? t found ∧
      ∀ u, u ≠ t → m.after.get? u = m.before.get? u := by
  refine ⟨funext fun u => ?_, fun u hu => ?_⟩
  · by_cases hu : u = t
    · rw [hu, Function.update_self, hfound]
    · rw [Function.update_of_ne hu]
      exact m.move.sessionGraph?_eq_of_bound hs hbound hu
  · refine m.move.get?_eq ?_
    rw [hbound]
    exact fun heq => hu (Option.some.inj heq).symm

/-- What registers no token and deletes none leaves all of them as they are. -/
theorem kept_of_not_gives (hs : m.before.Sound) (hgives : ∀ t g, ¬m.Gives t g)
    (hdelete : ∀ t, m.command ≠ .delete t) :
    m.after.get? = m.before.get? ∧
      (m.command.changed? = none → m.after.sessionGraph? = m.before.sessionGraph?) := by
  have hplain (hunbound : m.command.bound? m.before = none) :
      m.after.get? = m.before.get? ∧
        (m.command.changed? = none → m.after.sessionGraph? = m.before.sessionGraph?) := by
    have hfree (t : Token) : m.command.bound? m.before ≠ some t := by simp [hunbound]
    refine ⟨funext fun t => m.move.get?_eq (hfree t), fun hchanged => funext fun t => ?_⟩
    refine m.move.sessionGraph?_eq hs (hfree t) fun h hedited => ?_
    rw [Command.edited?, hchanged] at hedited
    cases hedited
  have hfails (e : Error) (hanswer : m.answer = .error e) :
      m.after.get? = m.before.get? ∧
        (m.command.changed? = none → m.after.sessionGraph? = m.before.sessionGraph?) := by
    have hsame : m.after = { m.before with supply := m.after.supply } := perform_of_error hanswer
    rw [hsame]
    exact ⟨rfl, fun _ => rfl⟩
  cases hcommand : m.command with
  | create name =>
    refine absurd (Gives.created hcommand ?_) (hgives (m.before.create name).1 _)
    rw [Moment.answer, hcommand]
    rfl
  | delete t => exact absurd hcommand (hdelete t)
  | replace t source =>
    rcases hload : source.load m.before.supply with ⟨outcome, later⟩
    cases outcome with
    | ok g => exact absurd (Gives.loaded hcommand hload) (hgives t g)
    | error e =>
      rw [← hcommand]
      refine hfails e ?_
      simp only [Moment.answer, hcommand, perform, hload]
  | copy t origin =>
    cases hgraph : m.before.sessionGraph? origin with
    | some g => exact absurd (Gives.copied hcommand hgraph) (hgives t g)
    | none =>
      rw [← hcommand]
      refine hfails (.unknownSession origin) ?_
      have hget := hs.sessionGraph?_eq_none_iff.mp hgraph
      simp only [Moment.answer, hcommand, perform, find, hget]
  | _ =>
    rw [← hcommand]
    exact hplain (by rw [hcommand]; rfl)

theorem maps (hs : m.before.Sound) : m.Maps m.before.defaultName where
  created name hcommand := by
    have hanswer : m.answer = .ok (.token (m.before.create name).1) := by
      rw [Moment.answer, hcommand]
      rfl
    have hfree : m.before.contains (m.before.create name).1 = false :=
      m.before.nextDraw_spec.2.1
    refine ⟨_, hanswer, hfree, .created hcommand hanswer, ?_⟩
    rw [Moment.after, hcommand]
    exact size_replace hfree (.named (name.getD m.before.defaultName))
  given t g hgives := sessionGraph?_after_of_bound hs hgives.bound hgives.sessionGraph?_after
  deleted t hcommand := by
    refine ⟨?_, sessionGraph?_after_of_bound hs ?_ ?_⟩
    · rw [Moment.answer, hcommand]
      rfl
    · rw [hcommand]
      rfl
    · rw [Moment.after, hcommand]
      exact sessionGraph?_delete_self ..
  kept := kept_of_not_gives hs

/-- A token stays what it is unless it is registered or deleted. -/
theorem get?_after_eq (hs : m.before.Sound) (hgives : ¬∃ g, m.Gives t g)
    (hdelete : m.command ≠ .delete t) : m.after.get? t = m.before.get? t := by
  have hmaps := maps hs
  by_cases hother : ∃ u g, m.Gives u g
  · obtain ⟨u, g, hu⟩ := hother
    exact (hmaps.given u g hu).2 t fun heq => hgives ⟨g, heq ▸ hu⟩
  · by_cases hdeleted : ∃ u, m.command = .delete u
    · obtain ⟨u, hu⟩ := hdeleted
      exact (hmaps.deleted u hu).2.2 t fun heq => hdelete (heq ▸ hu)
    · push Not at hother hdeleted
      rw [(hmaps.kept hother hdeleted).1]

theorem contains_after_iff (hs : m.before.Sound) (t : Token) :
    m.after.contains t ↔
      m.before.contains t ∧ ¬m.command = .delete t ∨ ∃ g, m.Gives t g := by
  have hs' : m.after.Sound := m.move.sound hs
  by_cases hgives : ∃ g, m.Gives t g
  · refine iff_of_true ?_ (Or.inr hgives)
    obtain ⟨g, hg⟩ := hgives
    rw [hs'.contains_eq, hg.sessionGraph?_after]
    rfl
  · by_cases hdelete : m.command = .delete t
    · have hgone := congrFun ((maps hs).deleted t hdelete).2.1 t
      simp [hs'.contains_eq, hgone, hdelete, hgives]
    · simp [contains, get?_after_eq hs hgives hdelete, hdelete, hgives]

theorem sessionGraph?_after_of_not_changes (hs : m.before.Sound) (hkept : ¬m.Changes t)
    (hgraph : m.before.sessionGraph? t = some g) : m.after.sessionGraph? t = some g := by
  obtain ⟨h, hget, hlead⟩ := sessionGraph?_eq_some_iff.mp hgraph
  refine sessionGraph?_eq_some_iff.mpr ⟨h, ?_, ?_⟩
  · exact get?_perform_of_not_rebinds hget fun hrebinds => hkept (Or.inl hrebinds)
  · have hfree : m.command.edited? m.before ≠ some h :=
      fun hedited => hkept (Or.inr ⟨h, hget, hedited⟩)
    rw [m.move.graph?_eq (Or.inl (hs.leads t h hget)) hfree, hlead]

end Moment

/-! ### Main statement -/

namespace Store

variable {start : Store}

theorem Sound.forall_history (hs : start.Sound) (cs : List Command) :
    ∀ m ∈ start.history cs, m.before.Sound ∧ m.before.defaultName = start.defaultName :=
  (Store.forall_history (P := fun s => s.Sound ∧ s.defaultName = start.defaultName) ⟨hs, rfl⟩
    fun m _ hm => ⟨m.move.sound hm.1, m.move.defaultName_eq.trans hm.2⟩).1

theorem contains_after_iff_registered (defaultName : String) (supply : Supply)
    (generator : Generator) (cs : List Command) (t : Token) :
    ((emptyWith generator defaultName supply).after cs).contains t ↔
      Moment.Registered ((emptyWith generator defaultName supply).history cs) t := by
  have hbefore := (Sound.empty defaultName supply generator).forall_history cs
  have hrun := after_iff (P := fun s => s.contains t)
    fun m hm => Moment.contains_after_iff (hbefore m hm).1 t
  have hnone : ¬(emptyWith generator defaultName supply).contains t := nofun
  rwa [or_iff_right fun h => hnone h.1] at hrun

/-- Clients may register any tokens, also those that come next, and the generator may give tokens
that it has given before. -/
theorem maps_after (defaultName : String) (supply : Supply) (generator : Generator)
    (cs : List Command) : (emptyWith generator defaultName supply).Maps cs where
  moments m hm := by
    obtain ⟨hsound, hname⟩ := (Sound.empty defaultName supply generator).forall_history cs m hm
    rw [← hname]
    exact Moment.maps hsound
  registered t ht := by
    rw [← contains_after_iff_registered] at ht
    exact ((Sound.empty defaultName supply generator).after cs).exists_answers ht
  unregistered t ht := by
    rw [← contains_after_iff_registered, Bool.not_eq_true] at ht
    exact answers_of_not_contains ht
  size := by
    obtain ⟨ts, hts, hanswers⟩ := exists_tokens (nodup_tokens_after defaultName supply generator cs)
    exact ⟨ts, fun t => (hts t).trans (contains_after_iff_registered ..), hanswers⟩
  last_given t g hlasts := by
    have hbefore := (Sound.empty defaultName supply generator).forall_history cs
    refine holds_of_lasts (P := fun s => s.sessionGraph? t = some g)
      (fun m hm hgives => hgives.sessionGraph?_after) (fun m hm hkept hgraph => ?_) hlasts
    exact Moment.sessionGraph?_after_of_not_changes (hbefore m hm).1 hkept hgraph

/-- A client has taken the token that would be drawn first. -/
example : ((empty "Mon Automate" .initial).performAll
    [.replace (.drawn 0) (.named "a"), .create none, .size]).2.get? (.drawn 1) = some ⟨1⟩ := by
  decide

/-- The generator gives its first token twice. -/
example : ((emptyWith (.preceded (.drawn 0) .numbered) "Mon Automate" .initial).performAll
    [.create none, .create none, .size]).2.get? (.drawn 1) = some ⟨1⟩ := by
  decide

end Store
end FiniteAutomata.Session
