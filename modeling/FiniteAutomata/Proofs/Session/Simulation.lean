import FiniteAutomata.Proofs.Renaming.Load
import FiniteAutomata.Proofs.Renaming.View
import FiniteAutomata.Proofs.Session.Freshness

/-!
One session in two stores. A store simulates another for a token if the token leads to the same
graph there, under other names for tokens and numbers. A command on the session is answered alike on
both sides (`Simulates.own`), and one on any other session leaves the simulation as it is
(`Simulates.foreign`).
-/
namespace FiniteAutomata.Session

open FiniteAutomata.Graph

/-- Other names for tokens, states and transitions. -/
structure Renaming where
  token : Token → Token
  state : StateId → StateId
  transition : TransitionId → TransitionId
  token_injective : Function.Injective token
  state_injective : Function.Injective state
  transition_injective : Function.Injective transition

namespace Renaming

def graph (r : Renaming) (g : Graph) : Graph := g.renumbered r.state r.transition

def target (r : Renaming) : Target → Target
  | .session t => .session (r.token t)
  | .held h => .held h

def command (r : Renaming) : Command → Command
  | .create name => .create name
  | .size => .size
  | .get t => .get (r.token t)
  | .contains t => .contains (r.token t)
  | .delete t => .delete (r.token t)
  | .replace t source => .replace (r.token t) source
  | .copy t origin => .copy (r.token t) (r.token origin)
  | .inspect target => .inspect (r.target target)
  | .edit target change => .edit (r.target target) (change.renumbered r.state r.transition)
  | .reload target => .reload (r.target target)

/-- What goes wrong with a command. The numbers in a text that cannot be loaded are the text's own,
so the error of a load stays as it is. -/
def error (r : Renaming) : Error → Error
  | .unknownSession t => .unknownSession (r.token t)
  | .unknownState id => .unknownState (r.state id)
  | .unknownEndpoint id => .unknownEndpoint (r.state id)
  | e => e

/-- What a command is answered before and after a renaming. A handle tells a client only that there
is a session, and a graph is whatever can be seen of it. -/
inductive Alike (r : Renaming) :
    Command → Except Error Answer → Except Error Answer → Prop
  | refused {c : Command} {e : Error} (hloads : c.loads = false) :
      Alike r c (.error e) (.error (r.error e))
  | unloaded {c : Command} {e : Error} (hloads : c.loads) : Alike r c (.error e) (.error e)
  | token {c : Command} {t : Token} : Alike r c (.ok (.token t)) (.ok (.token (r.token t)))
  | found {c : Command} {h h' : Option Handle} (hfound : h'.isSome = h.isSome) :
      Alike r c (.ok (.handle h)) (.ok (.handle h'))
  | flag {c : Command} {value : Bool} : Alike r c (.ok (.flag value)) (.ok (.flag value))
  | done {c : Command} : Alike r c (.ok .done) (.ok .done)
  | graph {c : Command} {g : Graph} (hseen : SeenAlike r.state r.transition g (r.graph g)) :
      Alike r c (.ok (.graph g)) (.ok (.graph (r.graph g)))
  | effect {c : Command} {effect : Graph.Effect} :
      Alike r c (.ok (.effect effect)) (.ok (.effect (effect.renumbered r.state r.transition)))

end Renaming

/-- Whether a command is about one session or none, and neither copies a graph nor goes by a handle
that was held for it, nor loads what the graph itself was saved as. -/
def Command.plain : Command → Bool
  | .copy .. | .inspect (.held _) | .edit (.held _) _ | .reload _ => false
  | _ => true

/-- The token of the session that a command is about. -/
def Command.session? (s : Store) : Command → Option Token
  | .create name => some (s.create name).1
  | .get t | .contains t | .delete t | .replace t _ | .copy t _ => some t
  | .inspect (.session t) | .edit (.session t) _ | .reload (.session t) => some t
  | _ => none

namespace Store

variable {r : Renaming} {t : Token} {s s' : Store} {c : Command} {g : Graph}

/-- A token leads to the same in both stores, but for the names. The token that the store on the
right draws next is the one wanted if it has still to be drawn on the left, and that once only. -/
structure Simulates (r : Renaming) (t : Token) (s s' : Store) : Prop where
  sound : s.Sound
  sound' : s'.Sound
  made : s.AllMade
  made' : s'.AllMade
  defaultName_eq : s'.defaultName = s.defaultName
  graph_eq : s'.sessionGraph? (r.token t) = (s.sessionGraph? t).map r.graph
  gives_once : s.generator.GivesOnce t
  drawn_eq : ∀ n, s.generator.draw n = t → s.drawn ≤ n → r.token t = s'.generator.draw s'.drawn

/-- A command is answered alike in both stores, and what it leaves is alike. -/
structure Agrees (r : Renaming) (t : Token) (c : Command) (s s' : Store) : Prop where
  answer : r.Alike c (s.perform c).1 (s'.perform (r.command c)).1
  graph_eq : (s'.perform (r.command c)).2.sessionGraph? (r.token t) =
    ((s.perform c).2.sessionGraph? t).map r.graph
  supply_eq : (s'.perform (r.command c)).2.supply =
    s'.supply.advanced s.supply (s.perform c).2.supply

/-! ### The graph of a session -/

theorem Sound.sessionGraph?_put (hs : s.Sound) {h : Handle} (hget : s.get? t = some h) (g : Graph) :
    (s.put h g).sessionGraph? t = some g := by
  have hget' : (s.put h g).get? t = some h := hget
  rw [sessionGraph?, hget', Option.bind_some, graph?_put_self (hs.leads t h hget)]

/-- Where a token leads on both sides: nowhere, or to graphs that are alike. -/
theorem Simulates.find_cases (hsim : Simulates r t s s') :
    (s.find (.session t) = .error (.unknownSession t) ∧
        s'.find (.session (r.token t)) = .error (.unknownSession (r.token t))) ∨
      ∃ g h h', s.sessionGraph? t = some g ∧ s.get? t = some h ∧ s'.get? (r.token t) = some h' ∧
        s.find (.session t) = .ok (h, g) ∧
          s'.find (.session (r.token t)) = .ok (h', r.graph g) := by
  have hgraph' := hsim.graph_eq
  cases hgraph : s.sessionGraph? t with
  | none =>
    rw [hgraph, Option.map_none] at hgraph'
    have hget := hsim.sound.sessionGraph?_eq_none_iff.mp hgraph
    have hget' := hsim.sound'.sessionGraph?_eq_none_iff.mp hgraph'
    exact Or.inl ⟨find_eq_error_iff.mpr ⟨t, rfl, hget, rfl⟩,
      find_eq_error_iff.mpr ⟨r.token t, rfl, hget', rfl⟩⟩
  | some g =>
    rw [hgraph, Option.map_some] at hgraph'
    obtain ⟨h, hget, hheld⟩ := sessionGraph?_eq_some_iff.mp hgraph
    obtain ⟨h', hget', hheld'⟩ := sessionGraph?_eq_some_iff.mp hgraph'
    refine Or.inr ⟨g, h, h', rfl, hget, hget', ?_, ?_⟩
    · exact find_of_graph? hget hheld
    · exact find_of_graph? hget' hheld'

theorem Simulates.contains_eq (hsim : Simulates r t s s') :
    s'.contains (r.token t) = s.contains t := by
  rw [hsim.sound'.contains_eq, hsim.sound.contains_eq, hsim.graph_eq, Option.isSome_map]

/-! ### Own commands -/

theorem supply_perform_replace (s : Store) (t : Token) (source : Source) :
    (s.perform (.replace t source)).2.supply = (source.load s.supply).supply := by
  simp only [perform]
  split <;> rfl

namespace Simulates

variable (hsim : Simulates r t s s')
include hsim

theorem seenAlike (hgraph : s.sessionGraph? t = some g) (hrises : Rises r.state g.stateIds) :
    SeenAlike r.state r.transition g (r.graph g) := by
  have hgraph' := hsim.graph_eq
  rw [hgraph, Option.map_some] at hgraph'
  obtain ⟨h, -, hheld⟩ := sessionGraph?_eq_some_iff.mp hgraph
  obtain ⟨h', -, hheld'⟩ := sessionGraph?_eq_some_iff.mp hgraph'
  exact Graph.seenAlike r.state_injective r.transition_injective hrises (hsim.made.wellFormed hheld)
    (hsim.made'.wellFormed hheld')

/-- A query is answered alike, and nothing changes. -/
theorem agrees_of_stay (hanswer : r.Alike c (s.perform c).1 (s'.perform (r.command c)).1)
    (hstay : (s.perform c).2 = s) (hstay' : (s'.perform (r.command c)).2 = s') :
    Agrees r t c s s' where
  answer := hanswer
  graph_eq := by rw [hstay, hstay', hsim.graph_eq]
  supply_eq := by rw [hstay, hstay', Supply.advanced_self]

/-- The token has still to be drawn, so it is the next one on the right, where it is free as on the
left. -/
theorem agrees_create {name : Option String} (howner : (s.create name).1 = t) :
    Agrees r t (.create name) s s' := by
  have hdrawn : r.token t = s'.generator.draw s'.drawn :=
    hsim.drawn_eq s.nextDraw howner s.nextDraw_spec.1
  have hfree : s'.contains (s'.generator.draw s'.drawn) = false := by
    rw [← hdrawn, hsim.contains_eq, ← howner]
    exact s.nextDraw_spec.2.1
  have howner' : (s'.create name).1 = r.token t := by
    rw [hdrawn, create, nextDraw_eq hfree]
  have hgraph : (s.create name).2.sessionGraph? t = some (.named (name.getD s.defaultName)) := by
    rw [← howner]
    exact sessionGraph?_replace_self s _ _
  have hgraph' : (s'.create name).2.sessionGraph? (r.token t) =
      some (.named (name.getD s'.defaultName)) := by
    rw [← howner']
    exact sessionGraph?_replace_self s' _ _
  refine ⟨?_, ?_, ?_⟩
  · change r.Alike _ (.ok (.token (s.create name).1)) (.ok (.token (s'.create name).1))
    rw [howner, howner']
    exact .token
  · change (s'.create name).2.sessionGraph? (r.token t) =
      ((s.create name).2.sessionGraph? t).map r.graph
    rw [hgraph, hgraph', hsim.defaultName_eq]
    rfl
  · exact (Supply.advanced_self s'.supply s.supply).symm

theorem agrees_delete : Agrees r t (.delete t) s s' where
  answer := by
    change r.Alike _ (.ok (.flag (s.contains t))) (.ok (.flag (s'.contains (r.token t))))
    rw [hsim.contains_eq]
    exact .flag
  graph_eq := by
    change (s'.delete (r.token t)).2.sessionGraph? (r.token t) =
      ((s.delete t).2.sessionGraph? t).map r.graph
    rw [sessionGraph?_delete_self, sessionGraph?_delete_self, Option.map_none]
  supply_eq := (Supply.advanced_self s'.supply s.supply).symm

theorem agrees_replace (source : Source)
    (htracks : Supply.Tracks r.state r.transition s.supply (s.perform (.replace t source)).2.supply
      s'.supply) :
    Agrees r t (.replace t source) s s' := by
  rw [supply_perform_replace] at htracks
  have hload := source.load_renumbered htracks
  have hsupply : (s'.perform (.replace (r.token t) source)).2.supply =
      s'.supply.advanced s.supply (s.perform (.replace t source)).2.supply := by
    rw [supply_perform_replace, supply_perform_replace, hload]
  cases houtcome : (source.load s.supply).outcome with
  | error e =>
    rw [houtcome] at hload
    refine ⟨?_, ?_, hsupply⟩
    · simp only [perform, Renaming.command, houtcome, hload]
      exact .unloaded rfl
    · simp only [perform, Renaming.command, houtcome, hload]
      exact hsim.graph_eq
  | ok g =>
    rw [houtcome] at hload
    refine ⟨?_, ?_, hsupply⟩
    · simp only [perform, Renaming.command, houtcome, hload]
      exact .done
    · simp only [perform, Renaming.command, houtcome, hload, Except.map]
      rw [sessionGraph?_replace_self, sessionGraph?_replace_self]
      rfl

theorem agrees_inspect (hrises : ∀ g, s.sessionGraph? t = some g → Rises r.state g.stateIds) :
    Agrees r t (.inspect (.session t)) s s' := by
  rcases hsim.find_cases with ⟨hfind, hfind'⟩ | ⟨g, h, h', hgraph, hget, hget', hfind, hfind'⟩
  · refine hsim.agrees_of_stay ?_ ?_ ?_
    · simp only [perform, Renaming.command, Renaming.target, hfind, hfind']
      exact .refused rfl
    · simp only [perform, hfind]
    · simp only [perform, Renaming.command, Renaming.target, hfind']
  · refine hsim.agrees_of_stay ?_ ?_ ?_
    · simp only [perform, Renaming.command, Renaming.target, hfind, hfind']
      exact .graph (hsim.seenAlike hgraph (hrises g hgraph))
    · simp only [perform, hfind]
    · simp only [perform, Renaming.command, Renaming.target, hfind']

theorem agrees_edit (change : Graph.Edit)
    (htracks : Supply.Tracks r.state r.transition s.supply
      (s.perform (.edit (.session t) change)).2.supply s'.supply) :
    Agrees r t (.edit (.session t) change) s s' := by
  rcases hsim.find_cases with ⟨hfind, hfind'⟩ | ⟨g, h, h', hgraph, hget, hget', hfind, hfind'⟩
  · refine hsim.agrees_of_stay ?_ ?_ ?_
    · simp only [perform, Renaming.command, Renaming.target, hfind, hfind']
      exact .refused rfl
    · simp only [perform, hfind]
    · simp only [perform, Renaming.command, Renaming.target, hfind']
  · have hsupply : (s.perform (.edit (.session t) change)).2.supply =
        (g.edit s.supply change).supply := by
      simp only [perform, hfind, put]
    rw [hsupply] at htracks
    have hsound : Sound { s with supply := (g.edit s.supply change).supply } :=
      ⟨hsim.sound.leads, hsim.sound.distinct⟩
    have hsound' : Sound { s' with
        supply := s'.supply.advanced s.supply (g.edit s.supply change).supply } :=
      ⟨hsim.sound'.leads, hsim.sound'.distinct⟩
    have hedit := g.edit_renumbered r.state_injective r.transition_injective change htracks
    refine ⟨?_, ?_, ?_⟩
    · simp only [perform, Renaming.command, Renaming.target, hfind, hfind', Renaming.graph, hedit]
      cases (g.edit s.supply change).answer with
      | error fault =>
        cases fault with
        | unknownState id => exact .refused rfl
        | unknownEndpoint id => exact .refused rfl
      | ok effect => exact .effect
    · simp only [perform, Renaming.command, Renaming.target, hfind, hfind', Renaming.graph, hedit]
      rw [hsound.sessionGraph?_put hget, hsound'.sessionGraph?_put hget', Option.map_some]
      rfl
    · rw [hsupply]
      simp only [perform, Renaming.command, Renaming.target, hfind', Renaming.graph, hedit, put]

/-- A command on the session is answered alike in both stores and has the same effect. -/
theorem agrees (hplain : c.plain) (howner : c.session? s = some t)
    (htracks : Supply.Tracks r.state r.transition s.supply (s.perform c).2.supply s'.supply)
    (hrises : ∀ g, s.sessionGraph? t = some g → Rises r.state g.stateIds) : Agrees r t c s s' := by
  cases c with
  | create name => exact hsim.agrees_create (Option.some.inj howner)
  | size => cases howner
  | get u =>
    cases howner
    refine hsim.agrees_of_stay ?_ rfl rfl
    exact .found hsim.contains_eq
  | contains u =>
    cases howner
    refine hsim.agrees_of_stay ?_ rfl rfl
    change r.Alike _ (.ok (.flag (s.contains t))) (.ok (.flag (s'.contains (r.token t))))
    rw [hsim.contains_eq]
    exact .flag
  | delete u =>
    cases howner
    exact hsim.agrees_delete
  | replace u source =>
    cases howner
    exact hsim.agrees_replace source htracks
  | copy u origin => cases hplain
  | inspect target =>
    cases target with
    | held h => cases hplain
    | session u =>
      cases howner
      exact hsim.agrees_inspect hrises
  | edit target change =>
    cases target with
    | held h => cases hplain
    | session u =>
      cases howner
      exact hsim.agrees_edit change htracks
  | reload target => cases hplain

end Simulates

/-! ### Steps -/

/-- Only a new session takes a number for its token. -/
theorem drawn_perform (hcreate : ∀ name, c ≠ .create name) : (s.perform c).2.drawn = s.drawn := by
  have hstep := step_perform s c
  generalize s.perform c = outcome at hstep ⊢
  cases hstep with
  | @create name => exact absurd rfl (hcreate name)
  | _ => rfl

theorem session?_of_bound {u : Token} (hbound : c.bound? s = some u) : c.session? s = some u := by
  cases c with
  | create name => exact hbound
  | delete t => exact hbound
  | replace t source => exact hbound
  | copy t origin => exact hbound
  | _ => cases hbound

/-- The graph that a command edits is that of the session which it is about. -/
theorem session?_of_edited (hplain : c.plain) {h : Handle} (hedited : c.edited? s = some h) :
    ∃ u, c.session? s = some u ∧ s.get? u = some h := by
  obtain ⟨target, hchanged, hhandle⟩ := Option.bind_eq_some_iff.mp hedited
  cases c with
  | edit target' change =>
    cases hchanged
    cases target with
    | held k => cases hplain
    | session u => exact ⟨u, rfl, hhandle⟩
  | reload target' => cases hplain
  | _ => cases hchanged

theorem Sound.sessionGraph?_of_foreign (hs : s.Sound) (hplain : c.plain)
    (hother : c.session? s ≠ some t) : (s.perform c).2.sessionGraph? t = s.sessionGraph? t := by
  refine (move_perform s c).sessionGraph?_eq hs ?_ fun h hedited hget => ?_
  · exact fun hbound => hother (session?_of_bound hbound)
  · obtain ⟨u, howner, hhandle⟩ := session?_of_edited hplain hedited
    rw [hs.distinct u t h hhandle hget] at howner
    exact hother howner

namespace Simulates

/-- A command on the session keeps the simulation. -/
theorem own (hsim : Simulates r t s s') (howner : c.session? s = some t)
    (hagrees : Agrees r t c s s') :
    Simulates r t (s.perform c).2 (s'.perform (r.command c)).2 where
  sound := (move_perform s c).sound hsim.sound
  sound' := (move_perform s' (r.command c)).sound hsim.sound'
  made := hsim.made.perform c
  made' := hsim.made'.perform (r.command c)
  defaultName_eq := by
    rw [(move_perform s c).defaultName_eq, (move_perform s' (r.command c)).defaultName_eq,
      hsim.defaultName_eq]
  graph_eq := hagrees.graph_eq
  gives_once := by
    rw [(move_perform s c).generator_eq]
    exact hsim.gives_once
  drawn_eq n ht hn := by
    rw [(move_perform s c).generator_eq] at ht
    rw [(move_perform s' (r.command c)).generator_eq]
    by_cases hcreate : ∃ name, c = .create name
    · -- the token has just been drawn, so it will not be drawn again
      obtain ⟨name, rfl⟩ := hcreate
      have hnumber : s.nextDraw = n := hsim.gives_once _ _ (Option.some.inj howner) ht
      have hnext : (s.perform (.create name)).2.drawn = s.nextDraw + 1 := rfl
      omega
    · have hother (name : Option String) : c ≠ .create name := fun heq => hcreate ⟨name, heq⟩
      have hother' (name : Option String) : r.command c ≠ .create name := by
        intro heq
        cases c with
        | create name => exact hother name rfl
        | _ => cases heq
      rw [drawn_perform hother] at hn
      rw [drawn_perform hother']
      exact hsim.drawn_eq n ht hn

/-- A command on any other session keeps the simulation if nothing is done on the right. -/
theorem foreign (hsim : Simulates r t s s') (hplain : c.plain) (hother : c.session? s ≠ some t) :
    Simulates r t (s.perform c).2 s' where
  sound := (move_perform s c).sound hsim.sound
  sound' := hsim.sound'
  made := hsim.made.perform c
  made' := hsim.made'
  defaultName_eq := by
    rw [(move_perform s c).defaultName_eq, hsim.defaultName_eq]
  graph_eq := by
    rw [hsim.sound.sessionGraph?_of_foreign hplain hother, hsim.graph_eq]
  gives_once := by
    rw [(move_perform s c).generator_eq]
    exact hsim.gives_once
  drawn_eq n ht hn := by
    rw [(move_perform s c).generator_eq] at ht
    exact hsim.drawn_eq n ht (Nat.le_trans (move_perform s c).drawn_le hn)

end Simulates

end Store

end FiniteAutomata.Session
