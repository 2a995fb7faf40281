import FiniteAutomata.Proofs.Graph.Growth
import FiniteAutomata.Proofs.Graph.Refusal
import FiniteAutomata.Proofs.Session.Made
import FiniteAutomata.Proofs.Session.Registry

/-!
What one command can do to a store. A command has one of a few outcomes (`step_perform`), and the
store that it leaves differs from the one before by one of four moves (`move_perform`): it takes
numbers, registers a graph, forgets a token, or changes the graph that one handle leads to. All that
a command leaves alone is read off these moves.
-/
namespace FiniteAutomata.Session

/-- The handle that a target stands for. -/
def Target.handle? (s : Store) : Target → Option Handle
  | .session t => s.get? t
  | .held h => some h

/-- The token that a command needs to be registered. -/
def Command.asked? : Command → Option Token
  | .copy _ origin => some origin
  | .inspect (.session t) | .edit (.session t) _ | .reload (.session t) => some t
  | _ => none

/-- The token whose registration a command may change. -/
def Command.bound? (s : Store) : Command → Option Token
  | .create name => some (s.create name).1
  | .delete t | .replace t _ | .copy t _ => some t
  | _ => none

/-- What a command names that may change a graph. -/
def Command.changed? : Command → Option Target
  | .edit target _ | .reload target => some target
  | _ => none

/-- The handle that leads to the graph which a command may change. -/
def Command.edited? (s : Store) (c : Command) : Option Handle := c.changed?.bind (·.handle? s)

namespace Store

variable {s s' : Store} {c : Command} {t : Token} {h : Handle} {g : Graph} {target : Target}
  {e : Error}

theorem AllMade.wellFormed (hs : s.AllMade) (hgraph : s.graph? h = some g) :
    g.WellFormed s.supply :=
  (hs g (List.mem_of_getElem? hgraph)).wellFormed

theorem find_eq_ok_iff :
    s.find target = .ok (h, g) ↔
      target.handle? s = some h ∧ (s.graph? h).getD .unnamed = g := by
  cases target with
  | held k =>
    simp only [find, Target.handle?, Except.ok.injEq, Prod.mk.injEq, Option.some.injEq]
    refine and_congr_right fun hk => ?_
    rw [hk]
  | session t =>
    simp only [find, Target.handle?]
    cases s.get? t with
    | none => simp
    | some k =>
      simp only [Except.ok.injEq, Prod.mk.injEq, Option.some.injEq]
      refine and_congr_right fun hk => ?_
      rw [hk]

theorem find_of_graph? (hhandle : target.handle? s = some h) (hgraph : s.graph? h = some g) :
    s.find target = .ok (h, g) :=
  find_eq_ok_iff.mpr ⟨hhandle, by rw [hgraph, Option.getD_some]⟩

/-- A change to a graph is a change to what the handle leads to. -/
theorem graph?_perform_edit (hhandle : target.handle? s = some h) (hgraph : s.graph? h = some g)
    (change : Graph.Edit) :
    (s.perform (.edit target change)).2.graph? h = some (g.edit s.supply change).graph := by
  simp only [perform, find_of_graph? hhandle hgraph]
  exact graph?_put_self (graph?_isSome_iff.mp (Option.isSome_iff_exists.mpr ⟨g, hgraph⟩))

theorem find_eq_error_iff :
    s.find target = .error e ↔
      ∃ t, target = .session t ∧ s.get? t = none ∧ e = .unknownSession t := by
  cases target with
  | held k => simp [find]
  | session t =>
    simp only [find, Target.session.injEq]
    cases hget : s.get? t with
    | none =>
      constructor
      · intro heq
        cases heq
        exact ⟨t, rfl, hget, rfl⟩
      · rintro ⟨u, rfl, -, rfl⟩
        rfl
    | some k =>
      constructor
      · intro heq
        cases heq
      · rintro ⟨u, rfl, hnone, -⟩
        rw [hget] at hnone
        cases hnone

/-- No command both binds a token and changes a graph. -/
theorem edited?_eq_none_of_bound (hbound : c.bound? s = some t) : c.edited? s = none := by
  cases c <;> first | rfl | cases hbound

theorem bound?_eq_none_of_changed (hchanged : c.changed? = some target) : c.bound? s = none := by
  cases c <;> first | rfl | cases hchanged

/-! ### Outcomes -/

/-- The answer to a command and the store that it leaves. -/
inductive Step (s : Store) : Command → Except Error Answer × Store → Prop
  | create {name : Option String} :
      Step s (.create name) (.ok (.token (s.create name).1), (s.create name).2)
  | size : Step s .size (.ok (.size s.size), s)
  | get {t : Token} : Step s (.get t) (.ok (.handle (s.get? t)), s)
  | contains {t : Token} : Step s (.contains t) (.ok (.flag (s.contains t)), s)
  | delete {t : Token} : Step s (.delete t) (.ok (.flag (s.contains t)), (s.delete t).2)
  | unknown {c : Command} {t : Token} (hasked : c.asked? = some t) (hget : s.get? t = none) :
      Step s c (.error (.unknownSession t), s)
  | unloaded {t : Token} {source : Source} {e : Error} {later : Supply}
      (hload : source.load s.supply = ⟨.error e, later⟩) :
      Step s (.replace t source) (.error e, { s with supply := later })
  | replaced {t : Token} {source : Source} {g : Graph} {later : Supply}
      (hload : source.load s.supply = ⟨.ok g, later⟩) :
      Step s (.replace t source) (.ok .done, { s with supply := later }.replace t g)
  | copied {t origin : Token} {h : Handle} {g : Graph}
      (hfind : s.find (.session origin) = .ok (h, g)) :
      Step s (.copy t origin) (.ok .done, s.replace t g)
  | inspected {target : Target} {h : Handle} {g : Graph} (hfind : s.find target = .ok (h, g)) :
      Step s (.inspect target) (.ok (.graph g), s)
  | refused {target : Target} {change : Graph.Edit} {h : Handle} {g : Graph} {fault : Graph.Fault}
      (hfind : s.find target = .ok (h, g))
      (hanswer : (g.edit s.supply change).answer = .error fault) :
      Step s (.edit target change) (.error (.ofGraph fault), s)
  | edited {target : Target} {change : Graph.Edit} {h : Handle} {g g' : Graph}
      {effect : Graph.Effect} {later : Supply} (hfind : s.find target = .ok (h, g))
      (hedit : g.edit s.supply change = ⟨.ok effect, later, g'⟩) :
      Step s (.edit target change) (.ok (.effect effect), { s with supply := later }.put h g')
  | spoiled {target : Target} {h : Handle} {g : Graph} {fault : Snapshot.TextFault}
      {later : Supply} (hfind : s.find target = .ok (h, g))
      (hload : Graph.ofSnapshotText g.snapshotText s.supply = ⟨.error fault, later⟩) :
      Step s (.reload target) (.error (.snapshotText fault), { s with supply := later })
  | reloaded {target : Target} {h : Handle} {g g' : Graph} {later : Supply}
      (hfind : s.find target = .ok (h, g))
      (hload : Graph.ofSnapshotText g.snapshotText s.supply = ⟨.ok g', later⟩) :
      Step s (.reload target) (.ok .done, { s with supply := later }.put h g')

/-- A target that leads nowhere is a token, the one that the command asks for. -/
theorem Step.of_find (hfind : s.find target = .error e)
    (hasked : ∀ t, target = .session t → c.asked? = some t) : Step s c (.error e, s) := by
  obtain ⟨t, htarget, hnone, rfl⟩ := find_eq_error_iff.mp hfind
  exact .unknown (hasked t htarget) hnone

theorem step_perform (s : Store) (c : Command) : Step s c (s.perform c) := by
  cases c with
  | create name => exact .create
  | size => exact .size
  | get t => exact .get
  | contains t => exact .contains
  | delete t => exact .delete
  | replace t source =>
    rcases hload : source.load s.supply with ⟨outcome, later⟩
    cases outcome with
    | error e =>
      simp only [perform, hload]
      exact .unloaded hload
    | ok g =>
      simp only [perform, hload]
      exact .replaced hload
  | copy t origin =>
    cases hfind : s.find (.session origin) with
    | error e =>
      simp only [perform, hfind]
      exact .of_find hfind fun u hu => by cases hu; rfl
    | ok found =>
      simp only [perform, hfind]
      exact .copied hfind
  | inspect target =>
    cases hfind : s.find target with
    | error e =>
      simp only [perform, hfind]
      exact .of_find hfind fun u hu => by cases hu; rfl
    | ok found =>
      simp only [perform, hfind]
      exact .inspected hfind
  | edit target change =>
    cases hfind : s.find target with
    | error e =>
      simp only [perform, hfind]
      exact .of_find hfind fun u hu => by cases hu; rfl
    | ok found =>
      rcases hedit : found.2.edit s.supply change with ⟨answer, later, g'⟩
      simp only [perform, hfind, hedit]
      cases answer with
      | error fault =>
        have hanswer : (found.2.edit s.supply change).answer = .error fault := by rw [hedit]
        rw [Graph.edit_of_error hanswer] at hedit
        cases hedit
        rw [put_same (find_eq_ok_iff.mp hfind).2]
        exact .refused hfind hanswer
      | ok effect => exact .edited hfind hedit
  | reload target =>
    cases hfind : s.find target with
    | error e =>
      simp only [perform, hfind]
      exact .of_find hfind fun u hu => by cases hu; rfl
    | ok found =>
      rcases hload : Graph.ofSnapshotText found.2.snapshotText s.supply with ⟨outcome, later⟩
      simp only [perform, hfind, hload]
      cases outcome with
      | error fault => exact .spoiled hfind hload
      | ok g' => exact .reloaded hfind hload

/-! ### Moves -/

/-- What a command may lead to from `s`. A graph that is registered was just made, or it is a copy
of a graph in the store, and a graph that is changed gains new numbers only. -/
inductive Move (s : Store) (c : Command) : Store → Prop
  | wait {later : Supply} (hle : s.supply ≤ later) : Move s c { s with supply := later }
  | register {t : Token} {g : Graph} {later : Supply} {drawn : Nat}
      (hbound : c.bound? s = some t) (hle : s.supply ≤ later) (hdrawn : s.drawn ≤ drawn)
      (horigin : (∀ k, Graph.Grows s.supply k g) ∨
        ∃ origin, c = .copy t origin ∧ s.sessionGraph? origin = some g) :
      Move s c { s.replace t g with supply := later, drawn }
  | forget {t : Token} (hbound : c.bound? s = some t) : Move s c (s.delete t).2
  | change {h : Handle} {g : Graph} {later : Supply} (hedited : c.edited? s = some h)
      (hle : s.supply ≤ later)
      (hgrows : Graph.Grows s.supply ((s.graph? h).getD .unnamed) g) :
      Move s c ({ s with supply := later }.put h g)

/-- A query moves nothing. -/
theorem Move.stay (s : Store) (c : Command) : Move s c s := .wait (le_refl s.supply)

theorem Step.move {outcome : Except Error Answer × Store} (hstep : Step s c outcome) :
    Move s c outcome.2 := by
  cases hstep with
  | @create name =>
    have hblank (k : Graph) : Graph.Grows s.supply k (.named (name.getD s.defaultName)) :=
      (Graph.Grows.refl s.supply _).of_named k
    exact .register rfl (le_refl s.supply) (Nat.le_succ_of_le s.nextDraw_spec.1) (Or.inl hblank)
  | delete => exact .forget rfl
  | @unloaded t source e later hload =>
    have hle := (source.makes_load s.supply).1
    rw [hload] at hle
    exact .wait hle
  | @replaced t source g later hload =>
    have hle := (source.makes_load s.supply).1
    have hgrows := source.grows_load (congrArg Attempt.outcome hload)
    rw [hload] at hle
    exact .register rfl hle (Nat.le_refl s.drawn) (Or.inl hgrows)
  | @copied t origin h g hfind =>
    obtain ⟨hget, hg⟩ := find_eq_ok_iff.mp hfind
    have hle : s.supply ≤ s.supply := le_refl s.supply
    refine .register rfl hle (Nat.le_refl s.drawn) ?_
    cases hgraph : s.graph? h with
    | none =>
      rw [hgraph] at hg
      rw [← hg]
      exact Or.inl (Graph.Grows.refl s.supply .unnamed).of_named
    | some held =>
      rw [hgraph] at hg
      exact Or.inr ⟨origin, rfl, sessionGraph?_eq_some_iff.mpr ⟨h, hget, hg ▸ hgraph⟩⟩
  | @edited target change h g g' effect later hfind hedit =>
    obtain ⟨hhandle, hg⟩ := find_eq_ok_iff.mp hfind
    have hrow := Graph.strokes_edit g s.supply change
    rw [hedit] at hrow
    refine .change hhandle (Graph.Strokes.supply_le hrow) ?_
    rw [hg]
    exact hrow.grows
  | @spoiled target h g fault later hfind hload =>
    have hle := (Graph.makes_ofSnapshotText g.snapshotText s.supply).1
    rw [hload] at hle
    exact .wait hle
  | @reloaded target h g g' later hfind hload =>
    have hle := (Graph.makes_ofSnapshotText g.snapshotText s.supply).1
    have hsaved : ((Source.saved g.snapshotText).load s.supply).outcome = .ok g' := by
      simp only [Source.load, hload]
      rfl
    rw [hload] at hle
    exact .change (find_eq_ok_iff.mp hfind).1 hle (Source.grows_load _ hsaved _)
  | _ => exact .stay s _

theorem move_perform (s : Store) (c : Command) : Move s c (s.perform c).2 := (step_perform s c).move

/-- A command that fails takes numbers at most. -/
theorem perform_of_error (hfails : (s.perform c).1 = .error e) :
    (s.perform c).2 = { s with supply := (s.perform c).2.supply } := by
  have hstep := step_perform s c
  generalize s.perform c = outcome at hstep hfails ⊢
  cases hstep <;> first | rfl | cases hfails

namespace Move

theorem supply_le (hmove : Move s c s') : s.supply ≤ s'.supply := by
  cases hmove with
  | wait hle => exact hle
  | register _ hle => exact hle
  | forget => exact le_refl s.supply
  | change _ hle => exact hle

theorem drawn_le (hmove : Move s c s') : s.drawn ≤ s'.drawn := by
  cases hmove with
  | register _ _ hdrawn => exact hdrawn
  | _ => exact Nat.le_refl s.drawn

theorem defaultName_eq (hmove : Move s c s') : s'.defaultName = s.defaultName := by
  cases hmove <;> rfl

theorem generator_eq (hmove : Move s c s') : s'.generator = s.generator := by
  cases hmove <;> rfl

theorem sound (hmove : Move s c s') (hs : s.Sound) : s'.Sound := by
  cases hmove with
  | wait => exact ⟨hs.leads, hs.distinct⟩
  | @register t g =>
    have hreplaced := hs.replace t g
    exact ⟨hreplaced.leads, hreplaced.distinct⟩
  | @forget t => exact hs.delete t
  | @change h g later =>
    have hwaited : Sound { s with supply := later } := ⟨hs.leads, hs.distinct⟩
    exact hwaited.put h g

theorem length_le (hmove : Move s c s') : s.graphs.length ≤ s'.graphs.length := by
  cases hmove with
  | register => simp [Store.replace]
  | change => simp [Store.put]
  | _ => exact Nat.le_refl s.graphs.length

/-- A token is registered as it was, or it is the one that the command binds, and then it is not
registered or leads to a graph of its own. -/
theorem get?_cases (hmove : Move s c s') (t : Token) :
    s'.get? t = s.get? t ∨
      c.bound? s = some t ∧ (s'.get? t = none ∨ s'.get? t = some ⟨s.graphs.length⟩) := by
  cases hmove with
  | wait => exact Or.inl rfl
  | @register u g later drawn hbound =>
    have hget : Store.get? { s.replace u g with supply := later, drawn } t =
        if t = u then some ⟨s.graphs.length⟩ else s.get? t := get?_replace s u t g
    rw [hget]
    by_cases ht : t = u
    · exact Or.inr ⟨ht ▸ hbound, Or.inr (if_pos ht)⟩
    · exact Or.inl (if_neg ht)
  | @forget u hbound =>
    rw [get?_delete]
    by_cases ht : t = u
    · exact Or.inr ⟨ht ▸ hbound, Or.inl (if_pos ht)⟩
    · exact Or.inl (if_neg ht)
  | change => exact Or.inl rfl

theorem get?_eq (hmove : Move s c s') (hfree : c.bound? s ≠ some t) : s'.get? t = s.get? t := by
  rcases hmove.get?_cases t with heq | ⟨hbound, -⟩
  · exact heq
  · exact absurd hbound hfree

theorem graph?_eq (hmove : Move s c s') (hold : h.index < s.graphs.length ∨ c.bound? s = none)
    (hfree : c.edited? s ≠ some h) : s'.graph? h = s.graph? h := by
  cases hmove with
  | wait => rfl
  | @register u g later drawn hbound =>
    have hlead : h.index < s.graphs.length := by
      rcases hold with hlead | hunbound
      · exact hlead
      · rw [hunbound] at hbound
        cases hbound
    have hgraph := graph?_replace s u g h
    rwa [if_neg (Nat.ne_of_lt hlead)] at hgraph
  | forget => rfl
  | @change k g later hedited =>
    have hne : h ≠ k := fun heq => hfree (heq ▸ hedited)
    exact graph?_put_of_ne hne

/-- The graph of a session stays as it is if neither its token is bound anew nor the graph itself is
changed. -/
theorem sessionGraph?_eq (hmove : Move s c s') (hs : s.Sound) (hbound : c.bound? s ≠ some t)
    (hedited : ∀ h, c.edited? s = some h → s.get? t ≠ some h) :
    s'.sessionGraph? t = s.sessionGraph? t := by
  rw [sessionGraph?, sessionGraph?, hmove.get?_eq hbound]
  cases hget : s.get? t with
  | none => rfl
  | some h =>
    have hfree : c.edited? s ≠ some h := fun hchanged => hedited h hchanged hget
    exact hmove.graph?_eq (Or.inl (hs.leads t h hget)) hfree

theorem sessionGraph?_eq_of_bound (hmove : Move s c s') (hs : s.Sound)
    {u : Token} (hbound : c.bound? s = some u) (hne : t ≠ u) :
    s'.sessionGraph? t = s.sessionGraph? t := by
  refine hmove.sessionGraph?_eq hs ?_ fun h hedited => ?_
  · rw [hbound]
    exact fun heq => hne (Option.some.inj heq).symm
  · rw [edited?_eq_none_of_bound hbound] at hedited
    cases hedited

/-- A command touches one graph at most. That graph gained new numbers only, or it is a copy, newly
registered, of a graph in the store. -/
theorem exists_touched (hmove : Move s c s') :
    ∃ k : Handle, (∀ h, h ≠ k → s'.graph? h = s.graph? h) ∧
      ∀ g, s'.graph? k = some g →
        Graph.Grows s.supply ((s.graph? k).getD .unnamed) g ∨
          k.index = s.graphs.length ∧
            ∃ t origin, c = .copy t origin ∧ s.sessionGraph? origin = some g := by
  have hfree {g : Graph} : s.graph? ⟨s.graphs.length⟩ ≠ some g := by
    intro hgraph
    have hsome := graph?_isSome_iff.mp (Option.isSome_iff_exists.mpr ⟨g, hgraph⟩)
    exact Nat.lt_irrefl _ hsome
  cases hmove with
  | wait => exact ⟨⟨s.graphs.length⟩, fun h _ => rfl, fun g hgraph => absurd hgraph hfree⟩
  | @register t made later drawn hbound hle hdrawn horigin =>
    refine ⟨⟨s.graphs.length⟩, fun h hne => ?_, fun g hgraph => ?_⟩
    · have hindex : h.index ≠ s.graphs.length := by
        intro heq
        apply hne
        rw [← heq]
      exact (graph?_replace s t made h).trans (if_neg hindex)
    · have hgraph : (s.replace t made).graph? ⟨s.graphs.length⟩ = some g := hgraph
      rw [graph?_replace, if_pos rfl] at hgraph
      cases hgraph
      rcases horigin with hnew | ⟨origin, hcopy, hcopied⟩
      · exact Or.inl (hnew _)
      · exact Or.inr ⟨rfl, t, origin, hcopy, hcopied⟩
  | forget => exact ⟨⟨s.graphs.length⟩, fun h _ => rfl, fun g hgraph => absurd hgraph hfree⟩
  | @change k changed later hedited hle hgrows =>
    refine ⟨k, fun h hne => graph?_put_of_ne hne, fun g hgraph => ?_⟩
    rcases graph?_put_eq_some hgraph with ⟨-, rfl⟩ | ⟨hne, -⟩
    · exact Or.inl hgrows
    · exact absurd rfl hne

end Move

end Store

end FiniteAutomata.Session
