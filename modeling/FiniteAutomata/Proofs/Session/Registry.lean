import FiniteAutomata.Session.Store

/-!
What a store knows of tokens, handles and graphs. Registering a token, deleting it and putting a
graph where a handle leads are said by the look-ups alone. In a sound store every registered handle
leads to a graph and no two tokens share a handle, and a token that the store draws is free.
-/
namespace FiniteAutomata.Session

namespace Generator

variable {generator : Generator} {known : List Token} {fuel n i : Nat}

/-- If a token that is not known comes in time, then the first such one is found. -/
theorem firstNew_spec (hi : i < fuel) (hnew : generator.draw (n + i) ∉ known) :
    n ≤ generator.firstNew known fuel n ∧
      generator.draw (generator.firstNew known fuel n) ∉ known ∧
      ∀ k, n ≤ k → k < generator.firstNew known fuel n → generator.draw k ∈ known := by
  induction fuel generalizing n i with
  | zero => exact absurd hi (Nat.not_lt_zero i)
  | succ fuel ih =>
    by_cases hfirst : generator.draw n ∈ known
    · rw [firstNew, if_pos hfirst]
      cases i with
      | zero => exact absurd hfirst hnew
      | succ i =>
        have hnew' : generator.draw (n + 1 + i) ∉ known := by
          rwa [Nat.add_assoc, Nat.add_comm 1 i]
        obtain ⟨hle, hfound, hbetween⟩ := ih (Nat.lt_of_succ_lt_succ hi) hnew'
        refine ⟨Nat.le_of_succ_le hle, hfound, fun k hk hlt => ?_⟩
        rcases Nat.eq_or_lt_of_le hk with rfl | hk
        · exact hfirst
        · exact hbetween k hk hlt
    · rw [firstNew, if_neg hfirst]
      exact ⟨Nat.le_refl n, hfirst, fun k hle hlt => absurd hle (Nat.not_le_of_lt hlt)⟩

theorem next_spec (generator : Generator) (known : List Token) (n : Nat) :
    n ≤ generator.next known n ∧ generator.draw (generator.next known n) ∉ known ∧
      ∀ k, n ≤ k → k < generator.next known n → generator.draw k ∈ known := by
  obtain ⟨i, hi, hnew⟩ := generator.exists_new known n
  exact firstNew_spec hi hnew

/-- The generator gives the token at one place at most. -/
def GivesOnce (generator : Generator) (t : Token) : Prop :=
  ∀ m n, generator.draw m = t → generator.draw n = t → m = n

theorem givesOnce_numbered (t : Token) : numbered.GivesOnce t :=
  fun _ _ hm hn => Token.drawn.inj (hm.trans hn.symm)

end Generator

namespace Store

variable {s : Store} {t u : Token} {h k : Handle} {g : Graph}

/-- The graph that a token is registered for. -/
def sessionGraph? (s : Store) (t : Token) : Option Graph := (s.get? t).bind s.graph?

/-! ### Tokens -/

theorem lookup_filter_ne (sessions : List (Token × Handle)) (t u : Token) :
    (sessions.filter (·.1 ≠ t)).lookup u = if u = t then none else sessions.lookup u := by
  induction sessions with
  | nil => simp
  | cons p ps ih =>
    obtain ⟨v, k⟩ := p
    by_cases hv : v = t
    · rw [List.filter_cons_of_neg (by simp [hv]), ih]
      by_cases hu : u = t
      · rw [if_pos hu, if_pos hu]
      · have hne : (u == v) = false := beq_false_of_ne (hv ▸ hu)
        rw [if_neg hu, if_neg hu, List.lookup_cons, hne]
    · rw [List.filter_cons_of_pos (by simp [hv]), List.lookup_cons, List.lookup_cons, ih]
      by_cases huv : u = v
      · simp [huv, hv]
      · simp [beq_false_of_ne huv]

theorem get?_replace (s : Store) (t u : Token) (g : Graph) :
    (s.replace t g).get? u = if u = t then some ⟨s.graphs.length⟩ else s.get? u := by
  rw [get?, replace, List.lookup_cons, lookup_filter_ne]
  by_cases hu : u = t
  · simp [hu]
  · simp [hu, beq_false_of_ne hu, get?]

theorem get?_delete (s : Store) (t u : Token) :
    (s.delete t).2.get? u = if u = t then none else s.get? u :=
  lookup_filter_ne s.sessions t u

theorem contains_eq_false_iff : s.contains t = false ↔ s.get? t = none := by
  rw [contains, Option.isSome_eq_false_iff, Option.isNone_iff_eq_none]

/-! ### Graphs -/

theorem graph?_isSome_iff : (s.graph? h).isSome ↔ h.index < s.graphs.length := by
  rw [graph?, Option.isSome_iff_ne_none, ne_eq, List.getElem?_eq_none_iff, Nat.not_le]

theorem graph?_replace (s : Store) (t : Token) (g : Graph) (h : Handle) :
    (s.replace t g).graph? h = if h.index = s.graphs.length then some g else s.graph? h := by
  rw [graph?, replace, List.getElem?_append, graph?]
  by_cases hlt : h.index < s.graphs.length
  · rw [if_pos hlt, if_neg (Nat.ne_of_lt hlt)]
  · rw [if_neg hlt, List.getElem?_singleton]
    by_cases heq : h.index = s.graphs.length
    · simp [heq]
    · have hpast : h.index - s.graphs.length ≠ 0 := by omega
      rw [if_neg hpast, if_neg heq, List.getElem?_eq_none (Nat.not_lt.mp hlt)]

theorem graph?_put_of_ne (hne : h ≠ k) : (s.put k g).graph? h = s.graph? h := by
  have hindex : k.index ≠ h.index := by
    intro heq
    apply hne
    cases h
    cases k
    exact congrArg Handle.mk heq.symm
  rw [graph?, put, List.getElem?_set_ne hindex, graph?]

theorem graph?_put_self (hlead : h.index < s.graphs.length) : (s.put h g).graph? h = some g := by
  rw [graph?, put, List.getElem?_set_self hlead]

/-- Putting back what a handle leads to changes nothing, also where it leads nowhere. -/
theorem put_same (hsame : (s.graph? h).getD .unnamed = g) : s.put h g = s := by
  have hset : s.graphs.set h.index g = s.graphs := by
    apply List.ext_getElem?
    intro i
    rw [List.getElem?_set]
    by_cases hi : h.index = i
    · rw [if_pos hi, ← hi]
      by_cases hlead : h.index < s.graphs.length
      · rw [if_pos hlead, ← hsame, graph?, List.getElem?_eq_getElem hlead, Option.getD_some]
      · rw [if_neg hlead, List.getElem?_eq_none (Nat.not_lt.mp hlead)]
    · rw [if_neg hi]
  rw [put, hset]

/-- Whatever is found where a handle leads after a put was put there or was there before. -/
theorem graph?_put_eq_some {g' : Graph} (hput : (s.put k g).graph? h = some g') :
    (h = k ∧ g' = g) ∨ (h ≠ k ∧ s.graph? h = some g') := by
  by_cases hk : h = k
  · subst hk
    have hlead : h.index < s.graphs.length := by
      have hsome : ((s.put h g).graph? h).isSome := by rw [hput]; rfl
      simpa [put] using graph?_isSome_iff.mp hsome
    rw [graph?_put_self hlead] at hput
    exact Or.inl ⟨rfl, (Option.some.inj hput).symm⟩
  · rw [graph?_put_of_ne hk] at hput
    exact Or.inr ⟨hk, hput⟩

theorem sessionGraph?_eq_some_iff :
    s.sessionGraph? t = some g ↔ ∃ h, s.get? t = some h ∧ s.graph? h = some g := by
  rw [sessionGraph?, Option.bind_eq_some_iff]

theorem sessionGraph?_replace_self (s : Store) (t : Token) (g : Graph) :
    (s.replace t g).sessionGraph? t = some g := by
  rw [sessionGraph?, get?_replace, if_pos rfl, Option.bind_some, graph?_replace, if_pos rfl]

theorem sessionGraph?_delete_self (s : Store) (t : Token) :
    (s.delete t).2.sessionGraph? t = none := by
  rw [sessionGraph?, get?_delete, if_pos rfl, Option.bind_none]

/-! ### Sound stores -/

/-- Tokens lead to graphs, and different tokens to different ones. -/
structure Sound (s : Store) : Prop where
  leads : ∀ t h, s.get? t = some h → h.index < s.graphs.length
  distinct : ∀ t u h, s.get? t = some h → s.get? u = some h → t = u

namespace Sound

theorem empty (defaultName : String) (supply : Supply) (generator : Generator) :
    (emptyWith generator defaultName supply).Sound where
  leads _ _ hget := nomatch hget
  distinct _ _ _ hget := nomatch hget

/-- A new handle is further on than every handle that is registered. -/
theorem replace (hs : s.Sound) (t : Token) (g : Graph) : (s.replace t g).Sound where
  leads u h hget := by
    have hlength : (s.replace t g).graphs.length = s.graphs.length + 1 := by simp [Store.replace]
    rw [get?_replace] at hget
    rw [hlength]
    by_cases hu : u = t
    · rw [if_pos hu] at hget
      cases hget
      exact Nat.lt_succ_self _
    · rw [if_neg hu] at hget
      exact Nat.lt_succ_of_lt (hs.leads u h hget)
  distinct u v h hu hv := by
    have hold {w : Token} (hw : s.get? w = some ⟨s.graphs.length⟩) : False :=
      Nat.lt_irrefl _ (hs.leads w _ hw)
    rw [get?_replace] at hu hv
    by_cases hut : u = t
    · by_cases hvt : v = t
      · rw [hut, hvt]
      · rw [if_pos hut] at hu
        rw [if_neg hvt] at hv
        cases hu
        exact (hold hv).elim
    · rw [if_neg hut] at hu
      by_cases hvt : v = t
      · rw [if_pos hvt] at hv
        cases hv
        exact (hold hu).elim
      · rw [if_neg hvt] at hv
        exact hs.distinct u v h hu hv

theorem delete (hs : s.Sound) (t : Token) : (s.delete t).2.Sound := by
  have hkept {u : Token} {h : Handle} (hget : (s.delete t).2.get? u = some h) :
      s.get? u = some h := by
    rw [get?_delete] at hget
    by_cases hu : u = t
    · rw [if_pos hu] at hget
      cases hget
    · rwa [if_neg hu] at hget
  exact ⟨fun u h hget => hs.leads u h (hkept hget),
    fun u v h hu hv => hs.distinct u v h (hkept hu) (hkept hv)⟩

theorem put (hs : s.Sound) (k : Handle) (g : Graph) : (s.put k g).Sound where
  leads t h hget := by
    have hlength : (s.put k g).graphs.length = s.graphs.length := by simp [Store.put]
    rw [hlength]
    exact hs.leads t h hget
  distinct t u h ht hu := hs.distinct t u h ht hu

theorem exists_graph (hs : s.Sound) (hget : s.get? t = some h) : ∃ g, s.graph? h = some g :=
  Option.isSome_iff_exists.mp (graph?_isSome_iff.mpr (hs.leads t h hget))

theorem sessionGraph?_eq_none_iff (hs : s.Sound) :
    s.sessionGraph? t = none ↔ s.get? t = none := by
  rw [sessionGraph?]
  cases hget : s.get? t with
  | none => simp
  | some h =>
    obtain ⟨g, hg⟩ := hs.exists_graph hget
    simp [hg]

theorem contains_eq (hs : s.Sound) (t : Token) : s.contains t = (s.sessionGraph? t).isSome := by
  rw [contains, Bool.eq_iff_iff, Option.isSome_iff_ne_none, Option.isSome_iff_ne_none, ne_eq, ne_eq,
    hs.sessionGraph?_eq_none_iff]

end Sound

/-! ### Drawing tokens -/

theorem contains_iff_mem_tokens : s.contains t ↔ t ∈ s.sessions.map (·.1) := by
  rw [contains, get?, ← Bool.not_eq_false, Option.isSome_eq_false_iff, Option.isNone_iff_eq_none,
    List.lookup_eq_none_iff, List.mem_map]
  simp

/-- The next token is the first that is not registered. -/
theorem nextDraw_spec (s : Store) :
    s.drawn ≤ s.nextDraw ∧ s.contains (s.generator.draw s.nextDraw) = false ∧
      ∀ k, s.drawn ≤ k → k < s.nextDraw → s.contains (s.generator.draw k) := by
  simp only [← Bool.not_eq_true, contains_iff_mem_tokens]
  exact s.generator.next_spec (s.sessions.map (·.1)) s.drawn

/-- A token that is not registered is taken at once. -/
theorem nextDraw_eq (hfree : s.contains (s.generator.draw s.drawn) = false) :
    s.nextDraw = s.drawn := by
  obtain ⟨hle, -, hbetween⟩ := s.nextDraw_spec
  refine Nat.le_antisymm (Nat.le_of_not_lt fun hlt => ?_) hle
  have hknown := hbetween s.drawn (Nat.le_refl _) hlt
  rw [hfree] at hknown
  cases hknown

end Store

end FiniteAutomata.Session
