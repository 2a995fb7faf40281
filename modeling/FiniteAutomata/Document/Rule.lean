import FiniteAutomata.Document.Token

/-!
Rules of a grammar. A rule takes what it needs from the head of the tokens and leaves the rest, or
complains about the first token that does not fit. `Consumes` and `Keeps` say that a rule that
succeeds leaves fewer tokens, or not more; they carry over to rules in sequence.
-/
namespace FiniteAutomata.Document

abbrev Rule (α : Type) := StateT (List Token) (Except Complaint) α

namespace Rule

variable {α β : Type}

structure Consumes (r : Rule α) : Prop where
  shorter {ts rest : List Token} {a : α} : r ts = .ok (a, rest) → rest.length < ts.length

structure Keeps (r : Rule α) : Prop where
  notLonger {ts rest : List Token} {a : α} : r ts = .ok (a, rest) → rest.length ≤ ts.length

theorem Consumes.keeps {r : Rule α} (h : Consumes r) : Keeps r :=
  ⟨fun hr => Nat.le_of_lt (h.shorter hr)⟩

theorem bind_eq_ok {r : Rule α} {f : α → Rule β} {ts rest : List Token} {b : β}
    (h : (r >>= f) ts = .ok (b, rest)) :
    ∃ a us, r ts = .ok (a, us) ∧ f a us = .ok (b, rest) := by
  change (r ts >>= fun (p : α × List Token) => f p.1 p.2) = _ at h
  cases hr : r ts with
  | error e => rw [hr] at h; cases h
  | ok p => rw [hr] at h; exact ⟨p.1, p.2, rfl, h⟩

theorem keeps_pure (a : α) : Keeps (pure a : Rule α) :=
  ⟨fun h => by cases h; exact Nat.le_refl _⟩

theorem keeps_throw (e : Complaint) : Keeps (throw e : Rule α) := ⟨nofun⟩

theorem Consumes.bind {r : Rule α} {f : α → Rule β} (hr : Consumes r) (hf : ∀ a, Keeps (f a)) :
    Consumes (r >>= f) :=
  ⟨fun h => by
    obtain ⟨a, us, ha, hb⟩ := bind_eq_ok h
    exact Nat.lt_of_le_of_lt ((hf a).notLonger hb) (hr.shorter ha)⟩

theorem Keeps.bind {r : Rule α} {f : α → Rule β} (hr : Keeps r) (hf : ∀ a, Keeps (f a)) :
    Keeps (r >>= f) :=
  ⟨fun h => by
    obtain ⟨a, us, ha, hb⟩ := bind_eq_ok h
    exact Nat.le_trans ((hf a).notLonger hb) (hr.notLonger ha)⟩

theorem Consumes.map {r : Rule α} (hr : Consumes r) (f : α → β) : Consumes (f <$> r) :=
  hr.bind fun a => keeps_pure (f a)

end Rule

/-- Complains about the head of the tokens, or about the end where there is none. -/
def complain {α : Type} (finish : Location) (fault : Fault) : Rule α
  | [] => .error ⟨fault, finish⟩
  | t :: _ => .error ⟨fault, t.location⟩

/-- The kind of the next token. -/
def headKind : List Token → Token.Kind
  | [] => .finish
  | t :: _ => t.kind

/-- Takes a token of a kind. -/
def expect (finish : Location) (kind : Token.Kind) : Rule Token
  | [] => .error ⟨.expected kind .finish, finish⟩
  | t :: ts =>
    if t.kind = kind then .ok (t, ts) else .error ⟨.expected kind t.kind, t.location⟩

/-- Takes a token that has a meaning, and gives the meaning. -/
def meaning {α : Type} (finish : Location) (fault : Fault) (of? : Token → Option α) : Rule α
  | [] => .error ⟨fault, finish⟩
  | t :: ts =>
    match of? t with
    | some a => .ok (a, ts)
    | none => .error ⟨fault, t.location⟩

theorem consumes_complain {α : Type} (finish : Location) (fault : Fault) :
    (complain finish fault : Rule α).Consumes :=
  ⟨fun {ts _ _} h => by cases ts <;> cases h⟩

theorem consumes_expect (finish : Location) (kind : Token.Kind) :
    (expect finish kind).Consumes where
  shorter {ts _ _} h := by
    cases ts with
    | nil => cases h
    | cons t ts =>
      simp only [expect] at h
      split at h
      · cases h; exact Nat.lt_succ_self _
      · cases h

theorem consumes_meaning {α : Type} (finish : Location) (fault : Fault) (of? : Token → Option α) :
    (meaning finish fault of?).Consumes where
  shorter {ts _ _} h := by
    cases ts with
    | nil => cases h
    | cons t ts =>
      simp only [meaning] at h
      split at h
      · cases h; exact Nat.lt_succ_self _
      · cases h

end FiniteAutomata.Document
