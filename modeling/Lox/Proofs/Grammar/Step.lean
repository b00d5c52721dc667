import Lox.Grammar.Program

/-!
How parsers run, one step at a time: what it means for each primitive to succeed, from which cursor
to which. A cursor is described from its end, since a parser that goes on past an error leaves its
mark there.
-/

namespace Lox.Grammar

open Lox.Grammar.Parser

/-- A token of one of the kinds is at hand. -/
def Ahead (kinds : List Token.Kind) (rest : List Token) : Prop :=
  ∃ t ∈ rest.head?, t.kind ∈ kinds

/-- The cursor with some tokens put back in front. -/
def Cursor.before (u : List Token) (c : Cursor) : Cursor := { c with rest := u ++ c.rest }

section Cursor

variable {c : Cursor} {u v : List Token} {t : Token}

@[simp] theorem Cursor.before_nil : c.before [] = c := rfl

/-- Tokens in front of tokens. -/
theorem Cursor.before_before : (c.before v).before u = c.before (u ++ v) := by
  simp [Cursor.before]

@[simp] theorem Cursor.before_rest : (c.before u).rest = u ++ c.rest := rfl

@[simp] theorem Cursor.before_errors : (c.before u).errors = c.errors := rfl

@[simp] theorem Cursor.before_eof : (c.before u).eof = c.eof := rfl

end Cursor

section Ahead

variable {kinds : List Token.Kind} {t : Token} {u rest : List Token}

@[simp] theorem ahead_nil : ¬ Ahead kinds [] := by
  simp [Ahead]

@[simp] theorem ahead_cons : Ahead kinds (t :: rest) ↔ t.kind ∈ kinds := by
  simp [Ahead]

/-- A token of one of the kinds is one of more kinds. -/
theorem Ahead.mono {kinds' : List Token.Kind} (sub : kinds ⊆ kinds') (h : Ahead kinds rest) :
    Ahead kinds' rest := by
  obtain ⟨t, ht, hk⟩ := h
  exact ⟨t, ht, sub hk⟩

/-- A token of another kind is ahead. -/
theorem not_ahead_cons {k : Token.Kind} (h : t.kind = k) (hk : k ∉ kinds) :
    ¬ Ahead kinds (t :: rest) := by
  rwa [ahead_cons, h]

/-- Only one token is at hand. -/
theorem Ahead.apart {k : Token.Kind} (h : Ahead [k] rest) (hk : k ∉ kinds) :
    ¬ Ahead kinds rest := by
  rintro ⟨t, ht, hmem⟩
  obtain ⟨t', ht', hmem'⟩ := h
  rw [Option.mem_unique ht ht', List.mem_singleton.mp hmem'] at hmem
  exact hk hmem

/-- Where a token is ahead there are tokens. -/
theorem Ahead.length_pos (h : Ahead kinds u) : 0 < u.length := by
  obtain ⟨t, ht, -⟩ := h
  exact List.length_pos_iff.mpr (by rintro rfl; cases ht)

/-- A token of one kind is of no other. -/
theorem Ahead.not_ahead {others : List Token.Kind} (h : Ahead kinds u)
    (apart : ∀ k ∈ others, k ∉ kinds) (rest : List Token) : ¬ Ahead others (u ++ rest) := by
  obtain ⟨t, ht, hk⟩ := h
  cases u with
  | nil => cases ht
  | cons t' u =>
    cases ht
    rw [List.cons_append, ahead_cons]
    exact fun hmem => apart _ hmem hk

theorem ahead_singleton_iff {k : Token.Kind} :
    rest.head?.any (·.kind = k) = true ↔ Ahead [k] rest := by
  cases rest with
  | nil => simp
  | cons t rest => simp

end Ahead

section Primitives

variable {α β : Type} {c c' : Cursor} {t : Token} {kinds : List Token.Kind} {k : Token.Kind}
  {complaint : Complaint}

/-- Two parsers succeed in turn if the second does where the first stopped. -/
theorem bind_ok {p : Parser α} {f : α → Parser β} {b : β} :
    (p >>= f) c = .ok b c' ↔ ∃ a c₁, p c = .ok a c₁ ∧ f a c₁ = .ok b c' := by
  show EStateM.bind p f c = _ ↔ _
  unfold EStateM.bind
  cases hp : p c with
  | ok a c₁ => simp [and_assoc]
  | error e c₁ => simp

theorem pure_ok {a b : α} : (pure a : Parser α) c = .ok b c' ↔ a = b ∧ c = c' := by
  show EStateM.Result.ok a c = EStateM.Result.ok b c' ↔ _
  simp

/-- What is made of a result is made where that succeeds. -/
theorem map_ok {p : Parser α} {f : α → β} {b : β} :
    (f <$> p) c = .ok b c' ↔ ∃ a, p c = .ok a c' ∧ f a = b := by
  show EStateM.map f p c = _ ↔ _
  unfold EStateM.map
  cases hp : p c with
  | ok a c₁ =>
    constructor
    · intro h
      cases h
      exact ⟨a, rfl, rfl⟩
    · rintro ⟨a', heq, rfl⟩
      cases heq
      rfl
  | error e c₁ => simp

/-- What is discarded only moves the cursor. -/
theorem discard_bind_ok {p : Parser α} {f : PUnit → Parser β} {b : β} :
    (discard p >>= f) c = .ok b c' ↔ ∃ a c₁, p c = .ok a c₁ ∧ f () c₁ = .ok b c' := by
  show EStateM.bind (EStateM.map (Function.const α PUnit.unit) p) f c = _ ↔ _
  unfold EStateM.bind EStateM.map
  cases hp : p c with
  | ok a c₁ => simp [and_assoc]
  | error e c₁ => simp

/-- A token is taken if it is of one of the kinds, and left if not. -/
theorem take?_ok {o : Option Token} :
    take? kinds c = .ok o c' ↔
      (∃ t, t.kind ∈ kinds ∧ o = some t ∧ c = c'.before [t]) ∨
        (¬ Ahead kinds c.rest ∧ o = none ∧ c = c') := by
  obtain ⟨rest, eof, errors⟩ := c
  unfold take?
  cases rest with
  | nil => simp [Cursor.before, eq_comm]
  | cons t rest =>
    by_cases h : t.kind ∈ kinds
    · simp only [List.contains_iff_mem, h, if_true, ahead_cons, not_true, false_and, or_false,
        EStateM.Result.ok.injEq]
      constructor
      · rintro ⟨rfl, rfl⟩
        exact ⟨t, h, rfl, rfl⟩
      · rintro ⟨t', -, rfl, heq⟩
        cases c'
        simp_all [Cursor.before]
    · simp only [List.contains_iff_mem, h, if_false, ahead_cons, not_false_eq_true, true_and,
        EStateM.Result.ok.injEq]
      constructor
      · rintro ⟨rfl, rfl⟩
        exact .inr ⟨rfl, rfl⟩
      · rintro (⟨t', ht', -, heq⟩ | ⟨rfl, rfl⟩)
        · have : t = t' := by
            have := congrArg (·.rest.head?) heq
            simpa [Cursor.before] using this
          exact absurd (this ▸ ht') h
        · exact ⟨rfl, rfl⟩

/-- To complain is not to succeed. -/
theorem fail_ok {a : α} : ¬ (fail complaint : Parser α) c = .ok a c' := by
  simp [fail]

/-- The token that is expected has to be there. -/
theorem expect_ok : expect k complaint c = .ok t c' ↔ t.kind = k ∧ c = c'.before [t] := by
  unfold expect
  rw [bind_ok]
  constructor
  · rintro ⟨o, c₁, htake, hrest⟩
    obtain ⟨t', hk, rfl, rfl⟩ | ⟨-, rfl, rfl⟩ := take?_ok.mp htake
    · obtain ⟨rfl, rfl⟩ := pure_ok.mp hrest
      exact ⟨List.mem_singleton.mp hk, rfl⟩
    · exact absurd hrest fail_ok
  · rintro ⟨hk, rfl⟩
    exact ⟨some t, c', take?_ok.mpr (.inl ⟨t, List.mem_singleton.mpr hk, rfl, rfl⟩), rfl⟩

/-- To look at the token ahead takes nothing. -/
theorem isAt_ok {b : Bool} : isAt k c = .ok b c' ↔ (b = true ↔ Ahead [k] c.rest) ∧ c = c' := by
  rw [← ahead_singleton_iff, Bool.eq_iff_iff.symm]
  show EStateM.Result.ok _ c = EStateM.Result.ok b c' ↔ _
  simp [eq_comm]

/-- To look for the end takes nothing. -/
theorem atEnd_ok {b : Bool} : atEnd c = .ok b c' ↔ (b = true ↔ c.rest = []) ∧ c = c' := by
  rw [← List.isEmpty_iff, Bool.eq_iff_iff.symm]
  show EStateM.Result.ok _ c = EStateM.Result.ok b c' ↔ _
  simp [eq_comm]

/-- To look at two tokens takes nothing. -/
theorem areAt_ok {b : Bool} {k₁ k₂ : Token.Kind} :
    areAt k₁ k₂ c = .ok b c' ↔
      (b = true ↔ ∃ t₁ t₂ r, c.rest = t₁ :: t₂ :: r ∧ t₁.kind = k₁ ∧ t₂.kind = k₂) ∧ c = c' := by
  unfold areAt
  rw [EStateM.Result.ok.injEq, eq_comm, Bool.eq_iff_iff]
  refine and_congr (iff_congr Iff.rfl ?_) Iff.rfl
  split
  · next h => simp [h, and_assoc]
  · next h =>
    simp only [Bool.false_eq_true, false_iff, not_exists]
    rintro t₁ t₂ r ⟨heq, -⟩
    exact h t₁ t₂ r heq

/-- An error is added behind the others. -/
theorem report_ok {e : SyntaxError} {x : Unit} :
    report e c = .ok x c' ↔ c' = { c with errors := c.errors ++ [e] } := by
  show EStateM.Result.ok () _ = EStateM.Result.ok x c' ↔ _
  simp [eq_comm]

/-- A parser that recovers does so with an error on record. -/
theorem recover_ok {p : Parser α} {o : Option α} (h : recover p c = .ok o c')
    (clean : c'.errors = []) : ∃ a, o = some a ∧ p c = .ok a c' := by
  unfold recover at h
  cases hp : p c with
  | ok a c₁ =>
    rw [hp] at h
    cases h
    exact ⟨a, rfl, rfl⟩
  | error e c₁ =>
    rw [hp] at h
    cases h
    simp at clean

end Primitives

end Lox.Grammar
