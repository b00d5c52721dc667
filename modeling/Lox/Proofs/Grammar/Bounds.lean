import Mathlib.Data.List.TakeWhile
import Lox.Proofs.Grammar.Positions

/-!
Parsing by position is never out of bounds and never gets stuck. Within a number of rounds that the
tokens bound it ends, it looks at no token but those from the first up to the first end of the text,
and it gives what parsing from a cursor gives.
-/

namespace Lox.Grammar

variable {row : List Token} {last fuel : Nat}

/-- The tape is at a token up to the first end, and has looked at no other. -/
structure Tape.InBounds (row : List Token) (last : Nat) (t : Tape) : Prop where
  tokens : t.tokens = row
  current : t.current ≤ last
  reads : ∀ i ∈ t.reads, 0 ≤ i ∧ i ≤ (last : Int)

/-- From wherever the tape is in bounds the reader ends, with a result or a failure, in bounds and
not before where it started. -/
def Tape.EndsInBounds {α : Type} (row : List Token) (last : Nat) (m : Reader α) : Prop :=
  ∀ t, t.InBounds row last → ∃ t', t'.InBounds row last ∧ t.current ≤ t'.current ∧
    ((∃ a, m t = .ok a t') ∨ ∃ e, m t = .error (.wrong e) t')

/-- The number of tokens before the first end. -/
def firstEnd (tokens : List Token) : Nat := (Cursor.ofTokens tokens).rest.length

/-- The first end is in the row or right behind it. -/
theorem firstEnd_le (tokens : List Token) : firstEnd tokens ≤ tokens.length :=
  (List.takeWhile_sublist _).length_le

/-! ### Where tapes stand -/

/-- Where the tape stands, it has looked at nothing outside the row. -/
theorem Stands.inBounds {t : Tape} {c : Cursor} (h : Stands row last t c) : t.InBounds row last :=
  ⟨h.tokens, h.le, h.reads⟩

/-- A row goes on, behind what the cursor reads, with the end of the cursor. -/
theorem ofTokens_tokens (tokens : List Token) : ∃ after, (Tape.ofTokens tokens).tokens =
    (Cursor.ofTokens tokens).rest ++ (Cursor.ofTokens tokens).eof :: after := by
  unfold Tape.ofTokens Cursor.ofTokens
  cases found : tokens.find? (·.kind = .eof) with
  | none =>
    have other : ∀ u ∈ tokens, u.kind ≠ .eof := by simpa using List.find?_eq_none.mp found
    have whole : tokens.takeWhile (·.kind ≠ .eof) = tokens :=
      List.takeWhile_eq_self_iff.mpr fun u hu => decide_eq_true (other u hu)
    -- without an end among them, the tape adds one
    have endless : tokens.getLast?.any (·.kind = .eof) = false := by
      cases final : tokens.getLast? with
      | none => rfl
      | some u => exact decide_eq_false (other u (List.mem_of_getLast? final))
    refine ⟨[], ?_⟩
    rw [whole, endless]
    rfl
  | some e =>
    obtain ⟨he, before, after, rfl, other⟩ := List.find?_eq_some_iff_append.mp found
    have read : (before ++ e :: after).takeWhile (·.kind ≠ .eof) = before := by
      rw [List.takeWhile_append_of_pos, List.takeWhile_cons_of_neg, List.append_nil]
      · simpa using he
      · intro u hu
        simpa using other u hu
    rw [read]
    split
    · exact ⟨after, rfl⟩
    · exact ⟨after ++ [_], List.append_assoc before (e :: after) [_]⟩

/-- A cursor ends with an end, be it one of the tokens or one that is added. -/
theorem kind_eof_ofTokens (tokens : List Token) : (Cursor.ofTokens tokens).eof.kind = .eof := by
  unfold Cursor.ofTokens
  cases found : tokens.find? (·.kind = .eof) with
  | none => rfl
  | some e =>
    have he := List.find?_some found
    exact of_decide_eq_true he

/-- The tape's row ends with an end. -/
theorem exists_getLast?_ofTokens (tokens : List Token) :
    ∃ e, (Tape.ofTokens tokens).tokens.getLast? = some e ∧ e.kind = .eof := by
  unfold Tape.ofTokens
  dsimp only
  split
  · next ended =>
    cases final : tokens.getLast? with
    | none =>
      rw [final] at ended
      cases ended
    | some e =>
      rw [final] at ended
      exact ⟨e, rfl, of_decide_eq_true ended⟩
  · exact ⟨_, List.getLast?_concat, rfl⟩

/-- Before the first end there is none. -/
theorem kind_ne_eof_of_lt_firstEnd {tokens : List Token} {i : Nat} (lt : i < firstEnd tokens)
    {u : Token} (hu : (Tape.ofTokens tokens).tokens[i]? = some u) : u.kind ≠ .eof := by
  obtain ⟨after, split⟩ := ofTokens_tokens tokens
  rw [split, List.getElem?_append_left lt] at hu
  exact of_decide_eq_true (List.all_eq_true.mp List.all_takeWhile u (List.mem_of_getElem? hu))

/-- A row has its first end where the cursor ends. -/
theorem stands_ofTokens (tokens : List Token) :
    Stands (Tape.ofTokens tokens).tokens (firstEnd tokens) (.ofTokens tokens)
      (.ofTokens tokens) := by
  obtain ⟨after, split⟩ := ofTokens_tokens tokens
  exact ⟨rfl, ⟨[], after, split, rfl⟩, Nat.zero_add _, kind_eof_ofTokens tokens,
    fun u hu => of_decide_eq_true (List.all_eq_true.mp List.all_takeWhile u hu), rfl, nofun⟩

/-- The end that the cursor knows is the first one in the row. -/
theorem Stands.at_last {t : Tape} {c : Cursor} (h : Stands row last t c) :
    row[last]? = some c.eof := by
  obtain ⟨read, after, split, current⟩ := h.split
  have sum : last = (read ++ c.rest).length := by
    rw [List.length_append, ← current]
    exact h.sum.symm
  rw [split, ← List.append_assoc, sum, List.getElem?_append_right (Nat.le_refl _), Nat.sub_self]
  rfl

/-- There is a cursor for each tape in bounds. -/
theorem Tape.InBounds.stands {t t₀ : Tape} {c₀ : Cursor} (h : t.InBounds row last)
    (start : Stands row last t₀ c₀) (first : t₀.current = 0) :
    Stands row last t { rest := c₀.rest.drop t.current, eof := c₀.eof, errors := t.errors } := by
  obtain ⟨read, after, split, current⟩ := start.split
  have none : read = [] := List.eq_nil_of_length_eq_zero (current.symm.trans first)
  have sum : c₀.rest.length = last := by
    have := start.sum
    omega
  refine ⟨h.tokens, ⟨c₀.rest.take t.current, after, ?_, ?_⟩, ?_, start.eof,
    fun u hu => start.rest u (List.mem_of_mem_drop hu), rfl, h.reads⟩
  · rw [split, none, List.nil_append, ← List.append_assoc, List.take_append_drop]
  · have := h.current
    rw [List.length_take]
    omega
  · have := h.current
    show t.current + (c₀.rest.drop t.current).length = last
    rw [List.length_drop]
    omega

/-- A reader that goes on as the parser looks at nothing outside the row. -/
theorem Tracks.endsInBounds {α : Type} {m : Reader α} {p : Parser α} {n : α → Nat} {t₀ : Tape}
    {c₀ : Cursor} (h : Tracks row last 0 last m p n) (start : Stands row last t₀ c₀)
    (first : t₀.current = 0) : Tape.EndsInBounds row last m := by
  intro t inBounds
  have stands := inBounds.stands start first
  have sum := stands.sum
  have agrees := h t _ stands (Nat.zero_le _) (by omega)
  -- both readers end alike, and the tape stands as far behind as the parser has read
  revert agrees
  cases p _ with
  | ok a c' =>
    cases run : m t with
    | error => exact False.elim
    | ok a' t' =>
      rintro ⟨-, stands', taken⟩
      have sum' := stands'.sum
      exact ⟨t', stands'.inBounds, by omega, .inl ⟨a', rfl⟩⟩
  | error e c' =>
    cases run : m t with
    | ok => exact False.elim
    | error h' t' =>
      rintro ⟨rfl, stands', fewer⟩
      have sum' := stands'.sum
      exact ⟨t', stands'.inBounds, by omega, .inr ⟨e, rfl⟩⟩

/-! ### Parsing -/

/-- The row that is read ends with an end, whatever the tokens, and has its first end at `firstEnd`.
With any number of rounds from `depthFor` on, reading it gives the program and the errors of
`parse`, ends at the first end and looks at no token behind it or before the first. A declaration
goes on from wherever there is a token to come. Every loop ends from wherever it starts: over
declarations in a block, arguments, parameters, methods and whole programs. -/
theorem parse_in_bounds (tokens : List Token) :
    let row := (Tape.ofTokens tokens).tokens
    let last := firstEnd tokens
    (∃ e, row.getLast? = some e ∧ e.kind = .eof) ∧ (∃ e, row[last]? = some e ∧ e.kind = .eof) ∧
    (∀ i < last, ∀ u, row[i]? = some u → u.kind ≠ .eof) ∧
    ∀ fuel, depthFor tokens ≤ fuel →
      (∃ t, Tape.topLevel fuel (.ofTokens tokens) = .ok (parse tokens).program.body t ∧
        t.errors = (parse tokens).errors ∧ t.current = last ∧ t.InBounds row last) ∧
      (∀ t, t.InBounds row last → t.current < last → ∃ o t', Tape.declarationAt fuel t = .ok o t' ∧
        t'.InBounds row last ∧ t.current < t'.current) ∧
      Tape.EndsInBounds row last (Tape.block fuel (Tape.declarationAt fuel)) ∧
      Tape.EndsInBounds row last (Tape.separated fuel .rightParen (Tape.expressionAt fuel)) ∧
      Tape.EndsInBounds row last
        (Tape.separated fuel .rightParen (Tape.expect .identifier .parameterName)) ∧
      Tape.EndsInBounds row last (Tape.methods fuel (Tape.declarationAt fuel)) ∧
      Tape.EndsInBounds row last (Tape.topLevel fuel) := by
  intro row last
  have start : Stands row last (.ofTokens tokens) (.ofTokens tokens) := stands_ofTokens tokens
  have few : last ≤ tokens.length := firstEnd_le tokens
  -- depth enough for all tokens up to the first end
  have depth : 3 * last + 3 ≤ depthFor tokens := by
    unfold depthFor
    omega
  refine ⟨exists_getLast?_ofTokens tokens, ⟨_, start.at_last, start.eof⟩,
    fun i lt u => kind_ne_eof_of_lt_firstEnd lt, fun fuel enough => ?_⟩
  have depth' : 3 * last + 3 ≤ fuel := Nat.le_trans depth enough
  obtain ⟨hexpr, -, hdecl⟩ := @tracks_at row last (depthFor tokens) fuel
  have declaration := hdecl last depth depth'
  refine ⟨?_, fun t inBounds more => ?_, ?_, ?_, ?_, ?_, fun t inBounds => ?_⟩
  · obtain ⟨body, t, c, run', run, stands, spent⟩ :=
      topLevel_ends depth depth' start (Nat.le_refl last)
    have parsed : parse tokens = ⟨⟨body⟩, c.errors⟩ := by
      unfold parse
      rw [run]
    have sum := stands.sum
    rw [spent, List.length_nil, Nat.add_zero] at sum
    rw [parsed]
    exact ⟨t, run', stands.errors, sum, stands.inBounds⟩
  · have stands := inBounds.stands start rfl
    have sum := stands.sum
    obtain ⟨o, t', c', run, -, stands', fewer⟩ :=
      declaration_goes_on depth depth' stands (by omega) (by omega)
    have sum' := stands'.sum
    exact ⟨o, t', run, stands'.inBounds, by omega⟩
  · exact (tracks_block declaration (by omega)).endsInBounds start rfl
  · exact (tracks_separated (hexpr last (by omega) (by omega)) (by omega) _).endsInBounds start rfl
  · exact (tracks_separated (tracks_expect _ _) (by omega) _).endsInBounds start rfl
  · exact (tracks_methods (fun l lt => declaration.mono (Nat.le_of_lt lt)) (by omega)).endsInBounds
      start rfl
  · have stands := inBounds.stands start rfl
    have sum := stands.sum
    obtain ⟨body, t', c', run, -, stands', spent⟩ :=
      topLevel_ends depth depth' stands (Nat.le_trans (Nat.le_add_left _ _) (Nat.le_of_eq sum))
    have sum' := stands'.sum
    rw [spent, List.length_nil, Nat.add_zero] at sum'
    exact ⟨t', stands'.inBounds, sum' ▸ inBounds.current, .inl ⟨body, run⟩⟩

/-- A name, an end in the middle, and a sign behind it. -/
def endsEarly : List Token :=
  [⟨.identifier, "a", .none, 1⟩, ⟨.eof, "", .none, 1⟩, ⟨.plus, "+", .none, 1⟩]

/-- The name alone is no declaration, but reading goes on behind it. -/
theorem parse_in_bounds_endsEarly :
    let t := Tape.ofTokens endsEarly
    (t.InBounds t.tokens (firstEnd endsEarly) ∧ t.current < firstEnd endsEarly) ∧
      ∃ o t', Tape.declarationAt (depthFor endsEarly) t = .ok o t' ∧ t.current < t'.current := by
  intro t
  obtain ⟨-, -, -, reading⟩ := parse_in_bounds endsEarly
  obtain ⟨-, declaration, -⟩ := reading _ (Nat.le_refl _)
  have inBounds : t.InBounds t.tokens (firstEnd endsEarly) := (stands_ofTokens endsEarly).inBounds
  have more : t.current < firstEnd endsEarly := by decide
  obtain ⟨o, t', run, -, further⟩ := declaration t inBounds more
  exact ⟨⟨inBounds, more⟩, o, t', run, further⟩

end Lox.Grammar
