import Lox.Proofs.Grammar.Step
import Lox.Proofs.Grammar.Tape

/-!
Readers by position and parsers from cursors go on side by side: they give the same, and the
position stays between the tokens that were read and the first end of the text. What each takes at
least is counted, so that no loop and no nesting runs out of rounds.
-/

namespace Lox.Grammar

/-- The tape stands where the cursor does, in a row whose first end has number `last`. -/
structure Stands (row : List Token) (last : Nat) (t : Tape) (c : Cursor) : Prop where
  tokens : t.tokens = row
  split : ∃ read after, row = read ++ (c.rest ++ c.eof :: after) ∧ t.current = read.length
  sum : t.current + c.rest.length = last
  eof : c.eof.kind = .eof
  rest : ∀ u ∈ c.rest, u.kind ≠ .eof
  errors : t.errors = c.errors
  reads : ∀ i ∈ t.reads, 0 ≤ i ∧ i ≤ (last : Int)

variable {row : List Token} {last j k : Nat}

/-- The two go on in the same way: with the same result, of which the cursor has taken `n` tokens at
least, or with the same failure. -/
def Agrees {α : Type} (row : List Token) (last : Nat) (n : α → Nat) (c : Cursor) :
    EStateM.Result SyntaxError Cursor α → EStateM.Result Halt Tape α → Prop
  | .ok a c', .ok a' t' => a' = a ∧ Stands row last t' c' ∧ c'.rest.length + n a ≤ c.rest.length
  | .error e c', .error h t' =>
    h = .wrong e ∧ Stands row last t' c' ∧ c'.rest.length ≤ c.rest.length
  | _, _ => False

/-- What was taken before counts too. -/
theorem Agrees.behind {α : Type} {n : α → Nat} {c : Cursor} {u : Token}
    {r : EStateM.Result SyntaxError Cursor α} {r' : EStateM.Result Halt Tape α}
    (h : Agrees row last (fun a => n a - 1) c r r') :
    Agrees row last n { c with rest := u :: c.rest } r r' := by
  have length : (u :: c.rest).length = c.rest.length + 1 := List.length_cons
  cases r with
  | ok a c' =>
    cases r' with
    | ok a' t' =>
      obtain ⟨same, stands, taken⟩ := h
      refine ⟨same, stands, ?_⟩
      dsimp only at taken ⊢
      omega
    | error => exact h
  | error e c' =>
    cases r' with
    | ok => exact h
    | error h' t' =>
      obtain ⟨same, stands, fewer⟩ := h
      exact ⟨same, stands, Nat.le_succ_of_le fewer⟩

/-- From wherever both stand, with `j` to `k` tokens to come, the reader goes on as the parser. -/
def Tracks {α : Type} (row : List Token) (last j k : Nat) (m : Reader α) (p : Parser α)
    (n : α → Nat) : Prop :=
  ∀ t c, Stands row last t c → j ≤ c.rest.length → c.rest.length ≤ k →
    Agrees row last n c (p c) (m t)

/-- An optional result that is there has taken a token. -/
def progress {α : Type} : Option α → Nat
  | none => 0
  | some _ => 1

/-! ### Looking -/

/-- The tape with one more look noted. -/
def Tape.seen (t : Tape) (i : Int) : Tape := { t with reads := t.reads ++ [i] }

section Looking

variable {t : Tape} {c : Cursor} {u : Token}

/-- The tape does not stand behind the first end. -/
theorem Stands.le (h : Stands row last t c) : t.current ≤ last :=
  Nat.le.intro h.sum

/-- To look at a token of the row leaves the tape where it stands. -/
theorem Stands.seen (h : Stands row last t c) {i : Nat} (hi : i ≤ last) :
    Stands row last (t.seen i) c := by
  refine ⟨h.tokens, h.split, h.sum, h.eof, h.rest, h.errors, fun l hl => ?_⟩
  rcases List.mem_append.mp hl with hl | hl
  · exact h.reads l hl
  · rw [List.mem_singleton.mp hl]
    omega

/-- A token of the row can be looked at. -/
theorem Stands.tokenAt (h : Stands row last t c) {i : Nat} (hu : row[i]? = some u) :
    Tape.tokenAt i t = .ok u (t.seen i) := by
  unfold Tape.tokenAt
  rw [if_pos (Int.natCast_nonneg i), Int.toNat_natCast, h.tokens, hu, ← h.tokens]
  rfl

/-- The number at hand is that of the token at hand. -/
theorem Stands.at_current (h : Stands row last t c) : row[t.current]? = some c.next := by
  obtain ⟨read, after, split, current⟩ := h.split
  rw [split, current, List.getElem?_append_right (Nat.le_refl _), Nat.sub_self]
  obtain ⟨rest, eof, errors⟩ := c
  cases rest <;> rfl

/-- The tape is at the end when no tokens are ahead. -/
theorem Stands.next_eof_iff (h : Stands row last t c) : c.next.kind = .eof ↔ c.rest = [] := by
  obtain ⟨rest, eof, errors⟩ := c
  cases rest with
  | nil => exact iff_of_true h.eof rfl
  | cons u rest => exact iff_of_false (h.rest u List.mem_cons_self) (List.cons_ne_nil u rest)

/-- The reader looks at tokens in the row and stays where it is. -/
def Looks {α : Type} (row : List Token) (last : Nat) (c : Cursor) (m : Reader α) (a : α) : Prop :=
  ∀ t, Stands row last t c → ∃ t', m t = .ok a t' ∧ Stands row last t' c ∧ t'.current = t.current

variable {α β : Type}

theorem run_bind {ε σ : Type} {m : EStateM ε σ α} {f : α → EStateM ε σ β} {a : α} {t t' : σ}
    (h : m t = .ok a t') : (m >>= f) t = f a t' := by
  show EStateM.bind m f t = _
  unfold EStateM.bind
  rw [h]

theorem looks_pure (a : α) : Looks row last c (pure a) a := fun t h => ⟨t, rfl, h, rfl⟩

/-- To look twice is to look. -/
theorem Looks.bind {m : Reader α} {f : α → Reader β} {a : α} {b : β} (h : Looks row last c m a)
    (hf : Looks row last c (f a) b) : Looks row last c (m >>= f) b := by
  intro t stands
  obtain ⟨t₁, run₁, stands₁, same₁⟩ := h t stands
  obtain ⟨t₂, run₂, stands₂, same₂⟩ := hf t₁ stands₁
  exact ⟨t₂, (run_bind run₁).trans run₂, stands₂, same₂.trans same₁⟩

/-- The tape sees the token that is next for the cursor. -/
theorem looks_peek : Looks row last c Tape.peek c.next :=
  fun t h => ⟨t.seen t.current, h.tokenAt h.at_current, h.seen h.le, rfl⟩

/-- The tape sees whether it is at the end. -/
theorem looks_atEnd : Looks row last c Tape.atEnd c.rest.isEmpty := by
  intro t h
  have ended : c.rest.isEmpty = decide (c.next.kind = .eof) := by
    rw [Bool.eq_iff_iff, decide_eq_true_iff, h.next_eof_iff, List.isEmpty_iff]
  rw [ended]
  exact looks_peek.bind (f := fun u => pure (decide (u.kind = .eof))) (looks_pure _) t h

/-- The tape sees of which kind the next token is. -/
theorem looks_check (kind : Token.Kind) :
    Looks row last c (Tape.check kind) (c.rest.head?.any (·.kind = kind)) := by
  refine looks_atEnd.bind ?_
  obtain ⟨rest, eof, errors⟩ := c
  cases rest with
  | nil => exact looks_pure false
  | cons u rest => exact looks_peek.bind (looks_pure _)

/-- One step on, past the token at hand. -/
theorem Stands.step (h : Stands row last t c) {rest : List Token} (hc : c.rest = u :: rest) :
    Stands row last { t with current := t.current + 1 } { c with rest } := by
  obtain ⟨read, after, split, current⟩ := h.split
  refine ⟨h.tokens, ⟨read ++ [u], after, ?_, ?_⟩, ?_, h.eof, fun v hv => h.rest v ?_, h.errors,
    h.reads⟩
  · rw [split, hc]
    simp
  · rw [List.length_append, ← current]
    rfl
  · have sum := h.sum
    rw [hc, List.length_cons] at sum
    show t.current + 1 + rest.length = last
    omega
  · rw [hc]
    exact List.mem_cons_of_mem u hv

/-- Where tokens are ahead the tape is in front of the end. -/
theorem Stands.current_lt (h : Stands row last t c) (hc : c.rest ≠ []) : t.current < last := by
  have sum := h.sum
  have := List.length_pos_iff.mpr hc
  omega

/-- Behind a token that is not the end there is a token. -/
theorem looks_checkNext {rest : List Token} (hc : c.rest = u :: rest) {kind : Token.Kind}
    (named : kind ≠ .eof) :
    Looks row last c (Tape.checkNext kind) (rest.head?.any (·.kind = kind)) := by
  intro t h
  -- there is a token behind the current one, if only the last
  have behind := (h.step hc).at_current
  have inside : t.current + 1 < t.tokens.length := by
    rw [h.tokens]
    exact (List.getElem?_eq_some_iff.mp behind).1
  have kinds : decide ((Cursor.next { c with rest }).kind = kind) =
      rest.head?.any (·.kind = kind) := by
    cases rest with
    | nil => exact decide_eq_false fun same => named (same.symm.trans h.eof)
    | cons v rest => rfl
  have looked : Tape.tokenAt (t.current + 1) t = .ok _ (t.seen (t.current + 1 : Nat)) :=
    h.tokenAt behind
  have run : Tape.checkNext kind t = (do
      let u ← Tape.tokenAt (t.current + 1)
      return u.kind = kind : Reader Bool) t := if_pos inside
  refine ⟨t.seen (t.current + 1 : Nat), ?_, h.seen ?_, rfl⟩
  · rw [run, run_bind looked, ← kinds]
    rfl
  · exact h.current_lt (by rw [hc]; exact List.cons_ne_nil u rest)

end Looking

/-! ### Going on -/

section Going

variable {t : Tape} {c : Cursor} {u : Token} {rest : List Token}

/-- The token that was passed last. -/
def Passed (row : List Token) (t : Tape) (u : Token) : Prop :=
  0 < t.current ∧ row[t.current - 1]? = some u

/-- The token that was taken last can be looked at. -/
theorem Stands.previous (h : Stands row last t c) (passed : Passed row t u) :
    Tape.previous t = .ok u (t.seen (t.current - 1 : Nat)) ∧
      Stands row last (t.seen (t.current - 1 : Nat)) c := by
  have number : ((t.current : Int) - 1) = ((t.current - 1 : Nat) : Int) := by
    have := passed.1
    omega
  refine ⟨?_, h.seen (Nat.le_trans (Nat.sub_le _ _) h.le)⟩
  show Tape.tokenAt ((t.current : Int) - 1) t = _
  rw [number]
  exact h.tokenAt passed.2

/-- The tape takes the token that the cursor takes. -/
theorem Stands.advance (h : Stands row last t c) (hc : c.rest = u :: rest) :
    ∃ t', Tape.advance t = .ok u t' ∧ Stands row last t' { c with rest } ∧ Passed row t' u := by
  obtain ⟨t₁, ended, stands, same⟩ := looks_atEnd t h
  have next := h.at_current
  have hnext : c.next = u := by rw [Cursor.next, hc]; rfl
  have more : c.rest.isEmpty = false := by rw [hc]; rfl
  rw [more] at ended
  have passed : Passed row { t₁ with current := t₁.current + 1 } u := by
    refine ⟨Nat.succ_pos _, ?_⟩
    show row[t₁.current + 1 - 1]? = _
    rw [Nat.add_sub_cancel, same, next, hnext]
  obtain ⟨run, stands'⟩ := (stands.step hc).previous passed
  refine ⟨_, ?_, stands', passed⟩
  unfold Tape.advance
  rw [run_bind ended]
  exact run

/-- Behind the first token there is one that was taken last. -/
theorem Stands.exists_passed (h : Stands row last t c) (started : 0 < t.current) :
    ∃ u, Passed row t u := by
  have inside : t.current < row.length := (List.getElem?_eq_some_iff.mp h.at_current).1
  exact ⟨row[t.current - 1], started, List.getElem?_eq_getElem _⟩

/-- At the end nothing is passed, and there must be a token before. -/
theorem Stands.advance_end (h : Stands row last t c) (hc : c.rest = []) (passed : Passed row t u) :
    ∃ t', Tape.advance t = .ok u t' ∧ Stands row last t' c ∧ Passed row t' u := by
  obtain ⟨t₁, ended, stands, same⟩ := looks_atEnd t h
  have done : c.rest.isEmpty = true := by rw [hc]; rfl
  rw [done] at ended
  have passed : Passed row t₁ u := by
    unfold Passed
    rw [same]
    exact passed
  obtain ⟨run, stands'⟩ := stands.previous passed
  refine ⟨_, ?_, stands', passed⟩
  unfold Tape.advance
  rw [run_bind ended]
  exact run

/-- A token of another kind is left where it is. -/
theorem looks_take? {kinds : List Token.Kind} (absent : ∀ u ∈ c.rest.head?, u.kind ∉ kinds) :
    Looks row last c (Tape.take? kinds) none := by
  induction kinds with
  | nil => exact looks_pure none
  | cons kind kinds ih =>
    have other : c.rest.head?.any (·.kind = kind) = false := by
      cases head : c.rest.head? with
      | none => rfl
      | some u =>
        exact decide_eq_false fun same => absent u head (same ▸ List.mem_cons_self)
    have later := ih fun u hu mem => absent u hu (List.mem_cons_of_mem kind mem)
    have checked : Looks row last c (Tape.check kind) (c.rest.head?.any (·.kind = kind)) :=
      looks_check kind
    rw [other] at checked
    exact checked.bind later

/-- A token of one of the kinds is taken. -/
theorem Stands.take? (h : Stands row last t c) (hc : c.rest = u :: rest) {kinds : List Token.Kind}
    (mem : u.kind ∈ kinds) :
    ∃ t', Tape.take? kinds t = .ok (some u) t' ∧ Stands row last t' { c with rest } := by
  induction kinds generalizing t with
  | nil => cases mem
  | cons kind kinds ih =>
    obtain ⟨t₁, checked, stands, -⟩ := looks_check kind t h
    have same : c.rest.head?.any (·.kind = kind) = decide (u.kind = kind) := by rw [hc]; rfl
    rw [same] at checked
    unfold Tape.take?
    rw [run_bind checked]
    by_cases hk : u.kind = kind
    · obtain ⟨t₂, advanced, stands', -⟩ := stands.advance hc
      refine ⟨t₂, ?_, stands'⟩
      simp only [hk, decide_true, if_true]
      rw [run_bind advanced]
      rfl
    · obtain ⟨t₂, taken, stands'⟩ := ih stands ((List.mem_cons.mp mem).resolve_left hk)
      refine ⟨t₂, ?_, stands'⟩
      simp only [hk, decide_false]
      exact taken

/-- What is discarded only moves on. -/
theorem run_discard {ε σ : Type} {m : EStateM ε σ α} {f : PUnit → EStateM ε σ β} {a : α} {t t' : σ}
    (h : m t = .ok a t') : (discard m >>= f) t = f ⟨⟩ t' := by
  have discarded : (discard m : EStateM ε σ PUnit) t = .ok ⟨⟩ t' := by
    show EStateM.map (Function.const α PUnit.unit) m t = _
    unfold EStateM.map
    rw [h]
  exact run_bind discarded

/-- The tape skips a token, or stops where a statement may start. -/
theorem Stands.skipOne (h : Stands row last t c) (passed : Passed row t u) {v : Token}
    (hc : c.rest = v :: rest) :
    if u.kind = .semicolon || Parser.startsStatement v.kind then
      ∃ t', Tape.skipOne t = .ok none t' ∧ Stands row last t' c
    else ∃ t', Tape.skipOne t = .ok (some ()) t' ∧ Stands row last t' { c with rest } ∧
      Passed row t' v := by
  obtain ⟨t₁, ended, stands₁, same⟩ := looks_atEnd t h
  have more : c.rest.isEmpty = false := by rw [hc]; rfl
  have next : c.next = v := by rw [Cursor.next, hc]; rfl
  rw [more] at ended
  have passed₁ : Passed row t₁ u := by
    unfold Passed
    rw [same]
    exact passed
  obtain ⟨before, stands₂⟩ := stands₁.previous passed₁
  obtain ⟨t₃, peeked, stands₃, -⟩ := looks_peek _ stands₂
  rw [next] at peeked
  have first : Tape.skipOne t =
      (if u.kind = .semicolon then return none
      else do
        if Parser.startsStatement (← Tape.peek).kind then return none
        discard Tape.advance
        return some () : Reader (Option Unit)) (t₁.seen (t₁.current - 1 : Nat)) :=
    (run_bind ended).trans (run_bind before)
  rw [first]
  -- the tape looks back for a semicolon; the parser remembers the token it dropped
  by_cases semicolon : u.kind = .semicolon
  · simp only [semicolon, decide_true, Bool.true_or, if_true]
    exact ⟨_, rfl, stands₂⟩
  · simp only [semicolon, decide_false, Bool.false_or, if_false]
    rw [run_bind peeked]
    cases starts : Parser.startsStatement v.kind with
    | true => exact ⟨_, rfl, stands₃⟩
    | false =>
      obtain ⟨t₄, advanced, stands₄, passed₄⟩ := stands₃.advance hc
      exact ⟨t₄, run_discard advanced, stands₄, passed₄⟩

/-- From behind a token, skipping ends where a statement may start. -/
theorem Stands.skip (h : Stands row last t c) (passed : Passed row t u) {fuel : Nat}
    (enough : c.rest.length < fuel) :
    ∃ t', Tape.loop (fun _ => Tape.skipOne) fuel () t = .ok () t' ∧
      Stands row last t' { c with rest := Parser.skipFrom u c.rest } := by
  -- on the fuel, which is more than the tokens that are left
  induction fuel generalizing t c u with
  | zero => exact absurd enough (Nat.not_lt_zero _)
  | succ fuel ih =>
    unfold Tape.loop
    obtain ⟨rest, eof, errors⟩ := c
    cases rest with
    | nil =>
      obtain ⟨t₁, ended, stands₁, -⟩ := looks_atEnd t h
      have run : Tape.skipOne t = .ok none t₁ := run_bind ended
      exact ⟨t₁, run_bind run, stands₁⟩
    | cons v rest =>
      have one := h.skipOne passed rfl
      dsimp only
      rw [Parser.skipFrom]
      split at one
      · next stop =>
        obtain ⟨t₁, run, stands₁⟩ := one
        rw [if_pos stop]
        exact ⟨t₁, run_bind run, stands₁⟩
      · next go =>
        obtain ⟨t₁, run, stands₁, passed₁⟩ := one
        rw [if_neg go, run_bind run]
        exact ih stands₁ passed₁ (Nat.lt_of_succ_lt_succ enough)

/-- Skipping ends where a statement may start, behind the token at hand if there is one. -/
theorem Stands.synchronize (h : Stands row last t c) (started : c.rest = [] → 0 < t.current)
    {fuel : Nat} (enough : c.rest.length < fuel) :
    ∃ t', Tape.synchronize fuel t = .ok () t' ∧
      Stands row last t' { c with rest := Parser.skip c.rest } := by
  unfold Tape.synchronize
  obtain ⟨rest, eof, errors⟩ := c
  cases rest with
  | nil =>
    obtain ⟨u, passed⟩ := h.exists_passed (started rfl)
    obtain ⟨t₁, advanced, stands₁, passed₁⟩ := h.advance_end rfl passed
    rw [run_discard advanced]
    exact stands₁.skip passed₁ enough
  | cons v rest =>
    obtain ⟨t₁, advanced, stands₁, passed⟩ := h.advance rfl
    rw [run_discard advanced]
    exact stands₁.skip passed (Nat.lt_of_succ_lt enough)

end Going

/-! ### Side by side -/

section Combinators

variable {α β : Type} {m : Reader α} {p : Parser α} {n : α → Nat} {N : β → Nat}

/-- What goes on with so many tokens goes on with fewer. -/
theorem Tracks.mono (h : Tracks row last j k m p n) {k' : Nat} (le : k' ≤ k) :
    Tracks row last j k' m p n :=
  fun t c stands low high => h t c stands low (Nat.le_trans high le)

/-- To take so many tokens at least is to take fewer at least. -/
theorem Tracks.weaken (h : Tracks row last j k m p n) {n' : α → Nat} (le : ∀ a, n' a ≤ n a) :
    Tracks row last j k m p n' := by
  intro t c stands low high
  have agrees := h t c stands low high
  revert agrees
  cases p c with
  | ok a c' =>
    cases m t with
    | ok a' t' =>
      rintro ⟨same, stands', taken⟩
      exact ⟨same, stands', Nat.le_trans (Nat.add_le_add_left (le a) _) taken⟩
    | error => exact id
  | error e c' => cases m t <;> exact id

/-- To give a value takes no token. -/
theorem tracks_pure {a : α} (none : n a = 0) : Tracks row last j k (pure a) (pure a) n := by
  intro t c stands _ _
  exact ⟨rfl, stands, by rw [none]; exact Nat.le_refl _⟩

/-- The second goes on with the tokens that the first leaves. -/
theorem Tracks.bind {m' : α → Reader β} {p' : α → Parser β} (h : Tracks row last j k m p n)
    (hnext : ∀ a, n a ≤ k → Tracks row last 0 (k - n a) (m' a) (p' a) fun b => N b - n a) :
    Tracks row last j k (m >>= m') (p >>= p') N := by
  intro t c stands low high
  have first := h t c stands low high
  show Agrees row last N c (EStateM.bind p p' c) (EStateM.bind m m' t)
  unfold EStateM.bind
  cases hp : p c with
  | error e c₁ =>
    rw [hp] at first
    cases hm : m t with
    | error h' t₁ =>
      rw [hm] at first
      exact first
    | ok a' t₁ =>
      rw [hm] at first
      exact first.elim
  | ok a c₁ =>
    rw [hp] at first
    cases hm : m t with
    | error h' t₁ =>
      rw [hm] at first
      exact first.elim
    | ok a' t₁ =>
      rw [hm] at first
      obtain ⟨rfl, stands₁, taken⟩ := first
      -- the second part has fewer tokens before it, by as many as the first took
      have second := hnext a' (by omega) t₁ c₁ stands₁ (Nat.zero_le _) (by omega)
      dsimp only
      revert second
      cases p' a' c₁ with
      | error e c₂ =>
        cases m' a' t₁ with
        | error h₂ t₂ =>
          rintro ⟨same, stands₂, fewer⟩
          exact ⟨same, stands₂, by omega⟩
        | ok => exact id
      | ok b c₂ =>
        cases m' a' t₁ with
        | error => exact id
        | ok b' t₂ =>
          rintro ⟨same, stands₂, fewer⟩
          dsimp only at fewer
          exact ⟨same, stands₂, by omega⟩

/-- What is made of a result takes no token. -/
theorem Tracks.map {f : α → β} (h : Tracks row last j k m p n) (le : ∀ a, N (f a) ≤ n a) :
    Tracks row last j k (f <$> m) (f <$> p) N := by
  rw [map_eq_pure_bind, map_eq_pure_bind]
  exact h.bind fun a _ => tracks_pure (Nat.sub_eq_zero_of_le (le a))

/-- What is discarded is taken all the same. -/
theorem Tracks.discard {m' : PUnit → Reader β} {p' : PUnit → Parser β} {l : Nat}
    (h : Tracks row last j k m p fun _ => l)
    (hnext : l ≤ k → Tracks row last 0 (k - l) (m' ⟨⟩) (p' ⟨⟩) fun b => N b - l) :
    Tracks row last j k (discard m >>= m') (discard p >>= p') N :=
  Tracks.bind (n := fun _ => l) (h.map fun _ => Nat.le_refl l) fun _ le => hnext le

end Combinators

/-! ### Primitives -/

section Primitives

variable {α β : Type} {N : β → Nat}

/-- A look at where the cursor stands, and what follows from it. -/
theorem Tracks.look {look : Reader Bool} {look' : Parser Bool} {b : Cursor → Bool}
    {m : Bool → Reader β} {p : Bool → Parser β}
    (sees : ∀ c, Looks row last c look (b c)) (sees' : ∀ c, look' c = .ok (b c) c)
    (h : ∀ b, Tracks row last j k (m b) (p b) N) :
    Tracks row last j k (look >>= m) (look' >>= p) N := by
  intro t c stands low high
  obtain ⟨t', run, stands', -⟩ := sees c t stands
  rw [run_bind run]
  show Agrees row last N c (EStateM.bind look' p c) _
  unfold EStateM.bind
  rw [sees' c]
  exact h (b c) t' c stands' low high

/-- Reader and parser see the same token ahead. -/
theorem tracks_check {kind : Token.Kind} {m : Bool → Reader β} {p : Bool → Parser β}
    (h : ∀ b, Tracks row last j k (m b) (p b) N) :
    Tracks row last j k (Tape.check kind >>= m) (Parser.isAt kind >>= p) N :=
  Tracks.look (fun _ => looks_check kind) (fun _ => rfl) h

/-- Where the text does not end, there is a token to come. -/
theorem tracks_atEnd {m : Bool → Reader β} {p : Bool → Parser β}
    (ended : Tracks row last 0 k (m true) (p true) N)
    (more : Tracks row last 1 k (m false) (p false) N) :
    Tracks row last 0 k (Tape.atEnd >>= m) (Parser.atEnd >>= p) N := by
  intro t c stands low high
  obtain ⟨t', run, stands', -⟩ := looks_atEnd t stands
  rw [run_bind run]
  show Agrees row last N c (p c.rest.isEmpty c) _
  cases done : c.rest.isEmpty with
  | true => exact ended t' c stands' low high
  | false =>
    refine more t' c stands' (List.length_pos_iff.mpr ?_) high
    rintro none
    rw [none] at done
    cases done

/-- A token that is taken brings both one on. -/
theorem tracks_take? (kinds : List Token.Kind) :
    Tracks row last 0 k (Tape.take? kinds) (Parser.take? kinds) progress := by
  intro t c stands _ _
  unfold Parser.take?
  obtain ⟨rest, eof, errors⟩ := c
  -- at the end there is nothing to take
  cases rest with
  | nil =>
    have absent : ∀ u ∈ ([] : List Token).head?, u.kind ∉ kinds := fun _ mem => by cases mem
    obtain ⟨t', run, stands', -⟩ := looks_take? absent t stands
    rw [run]
    exact ⟨rfl, stands', Nat.le_refl _⟩
  | cons u rest =>
    dsimp only
    split
    · next mem =>
      obtain ⟨t', run, stands'⟩ := stands.take? rfl (List.contains_iff_mem.mp mem)
      rw [run]
      exact ⟨rfl, stands', Nat.le_refl _⟩
    · next absent =>
      have absent : ∀ v ∈ (u :: rest).head?, v.kind ∉ kinds := by
        rintro _ ⟨⟩ mem
        exact absent (List.contains_iff_mem.mpr mem)
      obtain ⟨t', run, stands', -⟩ := looks_take? absent t stands
      rw [run]
      exact ⟨rfl, stands', Nat.le_refl _⟩

/-- A token is taken in both, or in neither. -/
theorem tracks_take {kinds : List Token.Kind} {m : Option Token → Reader β}
    {p : Option Token → Parser β} (absent : Tracks row last 0 k (m none) (p none) N)
    (there : ∀ u, 1 ≤ k → Tracks row last 0 (k - 1) (m (some u)) (p (some u)) fun b => N b - 1) :
    Tracks row last 0 k (Tape.take? kinds >>= m) (Parser.take? kinds >>= p) N := by
  refine (tracks_take? kinds).bind fun o le => ?_
  cases o with
  | none => exact absent
  | some u => exact there u le

/-- Both complain at the token ahead. -/
theorem tracks_fail {complaint : Complaint} {n : α → Nat} :
    Tracks row last j k (Tape.fail complaint) (Parser.fail complaint) n := by
  intro t c stands _ _
  obtain ⟨t', run, stands', -⟩ := looks_peek t stands
  unfold Tape.fail
  rw [run_bind run]
  exact ⟨rfl, stands', Nat.le_refl _⟩

/-- To expect a token is to take it or to fail. -/
theorem tape_expect_eq (kind : Token.Kind) (complaint : Complaint) :
    Tape.expect kind complaint = (do
      match ← Tape.take? [kind] with
      | some u => return u
      | none => Tape.fail complaint) := by
  unfold Tape.expect Tape.take? Tape.take?
  rw [bind_assoc]
  congr 1
  funext taken
  cases taken with
  | true => simp
  | false => simp

/-- A token that is expected is taken by both, or missed by both. -/
theorem tracks_expect (kind : Token.Kind) (complaint : Complaint) :
    Tracks row last 0 k (Tape.expect kind complaint) (Parser.expect kind complaint) fun _ => 1 := by
  rw [tape_expect_eq]
  exact tracks_take tracks_fail fun _ _ => tracks_pure rfl

/-- A token is expected, and both go on behind it. -/
theorem tracks_expected {kind : Token.Kind} {complaint : Complaint} {m : PUnit → Reader β}
    {p : PUnit → Parser β}
    (h : 1 ≤ k → Tracks row last 0 (k - 1) (m ⟨⟩) (p ⟨⟩) fun b => N b - 1) :
    Tracks row last 0 k (discard (Tape.expect kind complaint) >>= m)
      (discard (Parser.expect kind complaint) >>= p) N :=
  (tracks_expect kind complaint).discard h

/-- Both report the same error. -/
theorem tracks_report (e : SyntaxError) :
    Tracks row last j k (Tape.report e) (Parser.report e) fun _ => 0 := by
  intro t c stands _ _
  refine ⟨rfl, ⟨stands.tokens, stands.split, stands.sum, stands.eof, stands.rest, ?_,
    stands.reads⟩, Nat.le_refl _⟩
  show t.errors ++ [e] = c.errors ++ [e]
  rw [stands.errors]

end Primitives

/-! ### Loops and recovery -/

section Loops

variable {α : Type} {m : Reader α} {p : Parser α} {n : α → Nat} {fuel : Nat}

/-- A step that adds something takes a token, and so a loop is over when the tokens are. -/
theorem tracks_loop {step' : α → Reader (Option α)} {step : α → Parser (Option α)}
    (h : ∀ a, Tracks row last 0 k (step' a) (step a) progress) (enough : k < fuel) (a : α) :
    Tracks row last 0 k (Tape.loop step' fuel a) (Parser.repeatFrom step a) fun _ => 0 := by
  -- both loops are bounded, by a number and by a list: neither bound is reached
  have rounds : ∀ fuel l, l ≤ k → l < fuel → ∀ (rounds : List Token), l < rounds.length → ∀ a,
      Tracks row last 0 l (Tape.loop step' fuel a) (Parser.iterate step rounds a) fun _ => 0 := by
    intro fuel
    induction fuel with
    | zero => exact fun l _ none => absurd none (Nat.not_lt_zero l)
    | succ fuel ih =>
      intro l le within rounds more a
      cases rounds with
      | nil => exact absurd more (Nat.not_lt_zero l)
      | cons round rounds =>
        refine ((h a).mono le).bind fun o taken => ?_
        cases o with
        | none => exact tracks_pure rfl
        | some b =>
          have taken : 1 ≤ l := taken
          rw [List.length_cons] at more
          exact ih (l - 1) (by omega) (by omega) rounds (by omega) b
  intro t c stands low high
  have length : (c.eof :: c.rest).length = c.rest.length + 1 := List.length_cons
  exact rounds fuel c.rest.length high (by omega) (c.eof :: c.rest) (by omega) a t c stands low
    (Nat.le_refl _)

/-- To skip adds no token. -/
theorem length_skipFrom_le (u : Token) (rest : List Token) :
    (Parser.skipFrom u rest).length ≤ rest.length := by
  induction rest generalizing u with
  | nil => exact Nat.le_refl 0
  | cons v rest ih =>
    rw [Parser.skipFrom]
    split
    · exact Nat.le_refl _
    · exact Nat.le_succ_of_le (ih v)

/-- To skip takes one token at least, if there is any. -/
theorem length_skip_le (rest : List Token) : (Parser.skip rest).length ≤ rest.length - 1 := by
  cases rest with
  | nil => exact Nat.le_refl 0
  | cons u rest => exact length_skipFrom_le u rest

/-- Where there is a token to come, one is taken, with a result or past a failure. -/
theorem tracks_recover (h : Tracks row last 0 k m p fun _ => 1) (enough : k < fuel) :
    Tracks row last 1 k (Tape.recover fuel m) (Parser.recover p) fun _ => 1 := by
  intro t c stands low high
  have agrees := h t c stands (Nat.zero_le _) high
  unfold Tape.recover Parser.recover
  cases hp : p c with
  | ok a c' =>
    rw [hp] at agrees
    cases hm : m t with
    | error h' t' =>
      rw [hm] at agrees
      exact agrees.elim
    | ok a' t' =>
      rw [hm] at agrees
      obtain ⟨rfl, stands', taken⟩ := agrees
      exact ⟨rfl, stands', taken⟩
  | error e c' =>
    rw [hp] at agrees
    cases hm : m t with
    | ok a' t' =>
      rw [hm] at agrees
      exact agrees.elim
    | error h' t' =>
      rw [hm] at agrees
      obtain ⟨rfl, stands', fewer⟩ := agrees
      have reported : Stands row last { t' with errors := t'.errors ++ [e] }
          { c' with errors := c'.errors ++ [e] } :=
        ⟨stands'.tokens, stands'.split, stands'.sum, stands'.eof, stands'.rest,
          congrArg (· ++ [e]) stands'.errors, stands'.reads⟩
      -- At the end of the text there is a token before, since there was one to come.
      have started : c'.rest = [] → 0 < t'.current := by
        intro none
        have sum := stands.sum
        have sum' := stands'.sum
        rw [none, List.length_nil] at sum'
        omega
      obtain ⟨t₂, run, stands₂⟩ := reported.synchronize started (Nat.lt_of_le_of_lt fewer
        (Nat.lt_of_le_of_lt high enough))
      have noted : Tape.report e t' = .ok () { t' with errors := t'.errors ++ [e] } := rfl
      have whole : (do Tape.report e; Tape.synchronize fuel; return none : Reader (Option α)) t' =
          .ok none t₂ := (run_bind noted).trans (run_bind run)
      dsimp only
      rw [whole]
      refine ⟨rfl, stands₂, ?_⟩
      have skipped := length_skip_le c'.rest
      show (Parser.skip c'.rest).length + 1 ≤ c.rest.length
      omega

end Loops

end Lox.Grammar
