import Lox.Proofs.Grammar.Track

/-!
A statement is parsed without a look behind its semicolon. Two texts with one stretch of tokens up
to a semicolon are parsed side by side: as long as no statement ends in the stretch and no body
starts in it, both go on in the same way, to the same place in it, with the same failure, or past
the semicolon.
-/

namespace Lox.Grammar

open Lox.Grammar.Parser

/-- What a text has behind a statement, and the errors before it. -/
structure Tail where
  rest : List Token
  eof : Token
  errors : List SyntaxError
  /-- An `else` would go with an `if` before it. -/
  apart : ¬ Ahead [.elseKw] rest

/-- The cursor in front of more tokens, with more errors. -/
def Tail.at (t : Tail) (u : List Token) (es : List SyntaxError) : Cursor where
  rest := u ++ t.rest
  eof := t.eof
  errors := t.errors ++ es

/-- Tokens and a semicolon behind them, in two texts. No statement ends within the tokens, no body
starts, and no keyword of a statement stands behind the first. -/
structure Site where
  tokens : List Token
  semicolon : Token
  left : Tail
  right : Tail
  ends : semicolon.kind = .semicolon
  single : ∀ t ∈ tokens, t.kind ∉ [.eof, .semicolon, .leftBrace, .rightBrace, .forKw]
  inner : ∀ t ∈ tokens.tail,
    t.kind ∉ [.classKw, .funKw, .varKw, .ifKw, .whileKw, .printKw, .returnKw]

namespace Site

/-- No statement starts inside the site. -/
theorem startsStatement_eq_false (site : Site) {t : Token} (h : t ∈ site.tokens.tail) :
    startsStatement t.kind = false := by
  have starts : ∀ kind, startsStatement kind = true → kind ∈ [Token.Kind.forKw] ++
      [.classKw, .funKw, .varKw, .ifKw, .whileKw, .printKw, .returnKw] := by
    intro kind h
    cases kind <;> first | decide | cases h
  refine Bool.eq_false_iff.mpr fun start => ?_
  obtain mem | mem := List.mem_append.mp (starts _ start)
  · rw [List.mem_singleton] at mem
    exact site.single t (List.mem_of_mem_tail h) (by rw [mem]; decide)
  · exact site.inner t h mem

variable (site : Site)

/-- The place in front of some of the tokens, with errors that are located at them. -/
structure Within (v : List Token) (es : List SyntaxError) : Prop where
  suffix : v <:+ site.tokens
  errors : ∀ e ∈ es, e.token ∈ site.tokens

def leftAt (v : List Token) (es : List SyntaxError) : Cursor :=
  site.left.at (v ++ [site.semicolon]) es

def rightAt (v : List Token) (es : List SyntaxError) : Cursor :=
  site.right.at (v ++ [site.semicolon]) es

/-- Both go on with one result, or with one failure at one place. -/
inductive Alike {α : Type} (Q : α → Cursor → Cursor → Prop) :
    EStateM.Result SyntaxError Cursor α → EStateM.Result SyntaxError Cursor α → Prop where
  | ok {a : α} {c c' : Cursor} : Q a c c' → Alike Q (.ok a c) (.ok a c')
  | error {e : SyntaxError} {v : List Token} {es : List SyntaxError} : site.Within v es →
      e.token ∈ site.tokens ++ [site.semicolon] →
        Alike Q (.error e (site.leftAt v es)) (.error e (site.rightAt v es))

/-- Both are at one place, `n a` tokens or more before the last `l`. -/
def Stands {α : Type} (l : Nat) (n : α → Nat) (a : α) (c c' : Cursor) : Prop :=
  ∃ v es, site.Within v es ∧ v.length + n a ≤ l ∧ c = site.leftAt v es ∧ c' = site.rightAt v es

/-- Both are behind the semicolon. -/
def Passed (c c' : Cursor) : Prop :=
  ∃ es, (∀ e ∈ es, e.token ∈ site.tokens) ∧ c = site.left.at [] es ∧ c' = site.right.at [] es

/-- From wherever there are `k` tokens at most, both stay at one place in front of the semicolon,
and take `n` tokens at least. -/
def Stays {α : Type} (k : Nat) (p p' : Parser α) (n : α → Nat) : Prop :=
  ∀ v es, site.Within v es → v.length ≤ k →
    site.Alike (site.Stands v.length n) (p (site.leftAt v es)) (p' (site.rightAt v es))

/-- From wherever there are `k` tokens at most, both end in the same way. -/
def Ends {α : Type} (k : Nat) (p p' : Parser α) (Q : α → Cursor → Cursor → Prop) : Prop :=
  ∀ v es, site.Within v es → v.length ≤ k →
    site.Alike Q (p (site.leftAt v es)) (p' (site.rightAt v es))

/-- Both get past the semicolon or fail. -/
def Closes {α : Type} (k : Nat) (p p' : Parser α) : Prop :=
  site.Ends k p p' fun _ => site.Passed

/-- Both fail. -/
def Fails {α : Type} (k : Nat) (p p' : Parser α) : Prop :=
  site.Ends k p p' fun _ _ _ => False

variable {site} {k : Nat}

/-! ### Side by side -/

section Combinators

variable {α β : Type} {p p' : Parser α} {q q' : α → Parser β} {n : α → Nat} {N : β → Nat}

/-- Both go on alike after they have gone on alike. -/
theorem Alike.bind {Q : α → Cursor → Cursor → Prop} {Q' : β → Cursor → Cursor → Prop}
    {c c' : Cursor} (h : site.Alike Q (p c) (p' c'))
    (next : ∀ a c c', Q a c c' → site.Alike Q' (q a c) (q' a c')) :
    site.Alike Q' ((p >>= q) c) ((p' >>= q') c') := by
  show site.Alike Q' (EStateM.bind p q c) (EStateM.bind p' q' c')
  unfold EStateM.bind
  generalize p c = r, p' c' = r' at h
  cases h with
  | ok h => exact next _ _ _ h
  | error within located => exact .error within located

/-- What is known of the end may be weakened. -/
theorem Alike.mono {Q Q' : α → Cursor → Cursor → Prop}
    {r r' : EStateM.Result SyntaxError Cursor α} (h : site.Alike Q r r')
    (imp : ∀ a c c', Q a c c' → Q' a c c') : site.Alike Q' r r' := by
  cases h with
  | ok h => exact .ok (imp _ _ _ h)
  | error within located => exact .error within located

/-- What stays with so many tokens stays with fewer. -/
theorem Stays.mono (h : site.Stays k p p' n) {l : Nat} (le : l ≤ k) : site.Stays l p p' n :=
  fun v es within few => h v es within (Nat.le_trans few le)

/-- To give a value takes no token. -/
theorem stays_pure {a : α} (none : n a = 0) : site.Stays k (pure a) (pure a) n :=
  fun v es within _ => .ok ⟨v, es, within, by rw [none]; exact Nat.le_refl _, rfl, rfl⟩

/-- Parts that stay do so one after the other, the second with the tokens that the first leaves. -/
theorem Stays.bind (h : site.Stays k p p' n)
    (hnext : ∀ a, n a ≤ k → site.Stays (k - n a) (q a) (q' a) fun b => N b - n a) :
    site.Stays k (p >>= q) (p' >>= q') N := by
  intro v es within few
  refine (h v es within few).bind ?_
  rintro a _ _ ⟨v₁, es₁, within₁, taken₁, rfl, rfl⟩
  refine (hnext a (by omega) v₁ es₁ within₁ (by omega)).mono ?_
  rintro b _ _ ⟨v₂, es₂, within₂, taken₂, rfl, rfl⟩
  dsimp only at taken₂
  exact ⟨v₂, es₂, within₂, by omega, rfl, rfl⟩

/-- What is made of a result takes no token. -/
theorem Stays.map {f : α → β} (h : site.Stays k p p' n) (le : ∀ a, N (f a) ≤ n a) :
    site.Stays k (f <$> p) (f <$> p') N := by
  rw [map_eq_pure_bind, map_eq_pure_bind]
  exact h.bind fun a _ => stays_pure (Nat.sub_eq_zero_of_le (le a))

/-- A part that ends may come after one that stays. -/
theorem Stays.ends {Q : β → Cursor → Cursor → Prop} (h : site.Stays k p p' n)
    (hnext : ∀ a, n a ≤ k → site.Ends (k - n a) (q a) (q' a) Q) :
    site.Ends k (p >>= q) (p' >>= q') Q := by
  intro v es within few
  refine (h v es within few).bind ?_
  rintro a _ _ ⟨v₁, es₁, within₁, taken₁, rfl, rfl⟩
  exact hnext a (by omega) v₁ es₁ within₁ (by omega)

/-- Nothing comes after a failure. -/
theorem Fails.bind (h : site.Fails k p p') : site.Fails k (p >>= q) (p' >>= q') :=
  fun v es within few => (h v es within few).bind fun _ _ _ => False.elim

/-- A failure ends in the same way in both. -/
theorem Fails.closes (h : site.Fails k p p') : site.Closes k p p' :=
  fun v es within few => (h v es within few).mono fun _ _ _ => False.elim

theorem Fails.stays (h : site.Fails k p p') : site.Stays k p p' n :=
  fun v es within few => (h v es within few).mono fun _ _ _ => False.elim

/-- What closes with so many tokens closes with fewer. -/
theorem Closes.mono (h : site.Closes k p p') {l : Nat} (le : l ≤ k) : site.Closes l p p' :=
  fun v es within few => h v es within (Nat.le_trans few le)

/-- Behind the semicolon nothing more is taken. -/
theorem Closes.last (h : site.Closes k p p') {f : α → β}
    (left : ∀ a es, q a (site.left.at [] es) = .ok (f a) (site.left.at [] es))
    (right : ∀ a es, q' a (site.right.at [] es) = .ok (f a) (site.right.at [] es)) :
    site.Closes k (p >>= q) (p' >>= q') := by
  intro v es within few
  refine (h v es within few).bind ?_
  rintro a _ _ ⟨es₁, located, rfl, rfl⟩
  rw [left, right]
  exact .ok ⟨es₁, located, rfl, rfl⟩

/-- What is made of a result makes no difference to where it is closed. -/
theorem Closes.map (h : site.Closes k p p') (f : α → β) :
    site.Closes k (f <$> p) (f <$> p') := by
  rw [map_eq_pure_bind, map_eq_pure_bind]
  exact h.last (f := f) (fun _ _ => rfl) fun _ _ => rfl

end Combinators

/-! ### Primitives -/

section Primitives

variable {α β : Type} {q q' : α → Parser β} {n : α → Nat} {N : β → Nat} {v : List Token}
  {es : List SyntaxError} {t : Token}

/-- Behind a token of the site there are its other tokens. -/
theorem Within.behind (h : site.Within (t :: v) es) : site.Within v es :=
  ⟨(List.suffix_cons t v).trans h.suffix, h.errors⟩

/-- A token that is ahead is one of the site. -/
theorem Within.mem (h : site.Within (t :: v) es) : t ∈ site.tokens :=
  h.suffix.subset List.mem_cons_self

/-- The token at hand is one of the stretch or the semicolon. -/
theorem Within.next (h : site.Within v es) :
    ∃ t ∈ site.tokens ++ [site.semicolon],
      (site.leftAt v es).next = t ∧ (site.rightAt v es).next = t := by
  cases v with
  | nil => exact ⟨site.semicolon, List.mem_append_right _ (List.mem_singleton_self _), rfl, rfl⟩
  | cons t v => exact ⟨t, List.mem_append_left _ h.mem, rfl, rfl⟩

/-- Both complain at the token ahead. -/
theorem Within.fails (h : site.Within v es) (complaint : Complaint)
    {Q : α → Cursor → Cursor → Prop} :
    site.Alike Q (fail complaint (site.leftAt v es)) (fail complaint (site.rightAt v es)) := by
  obtain ⟨t, located, left, right⟩ := h.next
  unfold fail
  rw [left, right]
  exact .error h located

/-- A complaint is located at a token of the site. -/
theorem stays_fail {complaint : Complaint} :
    site.Stays k (fail complaint : Parser α) (fail complaint) n :=
  fun _ _ within _ => within.fails complaint

/-- What is taken is a token of the stretch, the same on both sides. -/
theorem Within.takes (h : site.Within v es) (kinds : List Token.Kind)
    (other : .semicolon ∉ kinds) :
    (Parser.take? kinds (site.leftAt v es) = .ok none (site.leftAt v es) ∧
      Parser.take? kinds (site.rightAt v es) = .ok none (site.rightAt v es) ∧
      ¬ Ahead kinds v) ∨
    ∃ t v', v = t :: v' ∧ t.kind ∈ kinds ∧
      Parser.take? kinds (site.leftAt v es) = .ok (some t) (site.leftAt v' es) ∧
      Parser.take? kinds (site.rightAt v es) = .ok (some t) (site.rightAt v' es) := by
  cases v with
  -- the semicolon is next: no kind that is asked for
  | nil =>
    have absent : kinds.contains site.semicolon.kind = false := by
      rw [site.ends]
      simpa using other
    refine .inl ⟨?_, ?_, ahead_nil⟩
    all_goals
      simp only [Parser.take?, leftAt, rightAt, Tail.at, List.nil_append, List.cons_append, absent]
      rfl
  | cons t v =>
    simp only [Parser.take?, leftAt, rightAt, Tail.at, List.cons_append, List.contains_iff_mem,
      ahead_cons]
    by_cases mem : t.kind ∈ kinds
    · refine .inr ⟨t, v, rfl, mem, ?_⟩
      rw [if_pos mem, if_pos mem]
      exact ⟨rfl, rfl⟩
    · refine .inl ?_
      rw [if_neg mem, if_neg mem]
      exact ⟨rfl, rfl, mem⟩

/-- A token of the site is taken in both, or in neither. -/
theorem stays_take {kinds : List Token.Kind} (other : .semicolon ∉ kinds)
    {p p' : Option Token → Parser β} (absent : site.Stays k (p none) (p' none) N)
    (there : ∀ t ∈ site.tokens, 1 ≤ k →
      site.Stays (k - 1) (p (some t)) (p' (some t)) fun b => N b - 1) :
    site.Stays k (take? kinds >>= p) (take? kinds >>= p') N := by
  intro v es within few
  obtain ⟨left, right, -⟩ | ⟨t, v, rfl, -, left, right⟩ := within.takes kinds other
  · rw [run_bind left, run_bind right]
    exact absent v es within few
  · rw [run_bind left, run_bind right]
    rw [List.length_cons] at few ⊢
    refine (there t within.mem (by omega) v es within.behind (by omega)).mono ?_
    rintro b _ _ ⟨v', es', within', taken, rfl, rfl⟩
    dsimp only at taken
    exact ⟨v', es', within', by omega, rfl, rfl⟩

/-- A token of the site is taken in both, or in neither, and both go on to end alike. -/
theorem ends_take {kinds : List Token.Kind} (other : .semicolon ∉ kinds)
    {p p' : Option Token → Parser β} {Q : β → Cursor → Cursor → Prop}
    (absent : site.Ends k (p none) (p' none) Q)
    (there : ∀ t ∈ site.tokens, t.kind ∈ kinds → 1 ≤ k →
      site.Ends (k - 1) (p (some t)) (p' (some t)) Q) :
    site.Ends k (take? kinds >>= p) (take? kinds >>= p') Q := by
  intro v es within few
  obtain ⟨left, right, -⟩ | ⟨t, v, rfl, mem, left, right⟩ := within.takes kinds other
  · rw [run_bind left, run_bind right]
    exact absent v es within few
  · rw [run_bind left, run_bind right]
    rw [List.length_cons] at few
    exact there t within.mem mem (by omega) v es within.behind (by omega)

/-- A token is expected in both; it is not the semicolon. -/
theorem stays_expect {kind : Token.Kind} (other : kind ≠ .semicolon) (complaint : Complaint) :
    site.Stays k (expect kind complaint) (expect kind complaint) fun _ => 1 :=
  stays_take (fun mem => other (List.mem_singleton.mp mem).symm) stays_fail fun _ _ _ =>
    stays_pure rfl

/-- What is discarded is not used behind. -/
theorem discard_bind {p : Parser α} {next : PUnit → Parser β} :
    (discard p >>= next) = p >>= fun _ => next ⟨⟩ := by
  show (Functor.mapConst PUnit.unit p >>= next) = _
  rw [LawfulFunctor.map_const, Function.comp_apply, map_eq_pure_bind, bind_assoc]
  rfl

/-- A token is expected, and both go on behind it. -/
theorem stays_expected {kind : Token.Kind} (other : kind ≠ .semicolon) {complaint : Complaint}
    {p p' : PUnit → Parser β}
    (h : 1 ≤ k → site.Stays (k - 1) (p ⟨⟩) (p' ⟨⟩) fun b => N b - 1) :
    site.Stays k (discard (expect kind complaint) >>= p) (discard (expect kind complaint) >>= p')
      N := by
  rw [discard_bind, discard_bind]
  exact (stays_expect other complaint).bind fun _ le => h le

/-- Both see the same token ahead. -/
theorem stays_isAt {kind : Token.Kind} {p p' : Bool → Parser β}
    (h : ∀ b, site.Stays k (p b) (p' b) N) :
    site.Stays k (isAt kind >>= p) (isAt kind >>= p') N := by
  intro v es within few
  cases v with
  | nil => exact h (decide (site.semicolon.kind = kind)) [] es within few
  | cons t v => exact h (decide (t.kind = kind)) (t :: v) es within few

/-- A token is expected, and both go on to end alike. -/
theorem ends_expected {kind : Token.Kind} (other : kind ≠ .semicolon) {complaint : Complaint}
    {p p' : PUnit → Parser β} {Q : β → Cursor → Cursor → Prop}
    (h : 1 ≤ k → site.Ends (k - 1) (p ⟨⟩) (p' ⟨⟩) Q) :
    site.Ends k (discard (expect kind complaint) >>= p)
      (discard (expect kind complaint) >>= p') Q := by
  rw [discard_bind, discard_bind]
  exact (stays_expect other complaint).ends fun _ le => h le

/-- What does not come next on either side is complained about on both. -/
theorem Within.expect_fails {kind : Token.Kind} (h : site.Within v es)
    (other : ¬ Ahead [kind] (v ++ [site.semicolon])) {complaint : Complaint}
    {Q : Token → Cursor → Cursor → Prop} :
    site.Alike Q (expect kind complaint (site.leftAt v es))
      (expect kind complaint (site.rightAt v es)) := by
  have absent (tail : Tail) : take? [kind] (tail.at (v ++ [site.semicolon]) es) =
      .ok none (tail.at (v ++ [site.semicolon]) es) := by
    refine take?_ok.mpr (.inr ⟨?_, rfl, rfl⟩)
    cases v <;> exact other
  unfold expect
  rw [leftAt, rightAt, run_bind (absent _), run_bind (absent _)]
  exact h.fails complaint

/-- The semicolon itself is passed only where it is at hand. -/
theorem closes_semicolon {complaint : Complaint} {b : β} :
    site.Closes k (discard (expect .semicolon complaint) >>= fun _ => pure b)
      (discard (expect .semicolon complaint) >>= fun _ => pure b) := by
  intro v es within few
  rw [discard_bind]
  cases v with
  | nil =>
    have passes (tail : Tail) : expect .semicolon complaint (tail.at [site.semicolon] es) =
        .ok site.semicolon (tail.at [] es) := expect_ok.mpr ⟨site.ends, rfl⟩
    rw [leftAt, rightAt, List.nil_append, run_bind (passes _), run_bind (passes _)]
    exact .ok ⟨es, within.errors, rfl, rfl⟩
  | cons t v =>
    have other : t.kind ∉ [.semicolon] := fun mem =>
      site.single t within.mem (by rw [List.mem_singleton.mp mem]; decide)
    have fails : site.Alike (fun _ _ _ => False)
        (expect .semicolon complaint (site.leftAt (t :: v) es))
        (expect .semicolon complaint (site.rightAt (t :: v) es)) :=
      within.expect_fails (not_congr ahead_cons |>.mpr other)
    exact fails.bind fun _ _ _ => False.elim

/-- No body starts in the stretch. -/
theorem fails_opening {complaint : Complaint} {p p' : PUnit → Parser β} :
    site.Fails k (discard (expect .leftBrace complaint) >>= p)
      (discard (expect .leftBrace complaint) >>= p') := by
  intro v es within few
  have other : ¬ Ahead [.leftBrace] (v ++ [site.semicolon]) := by
    cases v with
    | nil => exact not_ahead_cons site.ends (by decide)
    | cons t v =>
      refine not_congr ahead_cons |>.mpr fun mem => ?_
      exact site.single t within.mem (by rw [List.mem_singleton.mp mem]; decide)
  rw [discard_bind, discard_bind]
  exact (within.expect_fails other (Q := fun _ _ _ => False)).bind fun _ _ _ => False.elim

/-- The second of two tokens is not looked at behind the semicolon. -/
theorem ends_areAt {first second : Token.Kind} (other : first ≠ .semicolon)
    {p p' : Bool → Parser β} {Q : β → Cursor → Cursor → Prop}
    (h : ∀ b, site.Ends k (p b) (p' b) Q) :
    site.Ends k (areAt first second >>= p) (areAt first second >>= p') Q := by
  intro v es within few
  match v with
  | [] =>
    have absent (tail : Tail) : areAt first second (tail.at [site.semicolon] es) =
        .ok false (tail.at [site.semicolon] es) := by
      refine areAt_ok.mpr ⟨iff_of_false Bool.false_ne_true ?_, rfl⟩
      rintro ⟨t, u, rest, split, kind, -⟩
      have same : site.semicolon = t := (List.cons.inj split).1
      exact other (by rw [← kind, ← same, site.ends])
    rw [leftAt, rightAt, List.nil_append, run_bind (absent _), run_bind (absent _)]
    exact h false [] es within few
  | [t] => exact h (t.kind = first && site.semicolon.kind = second) [t] es within few
  | t :: u :: v => exact h (t.kind = first && u.kind = second) (t :: u :: v) es within few

/-- An error at a token of the site is reported in both. -/
theorem stays_report {e : SyntaxError} (located : e.token ∈ site.tokens) :
    site.Stays k (report e) (report e) fun _ => 0 := by
  intro v es within _
  have errors : ∀ d ∈ es ++ [e], d.token ∈ site.tokens := by
    rw [List.forall_mem_append, List.forall_mem_singleton]
    exact ⟨within.errors, located⟩
  refine .ok ⟨v, es ++ [e], ⟨within.suffix, errors⟩, Nat.le_refl _, ?_, ?_⟩
  all_goals simp [leftAt, rightAt, Tail.at]

end Primitives

/-! ### Loops -/

section Loops

variable {α : Type} {p p' : Parser α}

/-- A step that adds something takes a token, and so there are rounds enough on both sides. -/
theorem stays_repeatFrom {step step' : α → Parser (Option α)}
    (h : ∀ a, site.Stays k (step a) (step' a) progress) (a : α) :
    site.Stays k (repeatFrom step a) (repeatFrom step' a) fun _ => 0 := by
  -- both loops go as many rounds, whatever their bounds are
  have rounds : ∀ (left right : List Token) (l : Nat), l ≤ k → l < left.length → l < right.length →
      ∀ a, site.Stays l (iterate step left a) (iterate step' right a) fun _ => 0 := by
    intro left
    induction left with
    | nil => exact fun _ l _ none => absurd none (Nat.not_lt_zero l)
    | cons round left ih =>
      intro right l le more more' a
      cases right with
      | nil => exact absurd more' (Nat.not_lt_zero l)
      | cons round' right =>
        refine ((h a).mono le).bind fun o taken => ?_
        cases o with
        | none => exact stays_pure rfl
        | some b =>
          have taken : 1 ≤ l := taken
          rw [List.length_cons] at more more'
          exact ih right (l - 1) (by omega) (by omega) (by omega) b
  intro v es within few
  refine rounds _ _ v.length few ?_ ?_ a v es within (Nat.le_refl _)
  all_goals
    simp only [leftAt, rightAt, Tail.at, List.length_cons, List.length_append]
    omega

/-- A list stays in front of the semicolon. -/
theorem stays_separated {closing : Token.Kind} (h : site.Stays k p p' fun _ => 1) :
    site.Stays k (separated closing p) (separated closing p') fun _ => 0 := by
  refine stays_isAt fun b => ?_
  cases b with
  | true => exact stays_pure rfl
  | false =>
    refine h.bind fun first _ => Stays.bind (n := fun _ => 0) (stays_repeatFrom ?_ _) ?_
    · exact fun items => stays_take (by decide) (stays_pure rfl) fun _ _ _ =>
        (h.mono (by omega)).bind fun _ _ => stays_pure rfl
    · exact fun _ _ => stays_pure rfl

end Loops

/-! ### Expressions -/

section Expressions

variable {expression expression' : Parser Expr} {block block' : Parser (List Stmt)}

/-- Without a body there is no function. -/
theorem fails_functionRest (owner : Owner) :
    site.Fails k (functionRest block owner) (functionRest block' owner) :=
  (stays_separated (stays_expect (by decide) _)).ends fun _ _ =>
    ends_expected (by decide) fun _ => fails_opening

variable (h : ∀ l < k, site.Stays l expression expression' fun _ => 1)

include h

/-- A primary expression stays in front of the semicolon, for no block starts in the site. -/
theorem stays_primary :
    site.Stays k (primary expression block) (primary expression' block') fun _ => 1 := by
  refine stays_take (by decide) stays_fail fun t _ more => ?_
  dsimp only
  generalize t.kind = kind
  cases kind with
  | superKw =>
    exact stays_expected (by decide) fun _ => (stays_expect (by decide) _).bind fun _ _ =>
      stays_pure rfl
  | funKw =>
    exact stays_expected (by decide) fun _ => (fails_functionRest _).bind.stays
  | leftParen =>
    exact (h (k - 1) (by omega)).bind fun _ _ => stays_expected (by decide) fun _ => stays_pure rfl
  | _ => exact stays_pure rfl

/-- A call stays in front of the semicolon. -/
theorem stays_call :
    site.Stays k (call expression block) (call expression' block') fun _ => 1 := by
  refine (stays_primary h).bind fun e more => stays_repeatFrom (fun e => ?_) e
  refine stays_take (by decide) (stays_pure rfl) fun t _ _ => ?_
  dsimp only
  split
  · exact Stays.bind (n := fun _ => 0) (stays_separated (h _ (by omega))) fun _ _ =>
      (stays_expect (by decide) _).bind fun _ _ => stays_pure rfl
  · exact (stays_expect (by decide) _).bind fun _ _ => stays_pure rfl

/-- An operand stays in front of the semicolon. -/
theorem stays_unary :
    site.Stays k (unary expression block) (unary expression' block') fun _ => 1 := by
  refine Stays.bind (n := fun _ => 0) (stays_repeatFrom (fun ops => ?_) []) fun ops _ =>
    (stays_call h).bind fun _ _ => stays_pure rfl
  exact stays_take (by decide) (stays_pure rfl) fun _ _ _ => stays_pure rfl

omit h in
/-- Operands with operators between stay in front of the semicolon. -/
theorem stays_leftAssoc {kinds : List Token.Kind} (other : .semicolon ∉ kinds)
    {make : Token → Expr → Expr → Expr} {operand operand' : Parser Expr}
    (h : site.Stays k operand operand' fun _ => 1) :
    site.Stays k (leftAssoc kinds make operand) (leftAssoc kinds make operand') fun _ => 1 := by
  refine h.bind fun first _ => stays_repeatFrom (fun left => ?_) first
  exact stays_take other (stays_pure rfl) fun _ _ _ => (h.mono (by omega)).bind fun _ _ =>
    stays_pure rfl

/-- An assignment stays in front of the semicolon. -/
theorem stays_assignment :
    site.Stays k (assignment expression block) (assignment expression' block') fun _ => 1 := by
  -- level by level, the tightest first
  have factor : site.Stays k (factor expression block) (factor expression' block') fun _ => 1 :=
    stays_leftAssoc (by decide) (stays_unary h)
  have term : site.Stays k (term expression block) (term expression' block') fun _ => 1 :=
    stays_leftAssoc (by decide) factor
  have comparison : site.Stays k (comparison expression block) (comparison expression' block')
      fun _ => 1 := stays_leftAssoc (by decide) term
  have equality : site.Stays k (equality expression block) (equality expression' block')
      fun _ => 1 := stays_leftAssoc (by decide) comparison
  have conjunction : site.Stays k (conjunction expression block) (conjunction expression' block')
      fun _ => 1 := stays_leftAssoc (by decide) equality
  have disjunction : site.Stays k (disjunction expression block) (disjunction expression' block')
      fun _ => 1 := stays_leftAssoc (by decide) conjunction
  refine disjunction.bind fun target more => stays_take (by decide) (stays_pure rfl)
    fun equals located _ => (h _ (by omega)).bind fun value _ => ?_
  have kept : site.Stays (k - 1 - 1 - 1) (do report ⟨equals, .assignmentTarget⟩; return target)
      (do report ⟨equals, .assignmentTarget⟩; return target) fun _ => 0 :=
    Stays.bind (n := fun _ => 0) (stays_report located) fun _ _ => stays_pure rfl
  match target with
  | .variable _ | .get .. => exact stays_pure rfl
  | .number _ | .string _ | .bool _ | .nil | .gap | .assign .. | .unary .. | .binary ..
  | .logical .. | .group _ | .call .. | .set .. | .this _ | .super .. | .lambda .. => exact kept

end Expressions

/-- Expressions stay in front of the semicolon, however deep they are nested. -/
theorem stays_expressionAt {d d' : Nat} (deep : k < d) (deep' : k < d') :
    site.Stays k (expressionAt d) (expressionAt d') fun _ => 1 := by
  induction d generalizing k d' with
  | zero => exact absurd deep (Nat.not_lt_zero k)
  | succ d ih =>
    cases d' with
    | zero => exact absurd deep' (Nat.not_lt_zero k)
    | succ d' =>
      exact stays_assignment fun l lt => ih (Nat.lt_of_lt_of_le lt (Nat.le_of_lt_succ deep))
        (Nat.lt_of_lt_of_le lt (Nat.le_of_lt_succ deep'))

/-! ### Statements -/

section Statements

variable {expression expression' : Parser Expr} {statement statement' : Parser Stmt}
  {declaration declaration' : Parser (Option Stmt)}

/-- A variable is declared up to the semicolon. -/
theorem closes_varDeclaration (h : site.Stays k expression expression' fun _ => 1) :
    site.Closes k (varDeclaration expression) (varDeclaration expression') := by
  refine (stays_expect (by decide) _).ends fun name _ => ends_take (by decide) ?_ fun _ _ _ _ => ?_
  · exact closes_semicolon
  · exact Stays.ends (n := fun _ => 0) ((h.mono (by omega)).map fun _ => Nat.zero_le 1)
      fun _ _ => closes_semicolon

/-- A return statement goes up to the semicolon. -/
theorem closes_returnStatement (h : site.Stays k expression expression' fun _ => 1)
    (keyword : Token) :
    site.Closes k (returnStatement expression keyword) (returnStatement expression' keyword) := by
  have value : site.Stays k (optionalUnless .semicolon expression)
      (optionalUnless .semicolon expression') fun _ => 0 := by
    refine stays_isAt fun b => ?_
    cases b with
    | true => exact stays_pure rfl
    | false => exact h.bind fun _ _ => stays_pure rfl
  exact value.ends fun _ _ => closes_semicolon

/-- An expression statement goes up to the semicolon. -/
theorem closes_expressionStatement (h : site.Stays k expression expression' fun _ => 1) :
    site.Closes k (expressionStatement expression) (expressionStatement expression') :=
  h.ends fun _ _ => closes_semicolon

/-- A print statement goes up to the semicolon. -/
theorem closes_printStatement (h : site.Stays k expression expression' fun _ => 1) :
    site.Closes k (printStatement expression) (printStatement expression') :=
  h.ends fun _ _ => closes_semicolon

/-- The statement that a loop repeats goes up to the semicolon. -/
theorem closes_whileStatement (hexpr : site.Stays k expression expression' fun _ => 1)
    (hstmt : site.Closes k statement statement') :
    site.Closes k (whileStatement expression statement) (whileStatement expression' statement') :=
  ends_expected (by decide) fun _ => (hexpr.mono (by omega)).ends fun test _ =>
    ends_expected (by decide) fun _ =>
      (hstmt.mono (by omega)).last (f := .loop test) (fun _ _ => rfl) fun _ _ => rfl

/-- The `else` of another statement is not taken. -/
theorem closes_ifStatement (hexpr : site.Stays k expression expression' fun _ => 1)
    (hstmt : site.Closes k statement statement') :
    site.Closes k (ifStatement expression statement) (ifStatement expression' statement') := by
  refine ends_expected (by decide) fun _ => (hexpr.mono (by omega)).ends fun test _ =>
    ends_expected (by decide) fun _ => (hstmt.mono (by omega)).last (f := (.cond test · none)) ?_ ?_
  all_goals
    intro yes es
    refine run_bind (take?_ok.mpr (.inr ⟨?_, rfl, rfl⟩))
  · exact site.left.apart
  · exact site.right.apart

/-- A statement goes up to the semicolon, whichever it is. -/
theorem closes_anyStatement (hexpr : site.Stays k expression expression' fun _ => 1)
    (hstmt : ∀ l < k, site.Closes l statement statement') :
    site.Closes k (anyStatement expression statement declaration)
      (anyStatement expression' statement' declaration') := by
  refine ends_take (by decide) (closes_expressionStatement hexpr) fun t mem known more => ?_
  have nested := hexpr.mono (Nat.sub_le k 1)
  have body := hstmt (k - 1) (by omega)
  have single := site.single t mem
  dsimp only
  generalize t.kind = kind at known single ⊢
  cases kind with
  | ifKw => exact closes_ifStatement nested body
  | printKw => exact closes_printStatement nested
  | returnKw => exact closes_returnStatement nested t
  | whileKw => exact closes_whileStatement nested body
  | forKw | leftBrace => exact absurd (by decide) single
  | _ => exact absurd known (by decide)

/-- There is no body in the site, so no function. -/
theorem fails_function (owner : Owner) :
    site.Fails k (function declaration owner) (function declaration' owner) :=
  (stays_expect (by decide) _).ends fun _ _ => ends_expected (by decide) fun _ =>
    (fails_functionRest owner).bind

/-- A superclass clause stays in front of the semicolon. -/
theorem stays_superclassClause :
    site.Stays k superclassClause superclassClause fun _ => 0 :=
  stays_take (by decide) (stays_pure rfl) fun _ _ _ => (stays_expect (by decide) _).bind
    fun _ _ => stays_pure rfl

/-- There is no body in the site, so no class. -/
theorem fails_classDeclaration :
    site.Fails k (classDeclaration declaration) (classDeclaration declaration') :=
  (stays_expect (by decide) _).ends fun _ _ => stays_superclassClause.ends fun _ _ => fails_opening

/-- A declaration goes up to the semicolon or fails. -/
theorem closes_anyDeclaration (hexpr : site.Stays k expression expression' fun _ => 1)
    (hstmt : site.Closes k statement statement') :
    site.Closes k (anyDeclaration expression statement declaration)
      (anyDeclaration expression' statement' declaration') := by
  refine ends_areAt (by decide) fun named => ?_
  cases named with
  | true =>
    have declared : site.Closes k (Stmt.function <$> function declaration .function)
        (Stmt.function <$> function declaration' .function) := (fails_function .function).closes.map _
    simp only [if_true, discard_bind]
    exact ends_take (by decide) declared fun _ _ _ _ => declared.mono (Nat.sub_le k 1)
  | false =>
    refine ends_take (by decide) hstmt fun t _ _ _ => ?_
    dsimp only
    split
    · exact fails_classDeclaration.closes
    · exact closes_varDeclaration (hexpr.mono (Nat.sub_le k 1))

end Statements

/-- Behind the first token of the site. -/
theorem Within.tail {v : List Token} {es : List SyntaxError} (h : site.Within v es)
    (short : v.length < site.tokens.length) : v <:+ site.tokens.tail := by
  have suffix := h.suffix
  cases tokens : site.tokens with
  | nil =>
    rw [tokens] at short
    cases short
  | cons first rest =>
    rw [tokens] at short suffix
    refine (List.suffix_cons_iff.mp suffix).resolve_left fun same => ?_
    rw [same] at short
    exact Nat.lt_irrefl _ short

/-- A statement within another is an expression. -/
theorem closes_nested {d d' : Nat} (short : k < site.tokens.length) (deep : k + 1 < d)
    (deep' : k + 1 < d') : site.Closes k (statementAt d) (statementAt d') := by
  cases d with
  | zero => exact absurd deep (Nat.not_lt_zero _)
  | succ d =>
    cases d' with
    | zero => exact absurd deep' (Nat.not_lt_zero _)
    | succ d' =>
      have expression : site.Stays k (expressionAt d) (expressionAt d') fun _ => 1 :=
        stays_expressionAt (Nat.lt_of_succ_lt_succ deep) (Nat.lt_of_succ_lt_succ deep')
      intro v es within few
      -- no statement starts inside, so the branch can only be an expression
      have starts : ∀ kind ∈ statementKinds, startsStatement kind = true ∨ kind = .leftBrace := by
        decide
      obtain ⟨left, right, -⟩ | ⟨t, v, rfl, mem, -, -⟩ :=
        within.takes statementKinds (by decide)
      · have left' : statementAt (d + 1) (site.leftAt v es) =
            expressionStatement (expressionAt d) (site.leftAt v es) := run_bind left
        have right' : statementAt (d' + 1) (site.rightAt v es) =
            expressionStatement (expressionAt d') (site.rightAt v es) := run_bind right
        rw [left', right']
        exact closes_expressionStatement expression v es within few
      · obtain start | brace := starts t.kind mem
        · have inner := (within.tail (Nat.lt_of_le_of_lt few short)).subset List.mem_cons_self
          rw [site.startsStatement_eq_false inner] at start
          cases start
        · exact absurd (by rw [brace]; decide) (site.single t within.mem)

/-- A statement goes up to the semicolon, however deep it is nested. -/
theorem closes_statementAt {d d' : Nat} (deep : site.tokens.length + 1 < d)
    (deep' : site.tokens.length + 1 < d') :
    site.Closes site.tokens.length (statementAt d) (statementAt d') := by
  cases d with
  | zero => exact absurd deep (Nat.not_lt_zero _)
  | succ d =>
    cases d' with
    | zero => exact absurd deep' (Nat.not_lt_zero _)
    | succ d' =>
      refine closes_anyStatement (stays_expressionAt (by omega) (by omega)) fun l lt => ?_
      exact closes_nested lt (by omega) (by omega)

/-- Whoever skips from the semicolon stops right behind it. -/
theorem skipFrom_semicolon {semicolon : Token} (ends : semicolon.kind = .semicolon)
    (rest : List Token) : skipFrom semicolon rest = rest := by
  cases rest with
  | nil => rfl
  | cons t rest =>
    rw [skipFrom, ends]
    rfl

/-- From a place in the stretch, skipping ends behind the semicolon. -/
theorem Within.skip {v : List Token} {es : List SyntaxError} (h : site.Within v es)
    (rest : List Token) : Parser.skip (v ++ [site.semicolon] ++ rest) = rest := by
  -- nothing before the semicolon stops the skipping
  have goes_on (v : List Token) (t : Token) (single : ∀ u ∈ t :: v, u.kind ≠ .semicolon)
      (inner : ∀ u ∈ v, startsStatement u.kind = false) :
      skipFrom t (v ++ [site.semicolon] ++ rest) = rest := by
    induction v generalizing t with
    | nil =>
      show skipFrom t (site.semicolon :: rest) = rest
      rw [skipFrom, decide_eq_false (single t List.mem_cons_self), site.ends]
      exact skipFrom_semicolon site.ends rest
    | cons u v ih =>
      show skipFrom t (u :: (v ++ [site.semicolon] ++ rest)) = rest
      rw [skipFrom, decide_eq_false (single t List.mem_cons_self), inner u List.mem_cons_self]
      exact ih u (fun w hw => single w (List.mem_cons_of_mem t hw))
        fun w hw => inner w (List.mem_cons_of_mem u hw)
  cases v with
  | nil => exact skipFrom_semicolon site.ends rest
  | cons t v =>
    have shorter : v.length < site.tokens.length := h.suffix.length_le
    refine goes_on v t (fun u hu same => ?_) fun u hu =>
      site.startsStatement_eq_false ((h.behind.tail shorter).subset hu)
    exact site.single u (h.suffix.subset hu) (by rw [same]; decide)

/-- A declaration is over behind the semicolon, with a failure or without. -/
theorem declaration_passes (d d' : Nat) (deep : site.tokens.length + 2 < d)
    (deep' : site.tokens.length + 2 < d') :
    ∃ o es, (∀ e ∈ es, e.token ∈ site.tokens ++ [site.semicolon]) ∧
      declarationAt d (site.leftAt site.tokens []) = .ok o (site.left.at [] es) ∧
      declarationAt d' (site.rightAt site.tokens []) = .ok o (site.right.at [] es) := by
  cases d with
  | zero => exact absurd deep (Nat.not_lt_zero _)
  | succ d =>
    cases d' with
    | zero => exact absurd deep' (Nat.not_lt_zero _)
    | succ d' =>
      have closes : site.Closes site.tokens.length
          (anyDeclaration (expressionAt d) (statementAt d) (declarationAt d))
          (anyDeclaration (expressionAt d') (statementAt d') (declarationAt d')) :=
        closes_anyDeclaration (stays_expressionAt (by omega) (by omega))
          (closes_statementAt (by omega) (by omega))
      have within : site.Within site.tokens [] := ⟨List.suffix_rfl, by simp⟩
      have alike := closes site.tokens [] within (Nat.le_refl _)
      show ∃ o es, _ ∧ recover _ _ = _ ∧ recover _ _ = _
      unfold recover
      -- both readers have come to the same end: a statement, or an error to recover from
      generalize anyDeclaration _ _ _ (site.leftAt site.tokens []) = r,
        anyDeclaration _ _ _ (site.rightAt site.tokens []) = r' at alike ⊢
      cases alike with
      | @ok a _ _ passed =>
        obtain ⟨es, located, rfl, rfl⟩ := passed
        exact ⟨some a, es, fun e he => List.mem_append_left _ (located e he), rfl, rfl⟩
      | @error e v es within located =>
        refine ⟨none, es ++ [e], ?_, ?_, ?_⟩
        · rw [List.forall_mem_append, List.forall_mem_singleton]
          exact ⟨fun d hd => List.mem_append_left _ (within.errors d hd), located⟩
        all_goals
          dsimp only [leftAt, rightAt, Tail.at]
          rw [within.skip, List.append_assoc]
          rfl

end Site

end Lox.Grammar
