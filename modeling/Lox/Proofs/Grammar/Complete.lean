import Lox.Proofs.Grammar.Derivation
import Lox.Proofs.Grammar.Step

/-!
Completeness of parsing: what has a derivation is read, and nothing after it is touched. A parser
looks one or two tokens ahead, so what stands after the tokens must not continue them, and what they
start with must tell the cases apart. The depth of nesting that a derivation needs is bounded by the
number of its tokens.
-/

namespace Lox.Grammar

open Lox.Grammar.Parser

variable {α β : Type}

/-- Before `rest`, the parser reads exactly `u` as `a`, and reports nothing. -/
def Reads (p : Parser α) (u : List Token) (a : α) (rest : List Token) : Prop :=
  ∀ c : Cursor, c.rest = rest → p (c.before u) = .ok a c

/-! ### Steps -/

section Steps

variable {p : Parser α} {f : α → Parser β} {u v rest : List Token} {a : α} {b : β} {t : Token}
  {k : Token.Kind} {kinds : List Token.Kind} {complaint : Complaint}

/-- Tokens of two parts are read by the two parsers in turn. -/
theorem Reads.bind (hp : Reads p u a (v ++ rest)) (hf : Reads (f a) v b rest) :
    Reads (p >>= f) (u ++ v) b rest := by
  intro c hc
  refine bind_ok.mpr ⟨a, c.before v, ?_, hf c hc⟩
  rw [← Cursor.before_before]
  exact hp (c.before v) (by rw [Cursor.before_rest, hc])

/-- To give a value takes no token. -/
theorem Reads.pure : Reads (Pure.pure a) [] a rest := fun _ _ => rfl

/-- The last part of a parser, up to what is made of its result. -/
theorem Reads.last {g : α → β} (hp : Reads p u a rest) :
    Reads (p >>= fun a => Pure.pure (g a)) u (g a) rest := by
  have h : Reads (p >>= fun a => Pure.pure (g a)) (u ++ []) (g a) rest := .bind hp .pure
  rwa [List.append_nil] at h

/-- What is made of a result is made of what was read. -/
theorem Reads.map {g : α → β} (hp : Reads p u a rest) : Reads (g <$> p) u (g a) rest :=
  fun c hc => map_ok.mpr ⟨a, hp c hc, rfl⟩

/-- A token of one of the kinds is taken. -/
theorem reads_take?_some (h : t.kind ∈ kinds) : Reads (take? kinds) [t] (some t) rest :=
  fun _ _ => take?_ok.mpr (.inl ⟨t, h, rfl, rfl⟩)

/-- A token of another kind is left. -/
theorem reads_take?_none (h : ¬ Ahead kinds rest) : Reads (take? kinds) [] none rest := by
  rintro c rfl
  exact take?_ok.mpr (.inr ⟨h, rfl, rfl⟩)

/-- The token that is expected is taken. -/
theorem reads_expect (h : t.kind = k) : Reads (expect k complaint) [t] t rest :=
  fun _ _ => expect_ok.mpr ⟨h, rfl⟩

/-- The token that is expected comes first, and then the rest. -/
theorem Reads.expect {f : Token → Parser β} (h : t.kind = k) (hf : Reads (f t) u b rest) :
    Reads (Parser.expect k complaint >>= f) (t :: u) b rest :=
  Reads.bind (reads_expect h) hf

theorem Reads.expect_discard {f : PUnit → Parser β} (h : t.kind = k)
    (hf : Reads (f ()) u b rest) :
    Reads (discard (Parser.expect k complaint) >>= f) (t :: u) b rest := by
  intro c hc
  refine discard_bind_ok.mpr ⟨t, c.before u, expect_ok.mpr ⟨h, ?_⟩, hf c hc⟩
  rw [Cursor.before_before]
  rfl

/-- A closing token at the very end. -/
theorem Reads.close {b : β} (h : t.kind = k) :
    Reads (discard (Parser.expect k complaint) >>= fun _ => Pure.pure b) [t] b rest :=
  Reads.expect_discard h .pure

/-- There is a token to take, and then the rest. -/
theorem Reads.take_some {f : Option Token → Parser β} (h : t.kind ∈ kinds)
    (hf : Reads (f (some t)) u b rest) : Reads (take? kinds >>= f) (t :: u) b rest :=
  Reads.bind (reads_take?_some h) hf

/-- There is no token to take, and the rest is read without one. -/
theorem Reads.take_none {f : Option Token → Parser β} (h : ¬ Ahead kinds (u ++ rest))
    (hf : Reads (f none) u b rest) : Reads (take? kinds >>= f) u b rest :=
  Reads.bind (u := []) (reads_take?_none h) hf

/-- The parser sees that such a token is ahead and leaves it. -/
theorem Reads.isAt_true {f : Bool → Parser β} (h : Ahead [k] (u ++ rest))
    (hf : Reads (f true) u b rest) : Reads (isAt k >>= f) u b rest := by
  rintro c rfl
  exact bind_ok.mpr ⟨true, _, isAt_ok.mpr ⟨by simpa using h, rfl⟩, hf c rfl⟩

/-- The parser sees that no such token is ahead. -/
theorem Reads.isAt_false {f : Bool → Parser β} (h : ¬ Ahead [k] (u ++ rest))
    (hf : Reads (f false) u b rest) : Reads (isAt k >>= f) u b rest := by
  rintro c rfl
  exact bind_ok.mpr ⟨false, _, isAt_ok.mpr ⟨by simpa using h, rfl⟩, hf c rfl⟩

/-- The parser sees whether there are any tokens ahead. -/
theorem Reads.atEnd {f : Bool → Parser β} (hf : Reads (f (u ++ rest).isEmpty) u b rest) :
    Reads (Parser.atEnd >>= f) u b rest := by
  rintro c rfl
  exact bind_ok.mpr ⟨_, _, atEnd_ok.mpr ⟨List.isEmpty_iff, rfl⟩, hf c rfl⟩

/-- The loop of a step reads the tokens, however many rounds it has to spare. -/
def LoopReads (step : α → Parser (Option α)) (a : α) (u : List Token) (e : α)
    (rest : List Token) : Prop :=
  ∀ rounds : List Token, u.length < rounds.length → Reads (iterate step rounds a) u e rest

/-- A loop whose step has nothing to add ends. -/
theorem LoopReads.stop {step : α → Parser (Option α)} (h : Reads (step a) [] none rest) :
    LoopReads step a [] a rest := by
  intro rounds _
  cases rounds with
  | nil => exact .pure
  | cons r rounds => exact Reads.bind (u := []) h .pure

/-- A loop whose step adds something goes on from there. -/
theorem LoopReads.step {step : α → Parser (Option α)} {a' e : α}
    (h : Reads (step a) u (some a') (v ++ rest)) (pos : 0 < u.length)
    (next : LoopReads step a' v e rest) : LoopReads step a (u ++ v) e rest := by
  intro rounds hrounds
  rw [List.length_append] at hrounds
  cases rounds with
  | nil => simp at hrounds
  | cons r rounds =>
    rw [List.length_cons] at hrounds
    exact Reads.bind h (next rounds (by omega))

/-- A loop whose rounds read the tokens reads them. -/
theorem LoopReads.reads {step : α → Parser (Option α)} {e : α} (h : LoopReads step a u e rest) :
    Reads (repeatFrom step a) u e rest := by
  intro c hc
  refine h (c.eof :: (u ++ c.rest)) ?_ c hc
  rw [List.length_cons, List.length_append]
  omega

end Steps

/-! ### What phrases start with -/

/-- The tokens that an expression may start with. -/
def expressionKinds : List Token.Kind := [.bang, .minus] ++ primaryKinds

/-- The tokens that an expression of a level may start with. -/
def Level.starting : Level → List Token.Kind
  | call | primary => primaryKinds
  | _ => expressionKinds

/-- What starts an operand starts the level above it. -/
theorem Level.starting_inner_subset (l : Level) : l.inner.starting ⊆ l.starting := by
  cases l <;> decide

/-- Every level starts as an expression does. -/
theorem Level.starting_subset (l : Level) : l.starting ⊆ expressionKinds := by
  cases l <;> decide

/-- The tokens start an expression with one of the kinds; a `fun` stands before a parenthesis. -/
def StartsExpression (kinds : List Token.Kind) (u : List Token) : Prop :=
  ∃ t v, u = t :: v ∧ t.kind ∈ kinds ∧
    (t.kind = .funKw → ∃ p w, v = p :: w ∧ p.kind = .leftParen)

section StartsExpression

variable {kinds : List Token.Kind} {u : List Token}

/-- More tokens behind do not change how an expression starts. -/
theorem StartsExpression.append (h : StartsExpression kinds u) (v : List Token) :
    StartsExpression kinds (u ++ v) := by
  obtain ⟨t, w, rfl, hk, hfun⟩ := h
  refine ⟨t, w ++ v, rfl, hk, fun ht => ?_⟩
  obtain ⟨p, x, rfl, hp⟩ := hfun ht
  exact ⟨p, x ++ v, rfl, hp⟩

theorem StartsExpression.mono {kinds' : List Token.Kind} (h : StartsExpression kinds u)
    (sub : kinds ⊆ kinds') : StartsExpression kinds' u := by
  obtain ⟨t, w, rfl, hk, hfun⟩ := h
  exact ⟨t, w, rfl, sub hk, hfun⟩

/-- Where an expression starts, a token that starts one is ahead. -/
theorem StartsExpression.ahead (h : StartsExpression kinds u) : Ahead kinds u := by
  obtain ⟨t, w, rfl, hk, -⟩ := h
  exact ahead_cons.mpr hk

/-- Where an expression starts, no token of another kind is ahead. -/
theorem StartsExpression.not_ahead {others : List Token.Kind} (h : StartsExpression kinds u)
    (apart : ∀ k ∈ others, k ∉ kinds) (rest : List Token) : ¬ Ahead others (u ++ rest) :=
  h.ahead.not_ahead apart rest

/-- An expression has tokens. -/
theorem StartsExpression.length_pos (h : StartsExpression kinds u) : 0 < u.length :=
  h.ahead.length_pos

end StartsExpression

/-- An atom is of a kind of its own, and no function. -/
theorem Atom.kind_mem {t : Token} {e : Expr} (h : Atom t e) :
    t.kind ∈ primaryKinds ∧ t.kind ≠ .funKw := by
  cases h <;> simp [primaryKinds, *]

/-- What the tokens of a category start with, where it matters. -/
def Starting : Category → List Token → Prop
  | .expression, u => StartsExpression expressionKinds u
  | .level l, u => StartsExpression l.starting u
  | .statement _, u => StartsExpression expressionKinds u ∨ Ahead statementKinds u
  | .declaration, u =>
    StartsExpression expressionKinds u ∨ Ahead (statementKinds ++ [.varKw, .funKw, .classKw]) u
  | .function, u => Ahead [.identifier] u
  | _, _ => True

/-- What is derived from a category starts as the category does. -/
theorem Derivation.starting {c : Category} {u : List Token} {a : c.Tree} (h : Derivation c u a) :
    Starting c u := by
  -- what a tree starts with is what its first part starts with
  induction h with
  | assign ht => exact ⟨_, _, rfl, by simp [expressionKinds, primaryKinds, ht], by simp [ht]⟩
  | set _ _ _ _ _ ih =>
    exact (StartsExpression.mono ih (Level.starting_subset .call)).append _
  | value _ ih => exact ih
  | operand _ _ _ ih => exact (StartsExpression.mono ih (Level.starting_inner_subset _)).append _
  | unary hop _ ih =>
    refine ⟨_, _, rfl, List.mem_append_left _ hop, fun hfun => ?_⟩
    rw [hfun] at hop
    simp at hop
  | plain _ ih => exact StartsExpression.mono ih (Level.starting_inner_subset .unary)
  | callee _ _ ih => exact StartsExpression.append ih _
  | atom ha => exact ⟨_, _, rfl, ha.kind_mem.1, fun hfun => absurd hfun ha.kind_mem.2⟩
  | super hs => exact ⟨_, _, rfl, by simp [Level.starting, primaryKinds, hs], by simp [hs]⟩
  | group hp => exact ⟨_, _, rfl, by simp [Level.starting, primaryKinds, hp], by simp [hp]⟩
  | lambda hf hp =>
    exact ⟨_, _, rfl, by simp [Level.starting, primaryKinds, hf], fun _ => ⟨_, _, rfl, hp⟩⟩
  | expr _ _ ih => exact .inl (StartsExpression.append ih _)
  | print hk | ret hk | block hk | loop hk | cond hk | condElse hk | forLoop hk =>
    exact .inr (ahead_cons.mpr (by simp [statementKinds, hk]))
  | statement _ ih =>
    rcases ih with h | h
    · exact .inl h
    · exact .inr (h.mono (List.subset_append_left ..))
  | var hk | «fun» hk | classDecl hk => exact .inr (ahead_cons.mpr (by simp [hk]))
  | function ht => exact ahead_cons.mpr (by simp [ht])
  | _ => trivial

/-- A declaration does not start with a brace that closes or with an `else`. -/
theorem Starting.not_ahead {u : List Token} {kinds : List Token.Kind} (h : Starting .declaration u)
    (sub : kinds ⊆ [.rightBrace, .elseKw]) (rest : List Token) : ¬ Ahead kinds (u ++ rest) := by
  intro ahead
  have ahead := ahead.mono sub
  rcases h with h | h
  · exact h.not_ahead (by decide) rest ahead
  · exact h.not_ahead (by decide) rest ahead

/-- A declaration has tokens. -/
theorem Starting.length_pos {u : List Token} (h : Starting .declaration u) : 0 < u.length := by
  rcases h with h | h
  · exact h.length_pos
  · exact h.length_pos

/-! ### What may come after -/

namespace Level

/-- The tokens that would go on with an expression of a level. -/
def continuing : Level → List Token.Kind
  | primary => []
  | call | unary => [.leftParen, .dot]
  | factor => [.slash, .star, .leftParen, .dot]
  | term => [.minus, .plus, .slash, .star, .leftParen, .dot]
  | comparison =>
    [.greater, .greaterEqual, .less, .lessEqual, .minus, .plus, .slash, .star, .leftParen, .dot]
  | equality =>
    [.bangEqual, .equalEqual, .greater, .greaterEqual, .less, .lessEqual, .minus, .plus, .slash,
     .star, .leftParen, .dot]
  | conjunction =>
    [.andKw, .bangEqual, .equalEqual, .greater, .greaterEqual, .less, .lessEqual, .minus, .plus,
     .slash, .star, .leftParen, .dot]
  | disjunction =>
    [.orKw, .andKw, .bangEqual, .equalEqual, .greater, .greaterEqual, .less, .lessEqual, .minus,
     .plus, .slash, .star, .leftParen, .dot]

/-- The operators of a level may follow it. -/
theorem operators_subset (l : Level) : l.operators ⊆ l.continuing := by
  cases l <;> decide

/-- What may follow an operand may follow the level above it. -/
theorem inner_subset (l : Level) : l.inner.continuing ⊆ l.continuing := by
  cases l <;> decide

/-- An operator of a level does not go on with its operand. -/
theorem operator_not_mem {l : Level} {k : Token.Kind} (h : k ∈ l.operators) :
    k ∉ l.inner.continuing := by
  revert k
  cases l <;> decide

/-- The parser of a level. -/
def parser (expression : Parser Expr) (block : Parser (List Stmt)) : Level → Parser Expr
  | disjunction => Grammar.disjunction expression block
  | conjunction => Grammar.conjunction expression block
  | equality => Grammar.equality expression block
  | comparison => Grammar.comparison expression block
  | term => Grammar.term expression block
  | factor => Grammar.factor expression block
  | unary => Grammar.unary expression block
  | call => Grammar.call expression block
  | primary => Grammar.primary expression block

/-- A level with operators is parsed as operands with operators between. -/
theorem parser_eq_leftAssoc {l : Level} (nonempty : l.operators ≠ [])
    (expression : Parser Expr) (block : Parser (List Stmt)) :
    l.parser expression block =
      leftAssoc l.operators l.join (l.inner.parser expression block) := by
  cases l <;> first | rfl | exact absurd rfl nonempty

end Level

/-- The tokens that would go on with an expression. -/
def expressionContinuing : List Token.Kind := .equal :: Level.disjunction.continuing

/-- What comes after an operand of a chain does not go on with the operand. -/
theorem Derivation.chain_not_ahead {l : Level} {w rest : List Token} {pair : Expr × Expr}
    (h : Derivation (.chain l) w pair) (after : ¬ Ahead l.continuing rest) :
    ¬ Ahead l.inner.continuing (w ++ rest) := by
  cases h with
  | chainEnd => exact fun h => after (h.mono l.inner_subset)
  | chainStep hop =>
    rw [List.cons_append, ahead_cons]
    exact Level.operator_not_mem hop

/-- What comes after an argument does not go on with it. -/
theorem Derivation.moreArguments_not_ahead {w rest : List Token} {args : List Expr}
    (h : Derivation .moreArguments w args) (closing : Ahead [.rightParen] rest) :
    ¬ Ahead expressionContinuing (w ++ rest) := by
  cases h with
  | argumentsEnd => exact closing.apart (by decide)
  | argument hk =>
    exact not_ahead_cons hk (by decide)

/-! ### Lists -/

section Lists

variable {item : Parser α} {u w rest : List Token} {a : α} {items more : List α}

/-- The step of a list with commas. -/
def commaStep (item : Parser α) (items : List α) : Parser (Option (List α)) := do
  match ← take? [.comma] with
  | none => return none
  | some _ => return some ((← item) :: items)

/-- A comma and an item are one round of a list. -/
theorem reads_commaStep {k : Token} (hk : k.kind = .comma) (h : Reads item u a rest) :
    Reads (commaStep item items) (k :: u) (some (a :: items)) rest :=
  .take_some (List.mem_singleton.mpr hk) (.last h)

/-- Without a comma the list is at its end. -/
theorem reads_commaStep_none (h : ¬ Ahead [.comma] rest) :
    Reads (commaStep item items) [] none rest :=
  .take_none h .pure

/-- A list may be empty where its end is ahead. -/
theorem reads_separated_nil {closing : Token.Kind} (h : Ahead [closing] rest) :
    Reads (separated closing item) [] [] rest :=
  .isAt_true h .pure

/-- A list is its first item and the rounds after it. -/
theorem reads_separated {closing : Token.Kind} (start : ¬ Ahead [closing] (u ++ (w ++ rest)))
    (first : Reads item u a (w ++ rest))
    (next : LoopReads (commaStep item) [a] w (more.reverse ++ [a]) rest) :
    Reads (separated closing item) (u ++ w) (a :: more) rest := by
  refine .isAt_false (by rwa [List.append_assoc]) (.bind first ?_)
  have h := Reads.last (g := List.reverse) next.reads
  rwa [List.reverse_append, List.reverse_reverse] at h

end Lists

/-! ### What it is to be read -/

/-- The step of a loop over operators and operands. -/
def operatorStep (kinds : List Token.Kind) (make : Token → Expr → Expr → Expr)
    (operand : Parser Expr) (left : Expr) : Parser (Option Expr) := do
  match ← take? kinds with
  | none => return none
  | some op => return some (make op left (← operand))

/-- The step of a loop over the operators in front. -/
def prefixStep (ops : List Token) : Parser (Option (List Token)) :=
  return (← take? [.bang, .minus]).map (· :: ops)

/-- The rest of a unary expression after some operators. -/
def unaryFrom (operand : Parser Expr) (rounds ops : List Token) : Parser Expr := do
  let ops ← iterate prefixStep rounds ops
  let e ← operand
  return ops.foldl (fun e op => .unary op e) e

/-- The step of a loop over methods. -/
def methodStep (declaration : Parser (Option Stmt)) (methods : List Function) :
    Parser (Option (List Function)) := do
  if (← isAt .rightBrace) || (← atEnd) then return none
  else return some ((← function declaration .method) :: methods)

/-- The step of a loop over declarations that ends before `rest`. -/
structure BodyStep (declaration : Parser (Option Stmt))
    (step : List Stmt → Parser (Option (List Stmt))) (rest : List Token) : Prop where
  stop : ∀ body, Reads (step body) [] none rest
  go : ∀ {u s after body}, Starting .declaration u → Reads declaration u (some s) after →
    Reads (step body) u (some (s :: body)) after

/-- What it is for the tokens of each category to be read as their tree. The nesting may be as deep
as there are tokens, and what stands after the tokens does not go on with them. -/
def Readable : (c : Category) → List Token → c.Tree → Prop
  | .expression, u, e => ∀ n rest, 3 * u.length ≤ n + 2 → ¬ Ahead expressionContinuing rest →
    Reads (expressionAt n) u e rest
  -- More suffixes may follow a callee, and more operators may stand before an operand.
  | .level .call, u, e => ∀ n w e' rest, 3 * u.length ≤ n + 3 →
    LoopReads (suffix? (expressionAt n)) e w e' rest →
    Reads (call (expressionAt n) (block (declarationAt n))) (u ++ w) e' rest
  | .level .unary, u, e => ∀ n rest rounds ops, u.length < rounds.length →
    3 * u.length ≤ n + 3 → ¬ Ahead Level.unary.continuing rest →
    Reads (unaryFrom (call (expressionAt n) (block (declarationAt n))) rounds ops) u
      (ops.foldl (fun e op => .unary op e) e) rest
  | .level l, u, e => ∀ n rest, 3 * u.length ≤ n + 3 → ¬ Ahead l.continuing rest →
    Reads (l.parser (expressionAt n) (block (declarationAt n))) u e rest
  | .chain l, w, (a, e) => ∀ n rest, 3 * w.length ≤ n + 3 → ¬ Ahead l.continuing rest →
    LoopReads (operatorStep l.operators l.join
      (l.inner.parser (expressionAt n) (block (declarationAt n)))) a w e rest
  | .suffixes, w, (a, e) => ∀ n v e' rest, 3 * w.length ≤ n →
    LoopReads (suffix? (expressionAt n)) e v e' rest →
    LoopReads (suffix? (expressionAt n)) a (w ++ v) e' rest
  | .arguments, u, args => ∀ n rest, 3 * u.length ≤ n + 2 → Ahead [.rightParen] rest →
    Reads (separated .rightParen (expressionAt n)) u args rest
  | .moreArguments, w, args => ∀ n rest before, 3 * w.length ≤ n + 2 → Ahead [.rightParen] rest →
    LoopReads (commaStep (expressionAt n)) before w (args.reverse ++ before) rest
  | .params, u, params => ∀ rest, Ahead [.rightParen] rest →
    Reads (separated .rightParen (expect .identifier .parameterName)) u params rest
  | .moreParams, w, params => ∀ rest before, Ahead [.rightParen] rest →
    LoopReads (commaStep (expect .identifier .parameterName)) before w (params.reverse ++ before)
      rest
  | .optional, u, o => ∀ n rest closing, 3 * u.length ≤ n + 2 →
    closing ∈ [Token.Kind.semicolon, .rightParen] → Ahead [closing] rest →
    Reads (optionalUnless closing (expressionAt n)) u o rest
  | .varRest, u, s => ∀ n rest, 3 * u.length ≤ n + 2 →
    Reads (varDeclaration (expressionAt n)) u s rest
  | .forInit, u, o => ∀ n rest, 3 * u.length ≤ n + 2 →
    Reads (forInit (expressionAt n)) u o rest
  | .statement isOpen, u, s => ∀ n rest, 3 * u.length ≤ n + 1 →
    (isOpen = true → ¬ Ahead [.elseKw] rest) → Reads (statementAt n) u s rest
  | .declaration, u, s => ∀ n rest, 3 * u.length ≤ n → ¬ Ahead [.elseKw] rest →
    Reads (declarationAt n) u (some s) rest
  | .declarations, u, body => ∀ n rest step before, 3 * u.length ≤ n → ¬ Ahead [.elseKw] rest →
    BodyStep (declarationAt n) step rest → LoopReads step before u (body.reverse ++ before) rest
  | .function, u, f => ∀ n rest owner, 3 * u.length ≤ n →
    Reads (function (declarationAt n) owner) u f rest
  | .methods, u, fs => ∀ n rest before, 3 * u.length ≤ n → Ahead [.rightBrace] rest →
    LoopReads (methodStep (declarationAt n)) before u (fs.reverse ++ before) rest
  | .superclass, u, o => ∀ rest, Ahead [.leftBrace] rest → Reads superclassClause u o rest

/-! ### Levels -/

section Levels

variable {expression operand : Parser Expr} {block : Parser (List Stmt)} {u w rest : List Token}
  {a e : Expr} {kinds : List Token.Kind} {make : Token → Expr → Expr → Expr}

/-- Where no suffix follows, the call is complete. -/
theorem reads_suffixes_end (after : ¬ Ahead Level.call.continuing rest) :
    LoopReads (suffix? expression) e [] e rest :=
  .stop (.take_none after .pure)

/-- However a level is read, it is read by its parser. -/
theorem Readable.reads {l : Level} {n : Nat} (h : Readable (.level l) u e)
    (depth : 3 * u.length ≤ n + 3) (after : ¬ Ahead l.continuing rest) :
    Reads (l.parser (expressionAt n) (Grammar.block (declarationAt n))) u e rest := by
  cases l with
  | call =>
    rw [← List.append_nil u]
    exact h n [] e rest depth (reads_suffixes_end after)
  | unary =>
    intro c hc
    refine h n rest (c.eof :: (u ++ c.rest)) [] ?_ depth after c hc
    rw [List.length_cons, List.length_append]
    omega
  | _ => exact h n rest depth after

/-- A level with operators is read only by its parser. -/
theorem readable_of_reads {l : Level} (nonempty : l.operators ≠ [])
    (h : ∀ n rest, 3 * u.length ≤ n + 3 → ¬ Ahead l.continuing rest →
      Reads (l.parser (expressionAt n) (Grammar.block (declarationAt n))) u e rest) :
    Readable (.level l) u e := by
  cases l with
  | call | unary | primary => exact absurd rfl nonempty
  | _ => exact h

/-- Operands are joined from the left. -/
theorem reads_leftAssoc (first : Reads operand u a (w ++ rest))
    (next : LoopReads (operatorStep kinds make operand) a w e rest) :
    Reads (leftAssoc kinds make operand) (u ++ w) e rest :=
  .bind first next.reads

/-- An operand without an operator after it. -/
theorem reads_leftAssoc_one (first : Reads operand u a rest) (after : ¬ Ahead kinds rest) :
    Reads (leftAssoc kinds make operand) u a rest := by
  rw [← List.append_nil u]
  exact reads_leftAssoc first (.stop (.take_none after .pure))

/-- The target of an assignment is read by the loosest level although a callee is all it is. -/
theorem reads_target (starts : StartsExpression primaryKinds u) (after : Ahead [.equal] rest)
    (h : Reads (call expression block) u e rest) :
    Reads (disjunction expression block) u e rest := by
  have unary : Reads (unary expression block) u e rest := by
    refine Reads.bind (u := []) (LoopReads.reads (.stop ?_)) (.last h)
    exact .take_none (starts.not_ahead (by decide) rest) .pure
  have factor : Reads (factor expression block) u e rest :=
    reads_leftAssoc_one unary (after.apart (by decide))
  have term : Reads (term expression block) u e rest :=
    reads_leftAssoc_one factor (after.apart (by decide))
  have comparison : Reads (comparison expression block) u e rest :=
    reads_leftAssoc_one term (after.apart (by decide))
  have equality : Reads (equality expression block) u e rest :=
    reads_leftAssoc_one comparison (after.apart (by decide))
  have conjunction : Reads (conjunction expression block) u e rest :=
    reads_leftAssoc_one equality (after.apart (by decide))
  exact reads_leftAssoc_one conjunction (after.apart (by decide))

end Levels

/-! ### Expressions -/

section Expressions

variable {n : Nat} {u v w rest : List Token} {t q : Token} {a e value : Expr}

/-- An expression that is no assignment is read as one of the level below. -/
theorem readable_value (start : Starting (.level .disjunction) u)
    (h : Readable (.level .disjunction) u e) : Readable .expression u e := by
  intro n rest depth after
  have pos := StartsExpression.length_pos start
  cases n with
  | zero => omega
  | succ n =>
    rw [← List.append_nil u]
    refine Reads.bind (h.reads (by omega) (fun ahead => after (ahead.mono ?_))) ?_
    · exact List.subset_cons_self ..
    · exact .take_none (fun ahead => after (ahead.mono (by decide))) .pure

/-- A name, an equals sign and a value. -/
theorem readable_assign (ht : t.kind = .identifier) (hq : q.kind = .equal)
    (h : Readable .expression u value) :
    Readable .expression (t :: q :: u) (.assign { name := t } value) := by
  intro n rest depth after
  simp only [List.length_cons] at depth
  cases n with
  | zero => omega
  | succ n =>
    have target : Reads (disjunction (expressionAt n) (block (declarationAt n))) [t]
        (.variable { name := t }) (q :: u ++ rest) := by
      refine reads_target ⟨t, [], rfl, by simp [primaryKinds, ht], by simp [ht]⟩
        (ahead_cons.mpr (by simp [hq])) ?_
      refine Reads.bind (u := [t]) (v := []) ?_ (reads_suffixes_end ?_).reads
      · refine .take_some (by simp [primaryKinds, ht]) ?_
        simp only [ht]
        exact .pure
      · exact not_ahead_cons hq (by decide)
    refine Reads.bind (u := [t]) target (.take_some (by simp [hq]) ?_)
    exact .last (h n rest (by omega) after)

/-- A property, an equals sign and a value: what was read as a property is then its target. -/
theorem readable_set {d : Token} {object : Expr} (start : Starting (.level .call) u)
    (hobject : Readable (.level .call) u object) (hd : d.kind = .dot) (ht : t.kind = .identifier)
    (hq : q.kind = .equal) (h : Readable .expression v value) :
    Readable .expression (u ++ d :: t :: q :: v) (.set object t value) := by
  intro n rest depth after
  simp only [List.length_cons, List.length_append] at depth
  cases n with
  | zero => omega
  | succ n =>
    -- the target is read as a property first, and turned into an assignment afterwards
    have target : Reads (disjunction (expressionAt n) (block (declarationAt n))) (u ++ [d, t])
        (.get object t) (q :: v ++ rest) := by
      refine reads_target (StartsExpression.append start _) (ahead_cons.mpr (by simp [hq])) ?_
      refine hobject n [d, t] _ _ (by omega) ?_
      refine LoopReads.step (u := [d, t]) (v := []) ?_ (by simp) (reads_suffixes_end ?_)
      · refine .take_some (by simp [hd]) ?_
        simp only [hd, reduceCtorEq, if_false]
        exact .expect ht .pure
      · exact not_ahead_cons hq (by decide)
    have split : u ++ d :: t :: q :: v = (u ++ [d, t]) ++ q :: v := by simp
    rw [split]
    refine Reads.bind target (.take_some (by simp [hq]) ?_)
    exact .last (h n rest (by omega) after)

/-- An operand and the operators behind it. -/
theorem readable_operand {l : Level} (nonempty : l.operators ≠ [])
    (hw : Derivation (.chain l) w (a, e)) (first : Readable (.level l.inner) u a)
    (next : Readable (.chain l) w (a, e)) : Readable (.level l) (u ++ w) e := by
  refine readable_of_reads nonempty fun n rest depth after => ?_
  rw [List.length_append] at depth
  rw [Level.parser_eq_leftAssoc nonempty]
  exact reads_leftAssoc (first.reads (by omega) (hw.chain_not_ahead after))
    (next n rest (by omega) after)

/-- An operator, an operand and what goes on behind them. -/
theorem readable_chainStep {l : Level} {op : Token} {b : Expr} (hop : op.kind ∈ l.operators)
    (hw : Derivation (.chain l) w (l.join op a b, e)) (operand : Readable (.level l.inner) v b)
    (next : Readable (.chain l) w (l.join op a b, e)) :
    Readable (.chain l) (op :: (v ++ w)) (a, e) := by
  intro n rest depth after
  rw [List.length_cons, List.length_append] at depth
  refine LoopReads.step (u := op :: v) ?_ (by simp) (next n rest (by omega) after)
  exact .take_some hop (.last (operand.reads (by omega) (hw.chain_not_ahead after)))

/-- An operator in front of its operand. -/
theorem readable_unary {op : Token} (hop : op.kind ∈ [Token.Kind.bang, .minus])
    (h : Readable (.level .unary) u e) : Readable (.level .unary) (op :: u) (.unary op e) := by
  intro n rest rounds ops hrounds depth after
  rw [List.length_cons] at depth hrounds
  cases rounds with
  | nil => simp at hrounds
  | cons r rounds =>
    rw [List.length_cons] at hrounds
    have inner := h n rest rounds (op :: ops) (by omega) (by omega) after
    intro c hc
    -- The first round takes the operator, the others are those of the rest.
    have first : iterate prefixStep (r :: rounds) ops (c.before (op :: u)) =
        iterate prefixStep rounds (op :: ops) (c.before u) := by
      have take : prefixStep ops (c.before (op :: u)) = .ok (some (op :: ops)) (c.before u) :=
        Reads.last (g := Option.map (· :: ops)) (reads_take?_some hop) (c.before u) rfl
      show EStateM.bind _ _ _ = _
      simp only [EStateM.bind, take]
    show EStateM.bind _ _ _ = _
    rw [EStateM.bind, first]
    exact inner c hc

/-- A call without an operator in front of it. -/
theorem readable_plain (start : Starting (.level .call) u) (h : Readable (.level .call) u e) :
    Readable (.level .unary) u e := by
  intro n rest rounds ops hrounds depth after
  refine Reads.bind (u := []) (LoopReads.stop ?_ rounds (by simp; omega)) ?_
  · exact .take_none (StartsExpression.not_ahead start (by decide) rest) .pure
  · exact .last (h.reads depth after)

/-- What is called, and the suffixes behind it. -/
theorem readable_callee (start : Starting (.level .primary) u)
    (first : Readable (.level .primary) u a) (next : Readable .suffixes w (a, e)) :
    Readable (.level .call) (u ++ w) e := by
  intro n v e' rest depth more
  have pos := StartsExpression.length_pos start
  rw [List.length_append] at depth
  rw [List.append_assoc]
  refine Reads.bind (first n _ (by omega) ?_) (next n v e' rest (by omega) more).reads
  rintro ⟨t, -, ht⟩
  cases ht

/-- Arguments in parentheses, and the suffixes behind them. -/
theorem readable_call {p : Token} {args : List Expr} (hp : p.kind = .leftParen)
    (hargs : Readable .arguments v args) (hq : q.kind = .rightParen)
    (next : Readable .suffixes w (.call a q args, e)) :
    Readable .suffixes (p :: (v ++ q :: w)) (a, e) := by
  intro n x e' rest depth more
  simp only [List.length_cons, List.length_append] at depth
  have split : p :: (v ++ q :: w) ++ x = (p :: (v ++ [q])) ++ (w ++ x) := by simp
  rw [split]
  refine LoopReads.step ?_ (by simp) (next n x e' rest (by omega) more)
  refine .take_some (by simp [hp]) ?_
  simp only [hp, if_true]
  exact .bind (hargs n _ (by omega) (ahead_cons.mpr (by simp [hq]))) (.expect hq .pure)

/-- A dot and a name, and the suffixes behind them. -/
theorem readable_get {d : Token} (hd : d.kind = .dot) (ht : t.kind = .identifier)
    (next : Readable .suffixes w (.get a t, e)) : Readable .suffixes (d :: t :: w) (a, e) := by
  intro n x e' rest depth more
  simp only [List.length_cons] at depth
  refine LoopReads.step (u := [d, t]) ?_ (by simp) (next n x e' rest (by omega) more)
  refine .take_some (by simp [hd]) ?_
  simp only [hd, reduceCtorEq, if_false]
  exact .expect ht .pure

/-- An atom is one token. -/
theorem readable_atom (h : Atom t e) : Readable (.level .primary) [t] e := by
  intro n rest _ _
  refine .take_some h.kind_mem.1 ?_
  cases h with
  | _ hk =>
    simp only [hk]
    exact .pure

/-- A method of the superclass. -/
theorem readable_super {s d : Token} (hs : s.kind = .superKw) (hd : d.kind = .dot)
    (ht : t.kind = .identifier) :
    Readable (.level .primary) [s, d, t] (.super { name := s } t) := by
  intro n rest _ _
  refine .take_some (by simp [primaryKinds, hs]) ?_
  simp only [hs]
  exact .expect_discard hd (.expect ht .pure)

/-- An expression in parentheses. -/
theorem readable_group {p : Token} (hp : p.kind = .leftParen) (h : Readable .expression u e)
    (hq : q.kind = .rightParen) : Readable (.level .primary) (p :: (u ++ [q])) (.group e) := by
  intro n rest depth _
  simp only [List.length_cons, List.length_append] at depth
  refine .take_some (by simp [primaryKinds, hp]) ?_
  simp only [hp]
  refine .bind (h n _ (by omega) ?_) (.close hq)
  exact not_ahead_cons hq (by decide)

/-- A closing brace ends a loop over declarations. -/
theorem bodyStep_declarations {declaration : Parser (Option Stmt)} (h : Ahead [.rightBrace] rest) :
    BodyStep declaration (fun body => do
      if (← isAt .rightBrace) || (← atEnd) then return none
      else return some ((← declaration).toList ++ body)) rest where
  stop body := .isAt_true h (.atEnd .pure)
  go {u s after body} start hread := by
    have nonempty : (u ++ after).isEmpty = false := by
      have pos := start.length_pos
      cases u with
      | nil => cases pos
      | cons t u => rfl
    refine .isAt_false (start.not_ahead (by decide) after) (.atEnd ?_)
    simp only [nonempty, Bool.or_false, Bool.false_eq_true, if_false]
    exact .last hread

/-- Declarations up to the brace that closes them. -/
theorem reads_block {d : Token} {body : List Stmt} (h : Readable .declarations u body)
    (hd : d.kind = .rightBrace) (depth : 3 * u.length ≤ n) :
    Reads (block (declarationAt n)) (u ++ [d]) body rest := by
  have closing : Ahead [.rightBrace] ([d] ++ rest) := ahead_cons.mpr (by simp [hd])
  have noElse : ¬ Ahead [.elseKw] ([d] ++ rest) := by
    exact not_ahead_cons hd (by decide)
  have loop := (h n _ _ [] depth noElse (bodyStep_declarations closing)).reads
  refine Reads.bind (a := body) ?_ (.close hd)
  have read := Reads.last (g := List.reverse) loop
  rwa [List.append_nil, List.reverse_reverse] at read

/-- Parameters and a body, as they come behind the opening parenthesis. -/
theorem reads_functionRest {b d : Token} {params : List Token} {body : List Stmt} {owner : Owner}
    (hparams : Readable .params u params) (hq : q.kind = .rightParen) (hb : b.kind = .leftBrace)
    (hbody : Readable .declarations v body) (hd : d.kind = .rightBrace)
    (depth : 3 * v.length ≤ n) :
    Reads (functionRest (block (declarationAt n)) owner) (u ++ q :: b :: (v ++ [d]))
      (params, body) rest := by
  refine .bind (hparams _ (ahead_cons.mpr (by simp [hq]))) ?_
  exact .expect_discard hq (.expect_discard hb (.last (reads_block hbody hd depth)))

/-- A function without a name. -/
theorem readable_lambda {f p b d : Token} {params : List Token} {body : List Stmt}
    (hf : f.kind = .funKw) (hp : p.kind = .leftParen) (hparams : Readable .params u params)
    (hq : q.kind = .rightParen) (hb : b.kind = .leftBrace) (hbody : Readable .declarations v body)
    (hd : d.kind = .rightBrace) :
    Readable (.level .primary) (f :: p :: (u ++ q :: b :: (v ++ [d])))
      (.lambda f params body) := by
  intro n rest depth _
  simp only [List.length_cons, List.length_append] at depth
  refine .take_some (by simp [primaryKinds, hf]) ?_
  simp only [hf]
  refine .expect_discard hp ?_
  rw [← List.append_nil (u ++ _)]
  exact .bind (reads_functionRest hparams hq hb hbody hd (by omega)) .pure

/-- Arguments: the first one, and each of the others behind a comma. -/
theorem readable_arguments {args : List Expr} (start : Starting .expression u)
    (hw : Derivation .moreArguments w args) (first : Readable .expression u e)
    (next : Readable .moreArguments w args) : Readable .arguments (u ++ w) (e :: args) := by
  intro n rest depth closing
  rw [List.length_append] at depth
  refine reads_separated (StartsExpression.not_ahead start (by decide) _) ?_
    (next n rest [e] (by omega) closing)
  exact first n _ (by omega) (hw.moreArguments_not_ahead closing)

/-- An argument behind a comma, and the others. -/
theorem readable_argument {k : Token} {args : List Expr} (hk : k.kind = .comma)
    (hw : Derivation .moreArguments w args) (first : Readable .expression u e)
    (next : Readable .moreArguments w args) :
    Readable .moreArguments (k :: (u ++ w)) (e :: args) := by
  intro n rest before depth closing
  rw [List.length_cons, List.length_append] at depth
  have more := next n rest (e :: before) (by omega) closing
  rw [List.reverse_cons, List.append_assoc]
  refine LoopReads.step (u := k :: u) (reads_commaStep hk ?_) (by simp) more
  exact first n _ (by omega) (hw.moreArguments_not_ahead closing)

/-- Parameters: the first one, and each of the others behind a comma. -/
theorem readable_params {params : List Token} (ht : t.kind = .identifier)
    (next : Readable .moreParams w params) : Readable .params (t :: w) (t :: params) := by
  intro rest closing
  refine reads_separated (u := [t]) ?_ (reads_expect ht) (next rest [t] closing)
  exact not_ahead_cons ht (by decide)

/-- A parameter behind a comma, and the others. -/
theorem readable_param {k : Token} {params : List Token} (hk : k.kind = .comma)
    (ht : t.kind = .identifier) (next : Readable .moreParams w params) :
    Readable .moreParams (k :: t :: w) (t :: params) := by
  intro rest before closing
  rw [List.reverse_cons, List.append_assoc]
  exact LoopReads.step (u := [k, t]) (reads_commaStep hk (reads_expect ht)) (by simp)
    (next rest (t :: before) closing)

end Expressions

/-! ### Statements -/

section Statements

variable {n : Nat} {u v w x rest : List Token} {t p q k : Token} {e test : Expr} {s body : Stmt}
  {isOpen : Bool}

/-- A semicolon after an expression. -/
theorem reads_ended {complaint : Complaint} {f : Expr → Stmt} (h : Readable .expression u e)
    (hk : k.kind = .semicolon) (depth : 3 * u.length ≤ n + 2) :
    Reads (do
      let e ← expressionAt n
      discard (expect .semicolon complaint)
      return f e) (u ++ [k]) (f e) rest := by
  refine .bind (h n _ depth ?_) (.close hk)
  exact not_ahead_cons hk (by decide)

/-- An optional expression that is there. -/
theorem readable_someExpression (start : Starting .expression u) (h : Readable .expression u e) :
    Readable .optional u (some e) := by
  intro n rest closing depth hclosing after
  have sub : [closing] ⊆ [.semicolon, .rightParen] := by simpa using hclosing
  refine .isAt_false (fun ahead => ?_) (.last (h n rest depth ?_))
  · exact StartsExpression.not_ahead start (by decide) rest (ahead.mono sub)
  · have apart : ∀ k ∈ [Token.Kind.semicolon, .rightParen], k ∉ expressionContinuing := by decide
    exact after.apart (apart closing hclosing)

/-- A variable with a value at first. -/
theorem readable_varSome (ht : t.kind = .identifier) (hq : q.kind = .equal)
    (h : Readable .expression u e) (hk : k.kind = .semicolon) :
    Readable .varRest (t :: q :: (u ++ [k])) (.var t (some e)) := by
  intro n rest depth
  simp only [List.length_cons, List.length_append] at depth
  refine .expect ht (.take_some (by simp [hq]) ?_)
  refine .bind (.map (h n _ (by omega) ?_)) (.close hk)
  exact not_ahead_cons hk (by decide)

/-- A variable without a value. -/
theorem readable_varNone (ht : t.kind = .identifier) (hk : k.kind = .semicolon) :
    Readable .varRest [t, k] (.var t none) := by
  intro n rest _
  refine .expect ht (.take_none ?_ ?_)
  · exact not_ahead_cons hk (by decide)
  · exact .bind (u := []) .pure (.close hk)

/-- A loop may start with a variable. -/
theorem readable_varInit (ht : t.kind = .varKw) (h : Readable .varRest u s) :
    Readable .forInit (t :: u) (some s) := by
  intro n rest depth
  rw [List.length_cons] at depth
  refine .take_some (by simp [ht]) ?_
  simp only [ht, reduceCtorEq, if_false]
  exact .map (h n rest (by omega))

/-- A loop may start with an expression. -/
theorem readable_exprInit (start : Starting .expression u) (h : Readable .expression u e)
    (hk : k.kind = .semicolon) : Readable .forInit (u ++ [k]) (some (.expr e)) := by
  intro n rest depth
  rw [List.length_append] at depth
  refine .take_none ?_ (.map (reads_ended h hk (by omega)))
  rw [List.append_assoc]
  exact StartsExpression.not_ahead start (by decide) _

/-- An expression as a statement. -/
theorem readable_expr (start : Starting .expression u) (h : Readable .expression u e)
    (hk : k.kind = .semicolon) : Readable (.statement false) (u ++ [k]) (.expr e) := by
  intro n rest depth _
  rw [List.length_append, List.length_singleton] at depth
  cases n with
  | zero => omega
  | succ n =>
    refine Reads.take_none ?_ (reads_ended h hk (by omega))
    rw [List.append_assoc]
    exact StartsExpression.not_ahead start (by decide) _

/-- A print statement. -/
theorem readable_print (ht : t.kind = .printKw) (h : Readable .expression u e)
    (hk : k.kind = .semicolon) : Readable (.statement false) (t :: (u ++ [k])) (.print e) := by
  intro n rest depth _
  simp only [List.length_cons, List.length_append] at depth
  cases n with
  | zero => omega
  | succ n =>
    refine Reads.take_some (by simp [statementKinds, ht]) ?_
    simp only [ht]
    exact reads_ended h hk (by omega)

/-- A return statement, with a value or without. -/
theorem readable_ret {o : Option Expr} (ht : t.kind = .returnKw) (h : Readable .optional u o)
    (hk : k.kind = .semicolon) : Readable (.statement false) (t :: (u ++ [k])) (.ret t o) := by
  intro n rest depth _
  simp only [List.length_cons, List.length_append] at depth
  cases n with
  | zero => omega
  | succ n =>
    refine Reads.take_some (by simp [statementKinds, ht]) ?_
    simp only [ht]
    exact .bind (h n _ .semicolon (by omega) (by decide) (ahead_cons.mpr (by simp [hk])))
      (.close hk)

/-- A block of declarations. -/
theorem readable_block {body : List Stmt} (ht : t.kind = .leftBrace)
    (h : Readable .declarations u body) (hk : k.kind = .rightBrace) :
    Readable (.statement false) (t :: (u ++ [k])) (.block body) := by
  intro n rest depth _
  simp only [List.length_cons, List.length_append] at depth
  cases n with
  | zero => omega
  | succ n =>
    refine Reads.take_some (by simp [statementKinds, ht]) ?_
    simp only [ht]
    exact .map (reads_block h hk (by omega))

/-- A loop with its condition. -/
theorem readable_loop (ht : t.kind = .whileKw) (hp : p.kind = .leftParen)
    (htest : Readable .expression u test) (hq : q.kind = .rightParen)
    (hbody : Readable (.statement isOpen) v body) :
    Readable (.statement isOpen) (t :: p :: (u ++ q :: v)) (.loop test body) := by
  intro n rest depth after
  simp only [List.length_cons, List.length_append] at depth
  cases n with
  | zero => omega
  | succ n =>
    refine Reads.take_some (by simp [statementKinds, ht]) ?_
    simp only [ht]
    refine .expect_discard hp (.bind (htest n _ (by omega) (not_ahead_cons hq (by decide))) ?_)
    exact .expect_discard hq (.last (hbody n rest (by omega) after))

/-- A condition without an `else`; what follows may not be one. -/
theorem readable_cond (ht : t.kind = .ifKw) (hp : p.kind = .leftParen)
    (htest : Readable .expression u test) (hq : q.kind = .rightParen)
    (hyes : Readable (.statement isOpen) v s) :
    Readable (.statement true) (t :: p :: (u ++ q :: v)) (.cond test s none) := by
  intro n rest depth after
  simp only [List.length_cons, List.length_append] at depth
  cases n with
  | zero => omega
  | succ n =>
    have noElse := after rfl
    refine Reads.take_some (by simp [statementKinds, ht]) ?_
    simp only [ht]
    refine .expect_discard hp (.bind (htest n _ (by omega) (not_ahead_cons hq (by decide))) ?_)
    refine .expect_discard hq ?_
    rw [← List.append_nil v]
    exact .bind (hyes n rest (by omega) fun _ => noElse) (.take_none noElse .pure)

/-- A condition with an `else`, which goes with the nearest `if`. -/
theorem readable_condElse {l : Token} {no : Stmt} (ht : t.kind = .ifKw) (hp : p.kind = .leftParen)
    (htest : Readable .expression u test) (hq : q.kind = .rightParen)
    (hyes : Readable (.statement false) v s) (hl : l.kind = .elseKw)
    (hno : Readable (.statement isOpen) w no) :
    Readable (.statement isOpen) (t :: p :: (u ++ q :: (v ++ l :: w)))
      (.cond test s (some no)) := by
  intro n rest depth after
  simp only [List.length_cons, List.length_append] at depth
  cases n with
  | zero => omega
  | succ n =>
    refine Reads.take_some (by simp [statementKinds, ht]) ?_
    simp only [ht]
    refine .expect_discard hp (.bind (htest n _ (by omega) (not_ahead_cons hq (by decide))) ?_)
    refine .expect_discard hq (.bind (hyes n _ (by omega) (by simp)) ?_)
    exact .take_some (by simp [hl]) (.last (hno n rest (by omega) after))

/-- A loop with its three parts, each of which may be left out. -/
theorem readable_forLoop {init : Option Stmt} {test step : Option Expr} (ht : t.kind = .forKw)
    (hp : p.kind = .leftParen) (hinit : Readable .forInit u init)
    (htest : Readable .optional v test) (hk : k.kind = .semicolon)
    (hstep : Readable .optional w step) (hq : q.kind = .rightParen)
    (hbody : Readable (.statement isOpen) x body) :
    Readable (.statement isOpen) (t :: p :: (u ++ (v ++ k :: (w ++ q :: x))))
      (desugarFor init test step body) := by
  intro n rest depth after
  simp only [List.length_cons, List.length_append] at depth
  cases n with
  | zero => omega
  | succ n =>
    have semicolon : Ahead [.semicolon] (k :: (w ++ q :: x) ++ rest) :=
      ahead_cons.mpr (by simp [hk])
    have closing : Ahead [.rightParen] (q :: x ++ rest) := ahead_cons.mpr (by simp [hq])
    refine Reads.take_some (by simp [statementKinds, ht]) ?_
    simp only [ht]
    refine .expect_discard hp (.bind (hinit n _ (by omega)) ?_)
    refine .bind (htest n _ _ (by omega) (by decide) semicolon) (.expect_discard hk ?_)
    refine .bind (hstep n _ _ (by omega) (by decide) closing) (.expect_discard hq ?_)
    exact .last (hbody n rest (by omega) after)

end Statements

/-! ### Declarations -/

section Declarations

variable {n : Nat} {u v w rest : List Token} {t q : Token} {s : Stmt}

/-- A parser that succeeds has nothing to recover from. -/
theorem Reads.recover {p : Parser α} {a : α} (h : Reads p u a rest) :
    Reads (Parser.recover p) u (some a) rest := by
  intro c hc
  rw [Parser.recover, h c hc]

/-- What starts no function with a name. -/
theorem Reads.areAt_false {k₁ k₂ : Token.Kind} {f : Bool → Parser β} {b : β}
    (h : ∀ t₁ t₂ r, u ++ rest = t₁ :: t₂ :: r → t₁.kind = k₁ → t₂.kind ≠ k₂)
    (hf : Reads (f false) u b rest) : Reads (areAt k₁ k₂ >>= f) u b rest := by
  rintro c rfl
  refine bind_ok.mpr ⟨false, _, areAt_ok.mpr ⟨?_, rfl⟩, hf c rfl⟩
  simp only [Bool.false_eq_true, false_iff, not_exists, not_and]
  exact h

/-- A statement is a declaration that declares nothing. -/
theorem readable_statement {isOpen : Bool} (start : Starting (.statement isOpen) u)
    (h : Readable (.statement isOpen) u s) : Readable .declaration u s := by
  intro n rest depth after
  have pos : 0 < u.length := by
    rcases start with start | start
    · exact start.length_pos
    · exact start.length_pos
  cases n with
  | zero => omega
  | succ n =>
    refine Reads.recover (.areAt_false ?_ (.take_none ?_ (h n rest (by omega) fun _ => after)))
    -- a statement that starts with `fun` goes on with a bracket, not with a name
    · intro t₁ t₂ r heq hfun
      rcases start with ⟨t, v, rfl, -, hparen⟩ | ⟨t, ht, hk⟩
      · obtain ⟨rfl, rest_eq⟩ := List.cons.inj heq
        obtain ⟨p, w, rfl, hp⟩ := hparen hfun
        obtain ⟨rfl, -⟩ := List.cons.inj rest_eq
        simp [hp]
      · cases u with
        | nil => cases ht
        | cons t' u =>
          cases ht
          obtain ⟨rfl, -⟩ := List.cons.inj heq
          rw [hfun] at hk
          simp [statementKinds] at hk
    · rcases start with start | start
      · exact start.not_ahead (by decide) rest
      · exact start.not_ahead (by decide) rest

/-- A declaration that is told by its keyword. -/
theorem reads_keyword (hne : t.kind ≠ .funKw) (ht : t.kind ∈ [Token.Kind.classKw, .varKw])
    (h : Reads (if t.kind = .classKw then classDeclaration (declarationAt n)
      else varDeclaration (expressionAt n)) u s rest) :
    Reads (declarationAt (n + 1)) (t :: u) (some s) rest := by
  refine Reads.recover (.areAt_false ?_ (.take_some ht h))
  intro t₁ t₂ r heq hfun
  obtain ⟨rfl, -⟩ := List.cons.inj heq
  exact absurd hfun hne

/-- A declaration of a variable. -/
theorem readable_var (ht : t.kind = .varKw) (h : Readable .varRest u s) :
    Readable .declaration (t :: u) s := by
  intro n rest depth _
  rw [List.length_cons] at depth
  cases n with
  | zero => omega
  | succ n =>
    refine reads_keyword (by simp [ht]) (by simp [ht]) ?_
    rw [if_neg (by simp [ht])]
    exact h n rest (by omega)

/-- A declaration of a class with its methods. -/
theorem readable_classDecl {c b d : Token} {superclass : Option Reference}
    {methods : List Function} (hc : c.kind = .classKw) (ht : t.kind = .identifier)
    (hsuper : Readable .superclass u superclass) (hb : b.kind = .leftBrace)
    (hmethods : Readable .methods v methods) (hd : d.kind = .rightBrace) :
    Readable .declaration (c :: t :: (u ++ b :: (v ++ [d]))) (.classDecl t superclass methods) := by
  intro n rest depth _
  simp only [List.length_cons, List.length_append] at depth
  cases n with
  | zero => omega
  | succ n =>
    refine reads_keyword (by simp [hc]) (by simp [hc]) ?_
    rw [if_pos hc]
    refine .expect ht (.bind (hsuper _ (ahead_cons.mpr (by simp [hb]))) (.expect_discard hb ?_))
    have loop := (hmethods n ([d] ++ rest) [] (by omega) (ahead_cons.mpr (by simp [hd]))).reads
    have read := Reads.last (g := List.reverse) loop
    rw [List.append_nil, List.reverse_reverse] at read
    exact .bind read (.close hd)

/-- A function with its name, its parameters and its body. -/
theorem readable_function {p b d : Token} {params : List Token} {body : List Stmt}
    (ht : t.kind = .identifier) (hp : p.kind = .leftParen) (hparams : Readable .params u params)
    (hq : q.kind = .rightParen) (hb : b.kind = .leftBrace) (hbody : Readable .declarations v body)
    (hd : d.kind = .rightBrace) :
    Readable .function (t :: p :: (u ++ q :: b :: (v ++ [d]))) { name := t, params, body } := by
  intro n rest owner depth
  simp only [List.length_cons, List.length_append] at depth
  refine .expect ht (.expect_discard hp ?_)
  rw [← List.append_nil (u ++ _)]
  exact .bind (reads_functionRest hparams hq hb hbody hd (by omega)) .pure

/-- A declaration of a function. -/
theorem readable_fun {decl : Function} (hf : t.kind = .funKw) (start : Starting .function u)
    (h : Readable .function u decl) : Readable .declaration (t :: u) (.function decl) := by
  intro n rest depth _
  rw [List.length_cons] at depth
  cases n with
  | zero => omega
  | succ n =>
    refine Reads.recover ?_
    intro c hc
    obtain ⟨name, hname, hk⟩ := start
    cases u with
    | nil => cases hname
    | cons t' u =>
      cases hname
      refine bind_ok.mpr ⟨true, _, areAt_ok.mpr ⟨?_, rfl⟩, ?_⟩
      · simp only [true_iff]
        exact ⟨_, _, _, rfl, hf, List.mem_singleton.mp hk⟩
      · refine discard_bind_ok.mpr ⟨some t, c.before (name :: u), ?_, ?_⟩
        · exact take?_ok.mpr (.inl ⟨t, by simp [hf], rfl, rfl⟩)
        · exact Reads.map (h n rest .function (by omega)) c hc

/-- The methods of a class, one after the other. -/
theorem readable_methods {f : Function} {methods : List Function} (start : Starting .function u)
    (first : Readable .function u f) (next : Readable .methods v methods) :
    Readable .methods (u ++ v) (f :: methods) := by
  intro n rest before depth closing
  rw [List.length_append] at depth
  have more := next n rest (f :: before) (by omega) closing
  rw [List.reverse_cons, List.append_assoc]
  obtain ⟨name, hname, hk⟩ := start
  cases u with
  | nil => cases hname
  | cons t u =>
    cases hname
    refine LoopReads.step (.isAt_false ?_ (.atEnd ?_)) (by simp) more
    · exact not_ahead_cons (List.mem_singleton.mp hk) (by decide)
    · exact .last (first n _ .method (by omega))

/-- A superclass clause, with either of the tokens for it. -/
theorem readable_someSuperclass {k : Token} (hk : k.kind ∈ [Token.Kind.less, .colon])
    (ht : t.kind = .identifier) : Readable .superclass [k, t] (some { name := t }) :=
  fun _ _ => .take_some hk (.expect ht .pure)

/-- Declarations, one after the other. -/
theorem readable_declarations {body : List Stmt} (start : Starting .declaration u)
    (hv : Derivation .declarations v body) (first : Readable .declaration u s)
    (next : Readable .declarations v body) : Readable .declarations (u ++ v) (s :: body) := by
  intro n rest step before depth after hstep
  rw [List.length_append] at depth
  have noElse : ¬ Ahead [.elseKw] (v ++ rest) := by
    cases hv with
    | noDeclarations => exact after
    | declarations hu =>
      rw [List.append_assoc]
      exact hu.starting.not_ahead (by decide) _
  rw [List.reverse_cons, List.append_assoc]
  exact LoopReads.step (hstep.go start (first n _ (by omega) noElse)) start.length_pos
    (next n rest step (s :: before) (by omega) after hstep)

end Declarations

/-- What has a derivation is read. -/
theorem Derivation.readable {c : Category} {u : List Token} {a : c.Tree} (h : Derivation c u a) :
    Readable c u a := by
  -- on the derivation: each case puts together what was read for its parts
  induction h with
  | assign ht hq _ ih => exact readable_assign ht hq ih
  | set hu hd ht hq _ ihu ih => exact readable_set hu.starting ihu hd ht hq ih
  | value hu ih => exact readable_value hu.starting ih
  | operand nonempty _ hw ihu ihw => exact readable_operand nonempty hw ihu ihw
  | chainEnd =>
    intro n rest _ after
    exact .stop (.take_none (fun ahead => after (ahead.mono (Level.operators_subset _))) .pure)
  | chainStep hop _ hw ihv ihw => exact readable_chainStep hop hw ihv ihw
  | unary hop _ ih => exact readable_unary hop ih
  | plain hu ih => exact readable_plain hu.starting ih
  | callee hu _ ihu ihw => exact readable_callee hu.starting ihu ihw
  | suffixEnd => exact fun n v e' rest _ more => more
  | call hp _ hq _ ihv ihw => exact readable_call hp ihv hq ihw
  | get hd ht _ ih => exact readable_get hd ht ih
  | atom ha => exact readable_atom ha
  | super hs hd ht => exact readable_super hs hd ht
  | group hp _ hq ih => exact readable_group hp ih hq
  | lambda hf hp _ hq hb _ hd ihu ihv => exact readable_lambda hf hp ihu hq hb ihv hd
  | noArguments => exact fun _ _ _ closing => reads_separated_nil closing
  | arguments hu hw ihu ihw => exact readable_arguments hu.starting hw ihu ihw
  | argumentsEnd =>
    exact fun _ _ _ _ closing => .stop (reads_commaStep_none (closing.apart (by decide)))
  | argument hk _ hw ihu ihw => exact readable_argument hk hw ihu ihw
  | noParams => exact fun _ closing => reads_separated_nil closing
  | params ht _ ih => exact readable_params ht ih
  | paramsEnd =>
    exact fun _ _ closing => .stop (reads_commaStep_none (closing.apart (by decide)))
  | param hk ht _ ih => exact readable_param hk ht ih
  | noExpression => exact fun _ _ _ _ _ closing => .isAt_true closing .pure
  | someExpression hu ih => exact readable_someExpression hu.starting ih
  | varNone ht hk => exact readable_varNone ht hk
  | varSome ht hq _ hk ih => exact readable_varSome ht hq ih hk
  | noInit hk =>
    refine fun _ _ _ => .take_some (by simp [hk]) ?_
    simp only [hk, if_true]
    exact .pure
  | varInit hk _ ih => exact readable_varInit hk ih
  | exprInit hu hk ih => exact readable_exprInit hu.starting ih hk
  | expr hu hk ih => exact readable_expr hu.starting ih hk
  | print hp _ hk ih => exact readable_print hp ih hk
  | ret hr _ hk ih => exact readable_ret hr ih hk
  | block hb _ hd ih => exact readable_block hb ih hd
  | loop hw hp _ hq _ ihu ihv => exact readable_loop hw hp ihu hq ihv
  | cond hi hp _ hq _ ihu ihv => exact readable_cond hi hp ihu hq ihv
  | condElse hi hp _ hq _ hl _ ihu ihv ihw => exact readable_condElse hi hp ihu hq ihv hl ihw
  | forLoop hf hp _ _ hk _ hq _ ihu ihv ihw ihx =>
    exact readable_forLoop hf hp ihu ihv hk ihw hq ihx
  | statement hu ih => exact readable_statement hu.starting ih
  | var hv _ ih => exact readable_var hv ih
  | «fun» hf hu ih => exact readable_fun hf hu.starting ih
  | classDecl hc ht _ hb _ hd ihu ihv => exact readable_classDecl hc ht ihu hb ihv hd
  | noDeclarations => exact fun _ _ _ _ _ _ hstep => .stop (hstep.stop _)
  | declarations hu hv ihu ihv => exact readable_declarations hu.starting hv ihu ihv
  | function ht hp _ hq hb _ hd ihu ihv => exact readable_function ht hp ihu hq hb ihv hd
  | noMethods => exact fun _ _ _ _ closing => .stop (.isAt_true closing (.atEnd .pure))
  | methods hu _ ihu ihv => exact readable_methods hu.starting ihu ihv
  | noSuperclass => exact fun _ opening => .take_none (opening.apart (by decide)) .pure
  | someSuperclass hk ht => exact readable_someSuperclass hk ht

/-! ### Programs -/

/-- At the top level a round reads a declaration and ends where the tokens end. -/
theorem bodyStep_topLevel {declaration : Parser (Option Stmt)} :
    BodyStep declaration (fun body => do
      if ← atEnd then return none
      else return some ((← declaration).toList ++ body)) [] where
  stop body := .atEnd .pure
  go {u s after body} start hread := by
    have nonempty : (u ++ after).isEmpty = false := by
      have pos := start.length_pos
      cases u with
      | nil => cases pos
      | cons t u => rfl
    refine .atEnd ?_
    simp only [nonempty, Bool.false_eq_true, if_false]
    exact .last hread

/-- Declarations that make up the whole text are read, all of them. -/
theorem Derivation.reads_topLevel {u : List Token} {body : List Stmt} {n : Nat}
    (h : Derivation .declarations u body) (depth : 3 * u.length ≤ n) :
    Reads (topLevel n) u body [] := by
  have loop := (h.readable n [] _ [] depth ahead_nil bodyStep_topLevel).reads
  have read := Reads.last (g := List.reverse) loop
  rwa [List.append_nil, List.reverse_reverse] at read

end Lox.Grammar
