import Lox.Proofs.Grammar.Form
import Lox.Proofs.Grammar.Derivation

/-!
The grammar and the derivations agree: tokens are of a form exactly when they are read as some tree.
The forms are ambiguous where an `else` comes after two `if`s. A derivation gives it to the last of
them, and what the first reading took for its own is taken up inside the other.
-/

namespace Lox.Grammar

open Form

/-! ### From forms to derivations -/

/-- The tokens are of the form when the symbols in it stand for the given sets of tokens. -/
def Form.Holds (meaning : Symbol → List Token → Prop) : Form → List Token → Prop
  | .token kinds, u => ∃ t, u = [t] ∧ t.kind ∈ kinds
  | .symbol s, u => meaning s u
  | .seq a b, u => ∃ v w, u = v ++ w ∧ Holds meaning a v ∧ Holds meaning b w
  | .either a b, u => Holds meaning a u ∨ Holds meaning b u
  | .optional a, u => u = [] ∨ Holds meaning a u
  | .many a, u => ∃ parts : List (List Token), u = parts.flatten ∧ ∀ v ∈ parts, Holds meaning a v

/-- What the forms derive is in every meaning that is closed under them. -/
theorem Derives.holds {meaning : Symbol → List Token → Prop}
    (closed : ∀ s u, s.form.Holds meaning u → meaning s u) {f : Form} {u : List Token}
    (h : Derives f u) : f.Holds meaning u := by
  induction h with
  | token h => exact ⟨_, rfl, h⟩
  | symbol _ ih => exact closed _ _ ih
  | seq _ _ iha ihb => exact ⟨_, _, rfl, iha, ihb⟩
  | left _ ih => exact .inl ih
  | right _ ih => exact .inr ih
  | none => exact .inl rfl
  | some _ ih => exact .inr ih
  | nil => exact ⟨[], rfl, by simp⟩
  | cons _ _ ih ihs =>
    obtain ⟨parts, rfl, hparts⟩ := ihs
    refine ⟨_ :: parts, rfl, ?_⟩
    rintro v (_ | ⟨_, hv⟩)
    · exact ih
    · exact hparts v hv

/-- The tokens are read as something of the category. -/
def Read (c : Category) (u : List Token) : Prop := ∃ a, Derivation c u a

/-- A statement, whether or not it is open. -/
def ReadStatement (u : List Token) : Prop := ∃ isOpen, Read (.statement isOpen) u

/-- What the derivations make of each category of the grammar. -/
def Symbol.Means : Symbol → List Token → Prop
  | program, u => ∃ v t, u = v ++ [t] ∧ Read .declarations v ∧ t.kind = .eof
  | declaration, u | classDecl, u => Read .declaration u
  | method, u => Read .function u
  | params, u => Read .params u
  | varDecl, u => ∃ t v, u = t :: v ∧ t.kind = .varKw ∧ Read .varRest v
  | block, u => ∃ b v d, u = b :: (v ++ [d]) ∧ b.kind = .leftBrace ∧ Read .declarations v ∧
      d.kind = .rightBrace
  | statement, u | forStmt, u | ifStmt, u | printStmt, u | returnStmt, u | whileStmt, u =>
    ReadStatement u
  | expression, u => Read .expression u
  | disjunction, u => Read (.level .disjunction) u
  | conjunction, u => Read (.level .conjunction) u
  | equality, u => Read (.level .equality) u
  | comparison, u => Read (.level .comparison) u
  | term, u => Read (.level .term) u
  | factor, u => Read (.level .factor) u
  | unary, u => Read (.level .unary) u
  | call, u => Read (.level .call) u
  | primary, u => Read (.level .primary) u
  | arguments, u => Read .arguments u

/-- An open statement takes an `else` after it for its own. -/
theorem Derivation.absorb {v w : List Token} {s : Stmt} {l : Token} (hl : l.kind = .elseKw)
    (hw : ReadStatement w) : Derivation (.statement true) v s → ReadStatement (v ++ l :: w)
  | .loop ht hp hu hq hv => by
    obtain ⟨isOpen, s', h⟩ := Derivation.absorb hl hw hv
    exact ⟨isOpen, _, by simpa using Derivation.loop ht hp hu hq h⟩
  | @Derivation.cond _ _ _ _ _ _ _ false hi hp hu hq hv => by
    obtain ⟨isOpen, no, hno⟩ := hw
    exact ⟨isOpen, _, by simpa using Derivation.condElse hi hp hu hq hv hl hno⟩
  | @Derivation.cond _ _ _ _ _ _ _ true hi hp hu hq hv => by
    obtain ⟨isOpen, s', h⟩ := Derivation.absorb hl hw hv
    exact ⟨true, _, by simpa using Derivation.cond hi hp hu hq h⟩
  | .condElse hi hp hu hq hv hl' hno => by
    obtain ⟨isOpen, s', h⟩ := Derivation.absorb hl hw hno
    exact ⟨isOpen, _, by simpa using Derivation.condElse hi hp hu hq hv hl' h⟩
  | .forLoop hf hp hu hv hk hx hq hs => by
    obtain ⟨isOpen, s', h⟩ := Derivation.absorb hl hw hs
    exact ⟨isOpen, _, by simpa using Derivation.forLoop hf hp hu hv hk hx hq h⟩
termination_by v.length
decreasing_by all_goals simp only [List.length_cons, List.length_append]; omega

section Closed

variable {u : List Token}

/-- A chain of operands is read from the left. -/
theorem read_chain {l : Level} (operand : Symbol) (nonempty : l.operators ≠ [])
    (inner : ∀ v, operand.Means v → Read (.level l.inner) v)
    (h : (chain l.operators operand).Holds Symbol.Means u) : Read (.level l) u := by
  obtain ⟨v, w, rfl, hv, parts, rfl, hparts⟩ := h
  obtain ⟨a, ha⟩ := inner v hv
  suffices next : ∃ e, Derivation (.chain l) parts.flatten (a, e) by
    obtain ⟨e, he⟩ := next
    exact ⟨e, .operand nonempty ha he⟩
  clear ha
  induction parts generalizing a with
  | nil => exact ⟨a, .chainEnd⟩
  | cons part parts ih =>
    obtain ⟨_, x, rfl, ⟨op, rfl, hop⟩, hx⟩ := hparts part List.mem_cons_self
    obtain ⟨b, hb⟩ := inner x hx
    obtain ⟨e, he⟩ := ih (fun v hv => hparts v (List.mem_cons_of_mem _ hv)) (l.join op a b)
    exact ⟨e, by simpa using Derivation.chainStep hop hb he⟩

/-- What the grammar calls a call can be read as one. -/
theorem read_call (h : Symbol.call.form.Holds Symbol.Means u) : Read (.level .call) u := by
  obtain ⟨v, w, rfl, ⟨a, ha⟩, parts, rfl, hparts⟩ := h
  suffices next : ∃ e, Derivation .suffixes parts.flatten (a, e) by
    obtain ⟨e, he⟩ := next
    exact ⟨e, .callee ha he⟩
  clear ha
  induction parts generalizing a with
  | nil => exact ⟨a, .suffixEnd⟩
  | cons part parts ih =>
    have more := fun a => ih a fun v hv => hparts v (List.mem_cons_of_mem _ hv)
    rcases hparts part List.mem_cons_self with
      ⟨_, _, rfl, ⟨_, _, rfl, ⟨p, rfl, hp⟩, ⟨args, hargs⟩⟩, ⟨q, rfl, hq⟩⟩ |
      ⟨_, _, rfl, ⟨d, rfl, hd⟩, ⟨t, rfl, ht⟩⟩
    · have hp := List.mem_singleton.mp hp
      have hq := List.mem_singleton.mp hq
      obtain ⟨e, he⟩ := more (.call a q args)
      exact ⟨e, by simpa using Derivation.call hp hargs hq he⟩
    · obtain ⟨e, he⟩ := more (.get a t)
      exact ⟨e, .get (List.mem_singleton.mp hd) (List.mem_singleton.mp ht) he⟩

/-- What the grammar calls arguments can be read as such. -/
theorem read_arguments (h : Symbol.arguments.form.Holds Symbol.Means u) : Read .arguments u := by
  rcases h with rfl | ⟨v, w, rfl, ⟨e, he⟩, parts, rfl, hparts⟩
  · exact ⟨[], .noArguments⟩
  suffices next : Read .moreArguments parts.flatten by
    obtain ⟨rest, hrest⟩ := next
    exact ⟨e :: rest, .arguments he hrest⟩
  clear he
  induction parts with
  | nil => exact ⟨[], .argumentsEnd⟩
  | cons part parts ih =>
    obtain ⟨_, x, rfl, ⟨k, rfl, hk⟩, ⟨e', he'⟩⟩ := hparts part List.mem_cons_self
    obtain ⟨rest, hrest⟩ := ih fun v hv => hparts v (List.mem_cons_of_mem _ hv)
    exact ⟨e' :: rest, by simpa using Derivation.argument (List.mem_singleton.mp hk) he' hrest⟩

/-- What the grammar calls parameters can be read as such. -/
theorem read_params (h : Symbol.params.form.Holds Symbol.Means u) : Read .params u := by
  rcases h with rfl | ⟨_, w, rfl, ⟨t, rfl, ht⟩, parts, rfl, hparts⟩
  · exact ⟨[], .noParams⟩
  suffices next : Read .moreParams parts.flatten by
    obtain ⟨rest, hrest⟩ := next
    exact ⟨t :: rest, .params (List.mem_singleton.mp ht) hrest⟩
  induction parts with
  | nil => exact ⟨[], .paramsEnd⟩
  | cons part parts ih =>
    obtain ⟨_, _, rfl, ⟨k, rfl, hk⟩, ⟨t', rfl, ht'⟩⟩ := hparts part List.mem_cons_self
    obtain ⟨rest, hrest⟩ := ih fun v hv => hparts v (List.mem_cons_of_mem _ hv)
    exact ⟨t' :: rest, .param (List.mem_singleton.mp hk) (List.mem_singleton.mp ht') hrest⟩

/-- Declarations in any number can be read one after the other. -/
theorem read_declarations (h : (many Symbol.declaration).Holds Symbol.Means u) :
    Read .declarations u := by
  obtain ⟨parts, rfl, hparts⟩ := h
  induction parts with
  | nil => exact ⟨[], .noDeclarations⟩
  | cons part parts ih =>
    obtain ⟨s, hs⟩ := hparts part List.mem_cons_self
    obtain ⟨rest, hrest⟩ := ih fun v hv => hparts v (List.mem_cons_of_mem _ hv)
    exact ⟨s :: rest, .declarations hs hrest⟩

/-- Methods in any number can be read one after the other. -/
theorem read_methods (h : (many Symbol.method).Holds Symbol.Means u) : Read .methods u := by
  obtain ⟨parts, rfl, hparts⟩ := h
  induction parts with
  | nil => exact ⟨[], .noMethods⟩
  | cons part parts ih =>
    obtain ⟨f, hf⟩ := hparts part List.mem_cons_self
    obtain ⟨rest, hrest⟩ := ih fun v hv => hparts v (List.mem_cons_of_mem _ hv)
    exact ⟨f :: rest, .methods hf hrest⟩

theorem read_optional (h : (optional Symbol.expression).Holds Symbol.Means u) :
    Read .optional u := by
  rcases h with rfl | ⟨e, he⟩
  · exact ⟨none, .noExpression⟩
  · exact ⟨some e, .someExpression he⟩

/-- What the grammar calls an expression can be read as one. -/
theorem read_expression (h : Symbol.expression.form.Holds Symbol.Means u) :
    Read .expression u := by
  rcases h with ⟨_, v, rfl, ⟨_, _, rfl, ⟨x, _, rfl, hx, t, rfl, ht⟩, q, rfl, hq⟩, value, hv⟩ |
    ⟨e, he⟩
  · have ht := List.mem_singleton.mp ht
    have hq := List.mem_singleton.mp hq
    rcases hx with rfl | ⟨w, _, rfl, ⟨object, hobject⟩, d, rfl, hd⟩
    · exact ⟨_, .assign ht hq hv⟩
    · exact ⟨_, by simpa using Derivation.set hobject (List.mem_singleton.mp hd) ht hq hv⟩
  · exact ⟨e, .value he⟩

/-- What the grammar calls a primary expression can be read as one. -/
theorem read_primary (h : Symbol.primary.form.Holds Symbol.Means u) : Read (.level .primary) u := by
  -- the alternatives of the rule, in order
  rcases h with ⟨t, rfl, ht⟩ | ⟨_, _, rfl, ⟨_, _, rfl, ⟨s, rfl, hs⟩, d, rfl, hd⟩, t, rfl, ht⟩ |
    ⟨_, _, rfl, ⟨_, v, rfl, ⟨p, rfl, hp⟩, e, he⟩, q, rfl, hq⟩ |
    ⟨_, _, rfl, ⟨_, _, rfl, ⟨_, v, rfl, ⟨_, _, rfl, ⟨f, rfl, hf⟩, p, rfl, hp⟩, params, hparams⟩,
      q, rfl, hq⟩, b, w, d, rfl, hb, ⟨body, hbody⟩, hd⟩
  · have atom : ∃ e, Atom t e := by
      simp only [List.mem_cons, List.not_mem_nil, or_false] at ht
      rcases ht with h | h | h | h | h | h | h
      · exact ⟨_, .falseKw h⟩
      · exact ⟨_, .trueKw h⟩
      · exact ⟨_, .nilKw h⟩
      · exact ⟨_, .number h⟩
      · exact ⟨_, .string h⟩
      · exact ⟨_, .thisKw h⟩
      · exact ⟨_, .identifier h⟩
    obtain ⟨e, he⟩ := atom
    exact ⟨e, .atom he⟩
  · exact ⟨_, .super (List.mem_singleton.mp hs) (List.mem_singleton.mp hd)
      (List.mem_singleton.mp ht)⟩
  · exact ⟨_, .group (List.mem_singleton.mp hp) he (List.mem_singleton.mp hq)⟩
  · have hf := List.mem_singleton.mp hf
    have hp := List.mem_singleton.mp hp
    have hq := List.mem_singleton.mp hq
    exact ⟨_, by simpa using Derivation.lambda hf hp hparams hq hb hbody hd⟩

/-- What the grammar calls a variable declaration is one. -/
theorem means_varDecl (h : Symbol.varDecl.form.Holds Symbol.Means u) : Symbol.varDecl.Means u := by
  obtain ⟨_, _, rfl, ⟨_, x, rfl, ⟨_, _, rfl, ⟨v, rfl, hv⟩, t, rfl, ht⟩, hx⟩, k, rfl, hk⟩ := h
  have ht := List.mem_singleton.mp ht
  have hk := List.mem_singleton.mp hk
  rcases hx with rfl | ⟨_, w, rfl, ⟨q, rfl, hq⟩, e, he⟩
  · exact ⟨v, [t, k], rfl, List.mem_singleton.mp hv, _, .varNone ht hk⟩
  · exact ⟨v, t :: q :: (w ++ [k]), by simp, List.mem_singleton.mp hv, _,
      .varSome ht (List.mem_singleton.mp hq) he hk⟩

/-- What the grammar calls a condition can be read as one; an `else` goes with the nearest `if`. -/
theorem read_ifStmt (h : Symbol.ifStmt.form.Holds Symbol.Means u) : ReadStatement u := by
  obtain ⟨_, x, rfl, ⟨_, v, rfl, ⟨_, _, rfl, ⟨_, w, rfl, ⟨_, _, rfl, ⟨i, rfl, hi⟩, p, rfl, hp⟩,
    test, htest⟩, q, rfl, hq⟩, isOpen, yes, hyes⟩, hx⟩ := h
  have hi := List.mem_singleton.mp hi
  have hp := List.mem_singleton.mp hp
  have hq := List.mem_singleton.mp hq
  rcases hx with rfl | ⟨_, y, rfl, ⟨l, rfl, hl⟩, hno⟩
  · exact ⟨true, _, by simpa using Derivation.cond hi hp htest hq hyes⟩
  · have hl := List.mem_singleton.mp hl
    cases isOpen with
    | false =>
      obtain ⟨isOpen, no, hno⟩ := hno
      exact ⟨isOpen, _, by simpa using Derivation.condElse hi hp htest hq hyes hl hno⟩
    | true =>
      -- The `else` belongs to the branch, so this `if` has none.
      obtain ⟨isOpen, yes', hyes'⟩ := Derivation.absorb hl hno hyes
      exact ⟨true, _, by simpa using Derivation.cond hi hp htest hq hyes'⟩

/-- What the grammar calls a `for` loop can be read as one. -/
theorem read_forStmt (h : Symbol.forStmt.form.Holds Symbol.Means u) : ReadStatement u := by
  obtain ⟨_, x, rfl, ⟨_, _, rfl, ⟨_, w, rfl, ⟨_, _, rfl, ⟨_, v, rfl, ⟨_, init, rfl,
    ⟨_, _, rfl, ⟨f, rfl, hf⟩, p, rfl, hp⟩, hinit⟩, htest⟩, k, rfl, hk⟩, hstep⟩, q, rfl, hq⟩,
    isOpen, body, hbody⟩ := h
  have first : Read .forInit init := by
    rcases hinit with ⟨k, rfl, hk⟩ | ⟨t, r, rfl, ht, s, hs⟩ | ⟨r, _, rfl, ⟨e, he⟩, k, rfl, hk⟩
    · exact ⟨none, .noInit (List.mem_singleton.mp hk)⟩
    · exact ⟨some s, .varInit ht hs⟩
    · exact ⟨some (.expr e), .exprInit he (List.mem_singleton.mp hk)⟩
  obtain ⟨i, hi⟩ := first
  obtain ⟨test, htest⟩ := read_optional htest
  obtain ⟨step, hstep⟩ := read_optional hstep
  have hf := List.mem_singleton.mp hf
  have hp := List.mem_singleton.mp hp
  have hk := List.mem_singleton.mp hk
  have hq := List.mem_singleton.mp hq
  exact ⟨isOpen, _, by simpa using Derivation.forLoop hf hp hi htest hk hstep hq hbody⟩

/-- What the grammar calls a class can be read as one. -/
theorem read_classDecl (h : Symbol.classDecl.form.Holds Symbol.Means u) :
    Read .declaration u := by
  obtain ⟨_, _, rfl, ⟨_, w, rfl, ⟨_, _, rfl, ⟨_, v, rfl, ⟨_, _, rfl, ⟨c, rfl, hc⟩, t, rfl, ht⟩,
    hv⟩, b, rfl, hb⟩, hw⟩, d, rfl, hd⟩ := h
  have superclass : Read .superclass v := by
    rcases hv with rfl | ⟨_, _, rfl, ⟨k, rfl, hk⟩, n, rfl, hn⟩
    · exact ⟨none, .noSuperclass⟩
    · exact ⟨_, .someSuperclass hk (List.mem_singleton.mp hn)⟩
  obtain ⟨o, ho⟩ := superclass
  obtain ⟨methods, hmethods⟩ := read_methods hw
  have hc := List.mem_singleton.mp hc
  have ht := List.mem_singleton.mp ht
  have hb := List.mem_singleton.mp hb
  have hd := List.mem_singleton.mp hd
  exact ⟨_, by simpa using Derivation.classDecl hc ht ho hb hmethods hd⟩

/-- What the grammar calls a method can be read as a function. -/
theorem read_method (h : Symbol.method.form.Holds Symbol.Means u) : Read .function u := by
  obtain ⟨_, _, rfl, ⟨_, _, rfl, ⟨_, v, rfl, ⟨_, _, rfl, ⟨t, rfl, ht⟩, p, rfl, hp⟩, params,
    hparams⟩, q, rfl, hq⟩, b, w, d, rfl, hb, ⟨body, hbody⟩, hd⟩ := h
  have ht := List.mem_singleton.mp ht
  have hp := List.mem_singleton.mp hp
  have hq := List.mem_singleton.mp hq
  exact ⟨_, by simpa using Derivation.function ht hp hparams hq hb hbody hd⟩

/-- What the grammar calls a declaration can be read as one. -/
theorem read_declaration (h : Symbol.declaration.form.Holds Symbol.Means u) :
    Read .declaration u := by
  rcases h with h | ⟨_, _, rfl, ⟨_, _, rfl, ⟨_, v, rfl, ⟨_, _, rfl, ⟨_, _, rfl, ⟨f, rfl, hf⟩,
    t, rfl, ht⟩, p, rfl, hp⟩, params, hparams⟩, q, rfl, hq⟩, b, w, d, rfl, hb, ⟨body, hbody⟩, hd⟩ |
    ⟨t, v, rfl, ht, s, hs⟩ | ⟨isOpen, s, hs⟩
  · exact h
  · have hf := List.mem_singleton.mp hf
    have ht := List.mem_singleton.mp ht
    have hp := List.mem_singleton.mp hp
    have hq := List.mem_singleton.mp hq
    exact ⟨_, by simpa using Derivation.fun hf (.function ht hp hparams hq hb hbody hd)⟩
  · exact ⟨s, .var ht hs⟩
  · exact ⟨s, .statement hs⟩

/-- What the grammar calls a statement can be read as one. -/
theorem read_statement (h : Symbol.statement.form.Holds Symbol.Means u) : ReadStatement u := by
  rcases h with h | h | h | h | h | ⟨b, v, d, rfl, hb, ⟨body, hbody⟩, hd⟩ |
    ⟨v, _, rfl, ⟨e, he⟩, k, rfl, hk⟩
  · exact h
  · exact h
  · exact h
  · exact h
  · exact h
  · exact ⟨false, _, .block hb hbody hd⟩
  · exact ⟨false, _, .expr he (List.mem_singleton.mp hk)⟩

theorem read_whileStmt (h : Symbol.whileStmt.form.Holds Symbol.Means u) : ReadStatement u := by
  obtain ⟨_, v, rfl, ⟨_, _, rfl, ⟨_, w, rfl, ⟨_, _, rfl, ⟨t, rfl, ht⟩, p, rfl, hp⟩,
    test, htest⟩, q, rfl, hq⟩, isOpen, body, hbody⟩ := h
  have ht := List.mem_singleton.mp ht
  have hp := List.mem_singleton.mp hp
  have hq := List.mem_singleton.mp hq
  exact ⟨isOpen, _, by simpa using Derivation.loop ht hp htest hq hbody⟩

theorem read_printStmt (h : Symbol.printStmt.form.Holds Symbol.Means u) : ReadStatement u := by
  obtain ⟨_, _, rfl, ⟨_, v, rfl, ⟨p, rfl, hp⟩, e, he⟩, k, rfl, hk⟩ := h
  exact ⟨false, _, .print (List.mem_singleton.mp hp) he (List.mem_singleton.mp hk)⟩

theorem read_returnStmt (h : Symbol.returnStmt.form.Holds Symbol.Means u) : ReadStatement u := by
  obtain ⟨_, _, rfl, ⟨_, v, rfl, ⟨r, rfl, hr⟩, hvalue⟩, k, rfl, hk⟩ := h
  obtain ⟨value, hvalue⟩ := read_optional hvalue
  exact ⟨false, _, .ret (List.mem_singleton.mp hr) hvalue (List.mem_singleton.mp hk)⟩

/-- What the grammar calls a unary expression can be read as one. -/
theorem read_unary (h : Symbol.unary.form.Holds Symbol.Means u) : Read (.level .unary) u := by
  rcases h with ⟨_, v, rfl, ⟨op, rfl, hop⟩, e, he⟩ | ⟨e, he⟩
  · exact ⟨_, .unary hop he⟩
  · exact ⟨e, .plain he⟩

/-- What the grammar calls a block is one. -/
theorem means_block (h : Symbol.block.form.Holds Symbol.Means u) : Symbol.block.Means u := by
  obtain ⟨_, _, rfl, ⟨_, v, rfl, ⟨b, rfl, hb⟩, hbody⟩, d, rfl, hd⟩ := h
  exact ⟨b, v, d, rfl, List.mem_singleton.mp hb, read_declarations hbody,
    List.mem_singleton.mp hd⟩

/-- What the grammar calls a program is one. -/
theorem means_program (h : Symbol.program.form.Holds Symbol.Means u) : Symbol.program.Means u := by
  obtain ⟨v, _, rfl, hv, t, rfl, ht⟩ := h
  exact ⟨v, t, rfl, read_declarations hv, List.mem_singleton.mp ht⟩

/-- The derivations are closed under the grammar. -/
theorem Symbol.means_of_holds (s : Symbol) (u : List Token) (h : s.form.Holds Symbol.Means u) :
    s.Means u := by
  -- one case for each symbol of the grammar
  cases s with
  | program => exact means_program h
  | declaration => exact read_declaration h
  | classDecl => exact read_classDecl h
  | method => exact read_method h
  | params => exact read_params h
  | varDecl => exact means_varDecl h
  | block => exact means_block h
  | statement => exact read_statement h
  | forStmt => exact read_forStmt h
  | ifStmt => exact read_ifStmt h
  | printStmt => exact read_printStmt h
  | returnStmt => exact read_returnStmt h
  | whileStmt => exact read_whileStmt h
  | expression => exact read_expression h
  | disjunction => exact read_chain .conjunction (by decide) (fun _ => id) h
  | conjunction => exact read_chain .equality (by decide) (fun _ => id) h
  | equality => exact read_chain .comparison (by decide) (fun _ => id) h
  | comparison => exact read_chain .term (by decide) (fun _ => id) h
  | term => exact read_chain .factor (by decide) (fun _ => id) h
  | factor => exact read_chain .unary (by decide) (fun _ => id) h
  | unary => exact read_unary h
  | call => exact read_call h
  | primary => exact read_primary h
  | arguments => exact read_arguments h

end Closed

/-- What the grammar derives is read. -/
theorem Derives.read {s : Symbol} {u : List Token} (h : Derives s u) : s.Means u :=
  h.holds Symbol.means_of_holds

/-! ### From derivations to forms -/

/-- The category of the grammar that a level is. -/
def Level.symbol : Level → Symbol
  | disjunction => .disjunction
  | conjunction => .conjunction
  | equality => .equality
  | comparison => .comparison
  | term => .term
  | factor => .factor
  | unary => .unary
  | call => .call
  | primary => .primary

/-- What the grammar makes of the tokens of each category. -/
def Category.Formed : Category → List Token → Prop
  | expression, u => Derives Symbol.expression u
  | level l, u => Derives l.symbol u
  | chain l, u => Derives (many (token l.operators ++ l.inner.symbol)) u
  | suffixes, u =>
    Derives (many (either (kind .leftParen ++ Symbol.arguments ++ kind .rightParen)
      (kind .dot ++ kind .identifier))) u
  | arguments, u => Derives Symbol.arguments u
  | moreArguments, u => Derives (many (kind .comma ++ Symbol.expression)) u
  | params, u => Derives Symbol.params u
  | moreParams, u => Derives (many (kind .comma ++ kind .identifier)) u
  | optional, u => Derives (.optional Symbol.expression) u
  | varRest, u => ∀ t, t.kind = .varKw → Derives Symbol.varDecl (t :: u)
  | forInit, u =>
    Derives (either (kind .semicolon) (either Symbol.varDecl
      (Symbol.expression ++ kind .semicolon))) u
  | statement _, u => Derives Symbol.statement u
  | declaration, u => Derives Symbol.declaration u
  | declarations, u => Derives (many Symbol.declaration) u
  | function, u =>
    Derives Symbol.method u ∧ ∀ t, t.kind = .funKw → Derives Symbol.declaration (t :: u)
  | methods, u => Derives (many Symbol.method) u
  | superclass, u => Derives (.optional (token [.less, .colon] ++ kind .identifier)) u

section Formed

variable {k : Token.Kind} {t : Token} {u v w x : List Token} {a b : Form}

theorem Derives.kind (h : t.kind = k) : Derives (kind k) [t] := .token (by simp [h])

theorem Derives.of_eq (h : Derives a u) (heq : u = v) : Derives a v := heq ▸ h

/-- What is derived from two symbols is derived from both in turn. -/
theorem Derives.append (ha : Derives a u) (hb : Derives b v) : Derives (a ++ b) (u ++ v) :=
  .seq ha hb

/-- A level is an operand, and more of them behind operators. -/
theorem Derives.level {l : Level} (nonempty : l.operators ≠ []) (hu : Derives l.inner.symbol u)
    (hw : Derives (many (.token l.operators ++ l.inner.symbol)) w) : Derives l.symbol (u ++ w) := by
  cases l with
  | unary | call | primary => exact absurd rfl nonempty
  | _ => exact .symbol (hu.append hw)

/-- A block is its declarations in braces. -/
theorem Derives.braces {o c : Token} (ho : o.kind = .leftBrace)
    (h : Derives (many Symbol.declaration) u) (hc : c.kind = .rightBrace) :
    Derives Symbol.block (o :: (u ++ [c])) :=
  .symbol (((kind ho).append h).append (kind hc))

end Formed

/-- What has a derivation is of a form of the grammar. -/
theorem Derivation.formed {c : Category} {u : List Token} {a : c.Tree} (h : Derivation c u a) :
    c.Formed u := by
  -- each way to derive a tree is a way through the rule of its symbol
  induction h with
  | assign ht hq _ ih =>
    exact .symbol (.left (((Derives.append .none (.kind ht)).append (.kind hq)).append ih))
  | set _ hd ht hq _ ihu ihv =>
    have target := (Derives.some (ihu.append (.kind hd))).append (.kind ht)
    have all := (target.append (.kind hq)).append ihv
    exact .symbol (.left (all.of_eq (by simp)))
  | value _ ih => exact .symbol (.right ih)
  | operand nonempty _ _ ihu ihw => exact .level nonempty ihu ihw
  | chainEnd => exact .nil
  | chainStep hop _ _ ihv ihw => exact .cons (.append (.token hop) ihv) ihw
  | unary hop _ ih => exact .symbol (.left (.append (.token hop) ih))
  | plain _ ih => exact .symbol (.right ih)
  | callee _ _ ihu ihw => exact .symbol (ihu.append ihw)
  | suffixEnd => exact .nil
  | call hp _ hq _ ihv ihw =>
    have first := ((Derives.kind hp).append ihv).append (.kind hq)
    have all := Derives.cons (.left first) ihw
    exact all.of_eq (by simp)
  | get hd ht _ ih => exact .cons (.right (.append (.kind hd) (.kind ht))) ih
  | atom ha =>
    refine .symbol (.left (.token ?_))
    cases ha with
    | _ hk => simp [hk]
  | super hs hd ht =>
    exact .symbol (.right (.left (((Derives.kind hs).append (.kind hd)).append (.kind ht))))
  | group hp _ hq ih =>
    exact .symbol (.right (.right (.left (((Derives.kind hp).append ih).append (.kind hq)))))
  | lambda hf hp _ hq hb _ hd ihu ihv =>
    have head := (((Derives.kind hf).append (.kind hp)).append ihu).append (.kind hq)
    have all := head.append (.braces hb ihv hd)
    exact .symbol (.right (.right (.right (all.of_eq (by simp)))))
  | noArguments => exact .symbol .none
  | arguments _ _ ihu ihw => exact .symbol (.some (ihu.append ihw))
  | argumentsEnd => exact .nil
  | argument hk _ _ ihu ihw => exact .cons (.append (.kind hk) ihu) ihw
  | noParams => exact .symbol .none
  | params ht _ ih => exact .symbol (.some (.append (.kind ht) ih))
  | paramsEnd => exact .nil
  | param hk ht _ ih => exact .cons (.append (.kind hk) (.kind ht)) ih
  | noExpression => exact .none
  | someExpression _ ih => exact .some ih
  | varNone ht hk =>
    intro v hv
    exact .symbol ((((Derives.kind hv).append (.kind ht)).append .none).append (.kind hk))
  | varSome ht hq _ hk ih =>
    intro v hv
    have init := Derives.some ((Derives.kind hq).append ih)
    have all := (((Derives.kind hv).append (.kind ht)).append init).append (.kind hk)
    exact .symbol (all.of_eq (by simp))
  | noInit hk => exact .left (.kind hk)
  | varInit hv _ ih => exact .right (.left (ih _ hv))
  | exprInit _ hk ih => exact .right (.right (ih.append (.kind hk)))
  | expr _ hk ih =>
    exact .symbol (.right (.right (.right (.right (.right (.right (ih.append (.kind hk))))))))
  | print hp _ hk ih =>
    have all := ((Derives.kind hp).append ih).append (.kind hk)
    exact .symbol (.right (.right (.left (.symbol all))))
  | ret hr _ hk ih =>
    have all := ((Derives.kind hr).append ih).append (.kind hk)
    exact .symbol (.right (.right (.right (.left (.symbol all)))))
  | block hb _ hd ih =>
    exact .symbol (.right (.right (.right (.right (.right (.left (.braces hb ih hd)))))))
  | loop hw hp _ hq _ ihu ihv =>
    have head := (((Derives.kind hw).append (.kind hp)).append ihu).append (.kind hq)
    have all := head.append ihv
    exact .symbol (.right (.right (.right (.right (.left (.symbol (all.of_eq (by simp))))))))
  | cond hi hp _ hq _ ihu ihv =>
    have head := (((Derives.kind hi).append (.kind hp)).append ihu).append (.kind hq)
    exact .symbol (.right (.left (.symbol (((head.append ihv).append .none).of_eq (by simp)))))
  | condElse hi hp _ hq _ hl _ ihu ihv ihw =>
    have head := (((Derives.kind hi).append (.kind hp)).append ihu).append (.kind hq)
    have all := (head.append ihv).append (.some ((Derives.kind hl).append ihw))
    exact .symbol (.right (.left (.symbol (all.of_eq (by simp)))))
  | forLoop hf hp _ _ hk _ hq _ ihu ihv ihw ihx =>
    have head := (((Derives.kind hf).append (.kind hp)).append ihu).append ihv
    have all := (((head.append (.kind hk)).append ihw).append (.kind hq)).append ihx
    exact .symbol (.left (.symbol (all.of_eq (by simp))))
  | statement _ ih => exact .symbol (.right (.right (.right ih)))
  | var hv _ ih => exact .symbol (.right (.right (.left (ih _ hv))))
  | «fun» hf _ ih => exact ih.2 _ hf
  | classDecl hc ht _ hb _ hd ihu ihv =>
    have head := (((Derives.kind hc).append (.kind ht)).append ihu).append (.kind hb)
    have all := (head.append ihv).append (.kind hd)
    exact .symbol (.left (.symbol (all.of_eq (by simp))))
  | noDeclarations => exact .nil
  | declarations _ _ ihu ihv => exact .cons ihu ihv
  | function ht hp _ hq hb _ hd ihu ihv =>
    have body := Derives.braces hb ihv hd
    constructor
    · have head := (((Derives.kind ht).append (.kind hp)).append ihu).append (.kind hq)
      have all := head.append body
      exact .symbol (all.of_eq (by simp))
    · intro f hf
      have head := ((Derives.kind hf).append (.kind ht)).append (.kind hp)
      have all := ((head.append ihu).append (.kind hq)).append body
      exact .symbol (.right (.left (all.of_eq (by simp))))
  | noMethods => exact .nil
  | methods _ _ ihu ihv => exact .cons ihu.1 ihv
  | noSuperclass => exact .none
  | someSuperclass hk ht => exact .some (.append (.token hk) (.kind ht))

/-- The programs of the grammar are the declarations that have a derivation, with an end. -/
theorem derives_program_iff {u : List Token} :
    Derives Symbol.program u ↔
      ∃ v t, u = v ++ [t] ∧ Read .declarations v ∧ t.kind = .eof := by
  constructor
  · exact Derives.read
  · rintro ⟨v, t, rfl, ⟨body, hbody⟩, ht⟩
    exact .symbol (hbody.formed.append (.kind ht))

end Lox.Grammar
