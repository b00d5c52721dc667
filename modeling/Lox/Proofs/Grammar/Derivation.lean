import Lox.Grammar.Program

/-!
Derivations: which tokens are read as which tree. A derivation says more than the grammar does. It
names the tree, it spells a chain of operators from the left, and it knows whether a statement ends
in an `if` without `else`, so that an `else` after it would be its own. Every category is an index
of one family, so that facts about all of them go by one induction.
-/

namespace Lox.Grammar

/-- How tightly an expression binds, loosest first. -/
inductive Level where
  | disjunction | conjunction | equality | comparison | term | factor | unary | call | primary
deriving DecidableEq

namespace Level

/-- The level of the operands. -/
def inner : Level → Level
  | disjunction => conjunction
  | conjunction => equality
  | equality => comparison
  | comparison => term
  | term => factor
  | factor => unary
  | unary => call
  | call => primary
  | primary => primary

/-- The operators between operands. -/
def operators : Level → List Token.Kind
  | disjunction => [.orKw]
  | conjunction => [.andKw]
  | equality => [.bangEqual, .equalEqual]
  | comparison => [.greater, .greaterEqual, .less, .lessEqual]
  | term => [.minus, .plus]
  | factor => [.slash, .star]
  | _ => []

/-- The expression that an operator makes of two operands. -/
def join : Level → Token → Expr → Expr → Expr
  | disjunction | conjunction => .logical
  | _ => .binary

end Level

/-- What a sequence of tokens can be read as. -/
inductive Category where
  | expression
  | level (l : Level)
  /-- The operators and operands after a left operand. -/
  | chain (l : Level)
  /-- The calls and property accesses after an expression. -/
  | suffixes
  | arguments
  /-- What comes after the first argument. -/
  | moreArguments
  | params
  | moreParams
  | optional
  /-- A variable declaration after its keyword. -/
  | varRest
  | forInit
  /-- A statement; `isOpen` if an `else` after it would be its own. -/
  | statement (isOpen : Bool)
  | declaration
  | declarations
  /-- A function from its name on. -/
  | function
  | methods
  | superclass

/-- The kind of tree that a category gives; what comes after a first part goes with that part. -/
def Category.Tree : Category → Type
  | expression | level _ => Expr
  | chain _ | suffixes => Expr × Expr
  | arguments | moreArguments => List Expr
  | params | moreParams => List Token
  | optional => Option Expr
  | varRest | statement _ | declaration => Stmt
  | forInit => Option Stmt
  | declarations => List Stmt
  | function => Function
  | methods => List Function
  | superclass => Option Reference

/-- The literals and names: an expression of one token. -/
inductive Atom : Token → Expr → Prop where
  | falseKw {t : Token} : t.kind = .falseKw → Atom t (.bool false)
  | trueKw {t : Token} : t.kind = .trueKw → Atom t (.bool true)
  | nilKw {t : Token} : t.kind = .nilKw → Atom t .nil
  | number {t : Token} : t.kind = .number → Atom t (.number (numberOf t))
  | string {t : Token} : t.kind = .string → Atom t (.string (stringOf t))
  | thisKw {t : Token} : t.kind = .thisKw → Atom t (.this { name := t })
  | identifier {t : Token} : t.kind = .identifier → Atom t (.variable { name := t })

/-- The tokens are read as the tree. -/
inductive Derivation : (c : Category) → List Token → c.Tree → Prop where
  /- Expressions -/
  | assign {t q : Token} {u : List Token} {value : Expr} :
      t.kind = .identifier → q.kind = .equal → Derivation .expression u value →
      Derivation .expression (t :: q :: u) (.assign { name := t } value)
  | set {u v : List Token} {d t q : Token} {object value : Expr} :
      Derivation (.level .call) u object → d.kind = .dot → t.kind = .identifier →
      q.kind = .equal → Derivation .expression v value →
      Derivation .expression (u ++ d :: t :: q :: v) (.set object t value)
  | value {u : List Token} {e : Expr} :
      Derivation (.level .disjunction) u e → Derivation .expression u e
  | operand {l : Level} {u w : List Token} {a e : Expr} :
      l.operators ≠ [] → Derivation (.level l.inner) u a → Derivation (.chain l) w (a, e) →
      Derivation (.level l) (u ++ w) e
  | chainEnd {l : Level} {a : Expr} : Derivation (.chain l) [] (a, a)
  | chainStep {l : Level} {op : Token} {v w : List Token} {a b e : Expr} :
      op.kind ∈ l.operators → Derivation (.level l.inner) v b →
      Derivation (.chain l) w (l.join op a b, e) → Derivation (.chain l) (op :: (v ++ w)) (a, e)
  | unary {op : Token} {u : List Token} {e : Expr} :
      op.kind ∈ [Token.Kind.bang, .minus] → Derivation (.level .unary) u e →
      Derivation (.level .unary) (op :: u) (.unary op e)
  | plain {u : List Token} {e : Expr} :
      Derivation (.level .call) u e → Derivation (.level .unary) u e
  | callee {u w : List Token} {a e : Expr} :
      Derivation (.level .primary) u a → Derivation .suffixes w (a, e) →
      Derivation (.level .call) (u ++ w) e
  | suffixEnd {a : Expr} : Derivation .suffixes [] (a, a)
  | call {p q : Token} {v w : List Token} {a e : Expr} {args : List Expr} :
      p.kind = .leftParen → Derivation .arguments v args → q.kind = .rightParen →
      Derivation .suffixes w (.call a q args, e) →
      Derivation .suffixes (p :: (v ++ q :: w)) (a, e)
  | get {d t : Token} {w : List Token} {a e : Expr} :
      d.kind = .dot → t.kind = .identifier → Derivation .suffixes w (.get a t, e) →
      Derivation .suffixes (d :: t :: w) (a, e)
  | atom {t : Token} {e : Expr} : Atom t e → Derivation (.level .primary) [t] e
  | super {s d t : Token} :
      s.kind = .superKw → d.kind = .dot → t.kind = .identifier →
      Derivation (.level .primary) [s, d, t] (.super { name := s } t)
  | group {p q : Token} {u : List Token} {e : Expr} :
      p.kind = .leftParen → Derivation .expression u e → q.kind = .rightParen →
      Derivation (.level .primary) (p :: (u ++ [q])) (.group e)
  | lambda {f p q b d : Token} {u v : List Token} {params : List Token} {body : List Stmt} :
      f.kind = .funKw → p.kind = .leftParen → Derivation .params u params →
      q.kind = .rightParen → b.kind = .leftBrace → Derivation .declarations v body →
      d.kind = .rightBrace →
      Derivation (.level .primary) (f :: p :: (u ++ q :: b :: (v ++ [d]))) (.lambda f params body)
  /- Lists -/
  | noArguments : Derivation .arguments [] []
  | arguments {u w : List Token} {e : Expr} {rest : List Expr} :
      Derivation .expression u e → Derivation .moreArguments w rest →
      Derivation .arguments (u ++ w) (e :: rest)
  | argumentsEnd : Derivation .moreArguments [] []
  | argument {k : Token} {u w : List Token} {e : Expr} {rest : List Expr} :
      k.kind = .comma → Derivation .expression u e → Derivation .moreArguments w rest →
      Derivation .moreArguments (k :: (u ++ w)) (e :: rest)
  | noParams : Derivation .params [] []
  | params {t : Token} {w rest : List Token} :
      t.kind = .identifier → Derivation .moreParams w rest → Derivation .params (t :: w) (t :: rest)
  | paramsEnd : Derivation .moreParams [] []
  | param {k t : Token} {w rest : List Token} :
      k.kind = .comma → t.kind = .identifier → Derivation .moreParams w rest →
      Derivation .moreParams (k :: t :: w) (t :: rest)
  | noExpression : Derivation .optional [] none
  | someExpression {u : List Token} {e : Expr} :
      Derivation .expression u e → Derivation .optional u (some e)
  /- Statements -/
  | varNone {t k : Token} :
      t.kind = .identifier → k.kind = .semicolon → Derivation .varRest [t, k] (.var t none)
  | varSome {t q k : Token} {u : List Token} {init : Expr} :
      t.kind = .identifier → q.kind = .equal → Derivation .expression u init →
      k.kind = .semicolon → Derivation .varRest (t :: q :: (u ++ [k])) (.var t (some init))
  | noInit {k : Token} : k.kind = .semicolon → Derivation .forInit [k] none
  | varInit {v : Token} {u : List Token} {s : Stmt} :
      v.kind = .varKw → Derivation .varRest u s → Derivation .forInit (v :: u) (some s)
  | exprInit {k : Token} {u : List Token} {e : Expr} :
      Derivation .expression u e → k.kind = .semicolon →
      Derivation .forInit (u ++ [k]) (some (.expr e))
  | expr {k : Token} {u : List Token} {e : Expr} :
      Derivation .expression u e → k.kind = .semicolon →
      Derivation (.statement false) (u ++ [k]) (.expr e)
  | print {p k : Token} {u : List Token} {e : Expr} :
      p.kind = .printKw → Derivation .expression u e → k.kind = .semicolon →
      Derivation (.statement false) (p :: (u ++ [k])) (.print e)
  | ret {r k : Token} {u : List Token} {value : Option Expr} :
      r.kind = .returnKw → Derivation .optional u value → k.kind = .semicolon →
      Derivation (.statement false) (r :: (u ++ [k])) (.ret r value)
  | block {b d : Token} {u : List Token} {body : List Stmt} :
      b.kind = .leftBrace → Derivation .declarations u body → d.kind = .rightBrace →
      Derivation (.statement false) (b :: (u ++ [d])) (.block body)
  | loop {w p q : Token} {u v : List Token} {test : Expr} {body : Stmt} {isOpen : Bool} :
      w.kind = .whileKw → p.kind = .leftParen → Derivation .expression u test →
      q.kind = .rightParen → Derivation (.statement isOpen) v body →
      Derivation (.statement isOpen) (w :: p :: (u ++ q :: v)) (.loop test body)
  | cond {i p q : Token} {u v : List Token} {test : Expr} {yes : Stmt} {isOpen : Bool} :
      i.kind = .ifKw → p.kind = .leftParen → Derivation .expression u test →
      q.kind = .rightParen → Derivation (.statement isOpen) v yes →
      Derivation (.statement true) (i :: p :: (u ++ q :: v)) (.cond test yes none)
  | condElse {i p q l : Token} {u v w : List Token} {test : Expr} {yes no : Stmt}
      {isOpen : Bool} :
      i.kind = .ifKw → p.kind = .leftParen → Derivation .expression u test →
      q.kind = .rightParen → Derivation (.statement false) v yes → l.kind = .elseKw →
      Derivation (.statement isOpen) w no →
      Derivation (.statement isOpen) (i :: p :: (u ++ q :: (v ++ l :: w)))
        (.cond test yes (some no))
  | forLoop {f p k q : Token} {u v w x : List Token} {init : Option Stmt}
      {test step : Option Expr} {body : Stmt} {isOpen : Bool} :
      f.kind = .forKw → p.kind = .leftParen → Derivation .forInit u init →
      Derivation .optional v test → k.kind = .semicolon → Derivation .optional w step →
      q.kind = .rightParen → Derivation (.statement isOpen) x body →
      Derivation (.statement isOpen) (f :: p :: (u ++ (v ++ k :: (w ++ q :: x))))
        (desugarFor init test step body)
  /- Declarations -/
  | statement {u : List Token} {s : Stmt} {isOpen : Bool} :
      Derivation (.statement isOpen) u s → Derivation .declaration u s
  | var {v : Token} {u : List Token} {s : Stmt} :
      v.kind = .varKw → Derivation .varRest u s → Derivation .declaration (v :: u) s
  | fun {f : Token} {u : List Token} {decl : Function} :
      f.kind = .funKw → Derivation .function u decl →
      Derivation .declaration (f :: u) (.function decl)
  | classDecl {c t b d : Token} {u v : List Token} {superclass : Option Reference}
      {methods : List Function} :
      c.kind = .classKw → t.kind = .identifier → Derivation .superclass u superclass →
      b.kind = .leftBrace → Derivation .methods v methods → d.kind = .rightBrace →
      Derivation .declaration (c :: t :: (u ++ b :: (v ++ [d]))) (.classDecl t superclass methods)
  | noDeclarations : Derivation .declarations [] []
  | declarations {u v : List Token} {s : Stmt} {rest : List Stmt} :
      Derivation .declaration u s → Derivation .declarations v rest →
      Derivation .declarations (u ++ v) (s :: rest)
  | function {t p q b d : Token} {u v params : List Token} {body : List Stmt} :
      t.kind = .identifier → p.kind = .leftParen → Derivation .params u params →
      q.kind = .rightParen → b.kind = .leftBrace → Derivation .declarations v body →
      d.kind = .rightBrace →
      Derivation .function (t :: p :: (u ++ q :: b :: (v ++ [d]))) { name := t, params, body }
  | noMethods : Derivation .methods [] []
  | methods {u v : List Token} {f : Function} {rest : List Function} :
      Derivation .function u f → Derivation .methods v rest →
      Derivation .methods (u ++ v) (f :: rest)
  | noSuperclass : Derivation .superclass [] none
  | someSuperclass {k t : Token} :
      k.kind ∈ [Token.Kind.less, .colon] → t.kind = .identifier →
      Derivation .superclass [k, t] (some { name := t })

/-! ### What an assignment target is derived from -/

/-- Made by an operator, so not a name, a property or a call. -/
def IsOperation : Expr → Prop
  | .unary .. | .binary .. | .logical .. => True
  | _ => False

/-- Operands that are joined are an operation. -/
theorem isOperation_join (l : Level) (op : Token) (a b : Expr) : IsOperation (l.join op a b) := by
  cases l <;> trivial

/-- Operators behind an operand make an operation of it, if there are any. -/
theorem Derivation.chain_inv {l : Level} {w : List Token} {a e : Expr} :
    Derivation (.chain l) w (a, e) → (w = [] ∧ e = a) ∨ IsOperation e
  | .chainEnd => .inl ⟨rfl, rfl⟩
  | .chainStep (a := a) (b := b) hop hv hw => by
    obtain ⟨rfl, rfl⟩ | h := Derivation.chain_inv hw
    · exact .inr (isOperation_join l _ a b)
    · exact .inr h
termination_by w.length
decreasing_by simp only [List.length_cons, List.length_append]; omega

/-- What is no operation is an operand of the level below. -/
theorem Derivation.inner_of_plain {l : Level} {u : List Token} {e : Expr}
    (h : Derivation (.level l) u e) (nonempty : l.operators ≠ []) (plain : ¬ IsOperation e) :
    Derivation (.level l.inner) u e := by
  cases h with
  | operand _ hu hw =>
    obtain ⟨rfl, rfl⟩ | h := hw.chain_inv
    · simpa using hu
    · exact absurd h plain
  | _ => exact absurd rfl nonempty

/-- What is no operation is a call. -/
theorem Derivation.call_of_plain {u : List Token} {e : Expr}
    (h : Derivation (.level .disjunction) u e) (plain : ¬ IsOperation e) :
    Derivation (.level .call) u e := by
  have h := h.inner_of_plain (by decide) plain
  have h := h.inner_of_plain (by decide) plain
  have h := h.inner_of_plain (by decide) plain
  have h := h.inner_of_plain (by decide) plain
  have h := h.inner_of_plain (by decide) plain
  have h : Derivation (.level .unary) u e := h.inner_of_plain (by decide) plain
  cases h with
  | operand nonempty => exact absurd rfl nonempty
  | unary => exact absurd trivial plain
  | plain h => exact h

/-- Suffixes make a call or a property, if there are any. -/
theorem Derivation.suffixes_inv {w : List Token} {a e : Expr} :
    Derivation .suffixes w (a, e) → (w = [] ∧ e = a) ∨ (∃ f q args, e = .call f q args) ∨
      ∃ v d t x, w = v ++ [d, t] ∧ e = .get x t ∧ d.kind = .dot ∧ t.kind = .identifier ∧
        Derivation .suffixes v (a, x)
  | .suffixEnd => .inl ⟨rfl, rfl⟩
  | .call hp hv hq hw => by
    obtain ⟨rfl, rfl⟩ | h | ⟨v, d, t, x, rfl, rfl, hd, ht, hx⟩ := Derivation.suffixes_inv hw
    · exact .inr (.inl ⟨_, _, _, rfl⟩)
    · exact .inr (.inl h)
    · exact .inr (.inr ⟨_, d, t, x, by simp, rfl, hd, ht, .call hp hv hq hx⟩)
  | .get hd ht hw => by
    obtain ⟨rfl, rfl⟩ | h | ⟨v, d, t, x, rfl, rfl, hd', ht', hx⟩ := Derivation.suffixes_inv hw
    · exact .inr (.inr ⟨[], _, _, _, rfl, rfl, hd, ht, .suffixEnd⟩)
    · exact .inr (.inl h)
    · exact .inr (.inr ⟨_, d, t, x, by simp, rfl, hd', ht', .get hd ht hx⟩)
termination_by w.length
decreasing_by all_goals simp only [List.length_cons, List.length_append]; omega

/-- An expression that is a name was read from that name alone. -/
theorem Derivation.variable_inv {u : List Token} {ref : Reference}
    (h : Derivation (.level .disjunction) u (.variable ref)) :
    ∃ t, u = [t] ∧ t.kind = .identifier ∧ ref = { name := t } := by
  cases h.call_of_plain id with
  | operand nonempty => exact absurd rfl nonempty
  | callee hu hw =>
    obtain ⟨rfl, rfl⟩ | ⟨_, _, _, h⟩ | ⟨_, _, _, _, _, h, _⟩ := hw.suffixes_inv
    · cases hu with
      | operand nonempty => exact absurd rfl nonempty
      | atom hatom =>
        cases hatom with
        | identifier hk => exact ⟨_, rfl, hk, rfl⟩
    · cases h
    · cases h

/-- An expression that is a property access was read from a callee, a dot and a name. -/
theorem Derivation.get_inv {u : List Token} {object : Expr} {name : Token}
    (h : Derivation (.level .disjunction) u (.get object name)) :
    ∃ v d, u = v ++ [d, name] ∧ Derivation (.level .call) v object ∧ d.kind = .dot ∧
      name.kind = .identifier := by
  cases h.call_of_plain id with
  | operand nonempty => exact absurd rfl nonempty
  | callee hu hw =>
    obtain ⟨rfl, rfl⟩ | ⟨_, _, _, h⟩ | ⟨v, d, t, x, rfl, h, hd, ht, hx⟩ := hw.suffixes_inv
    · cases hu with
      | operand nonempty => exact absurd rfl nonempty
      | atom hatom => cases hatom
    · cases h
    · cases h
      exact ⟨_, d, (List.append_assoc ..).symm, .callee hu hx, hd, ht⟩

end Lox.Grammar
