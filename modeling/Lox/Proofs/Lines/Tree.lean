import Lox.Syntax.Basic

/-!
Trees on other lines. A function on line numbers moves every token of a tree and changes nothing
else: neither the shape of the tree nor a name nor an address.
-/

namespace Lox

/-- The token on another line. -/
def Token.move (φ : Nat → Nat) (t : Token) : Token := { t with line := φ t.line }

section Token

variable (φ ψ : Nat → Nat) (t : Token)

@[simp] theorem Token.kind_move : (t.move φ).kind = t.kind := rfl

@[simp] theorem Token.lexeme_move : (t.move φ).lexeme = t.lexeme := rfl

@[simp] theorem Token.literal_move : (t.move φ).literal = t.literal := rfl

@[simp] theorem Token.line_move : (t.move φ).line = φ t.line := rfl

@[simp] theorem Token.move_id : t.move id = t := rfl

/-- Moving lines twice is moving them once. -/
@[simp] theorem Token.move_move : (t.move φ).move ψ = t.move (ψ ∘ φ) := rfl

end Token

/-- The use on another line. -/
def Reference.move (φ : Nat → Nat) (ref : Reference) : Reference :=
  { ref with name := ref.name.move φ }

section Reference

variable (φ ψ : Nat → Nat) (ref : Reference)

@[simp] theorem Reference.name_move : (ref.move φ).name = ref.name.move φ := rfl

@[simp] theorem Reference.hops_move : (ref.move φ).hops = ref.hops := rfl

@[simp] theorem Reference.move_id : ref.move id = ref := rfl

@[simp] theorem Reference.move_move : (ref.move φ).move ψ = ref.move (ψ ∘ φ) := rfl

end Reference

mutual

/-- The tree on other lines. -/
def Expr.move (φ : Nat → Nat) : Expr → Expr
  | .number x => .number x
  | .string s => .string s
  | .bool b => .bool b
  | .nil => .nil
  | .variable ref => .variable (ref.move φ)
  | .assign ref value => .assign (ref.move φ) (value.move φ)
  | .unary op operand => .unary (op.move φ) (operand.move φ)
  | .binary op left right => .binary (op.move φ) (left.move φ) (right.move φ)
  | .logical op left right => .logical (op.move φ) (left.move φ) (right.move φ)
  | .group inner => .group (inner.move φ)
  | .call callee paren args => .call (callee.move φ) (paren.move φ) (Expr.moveAll φ args)
  | .get object name => .get (object.move φ) (name.move φ)
  | .set object name value => .set (object.move φ) (name.move φ) (value.move φ)
  | .this ref => .this (ref.move φ)
  | .super ref method => .super (ref.move φ) (method.move φ)
  | .lambda keyword params body =>
    .lambda (keyword.move φ) (params.map (Token.move φ)) (Stmt.moveAll φ body)
  | .gap => .gap

def Expr.moveAll (φ : Nat → Nat) : List Expr → List Expr
  | [] => []
  | e :: rest => e.move φ :: Expr.moveAll φ rest

def Stmt.move (φ : Nat → Nat) : Stmt → Stmt
  | .expr e => .expr (e.move φ)
  | .print e => .print (e.move φ)
  | .var name none => .var (name.move φ) none
  | .var name (some init) => .var (name.move φ) (some (init.move φ))
  | .block body => .block (Stmt.moveAll φ body)
  | .cond test yes none => .cond (test.move φ) (yes.move φ) none
  | .cond test yes (some no) => .cond (test.move φ) (yes.move φ) (some (no.move φ))
  | .loop test body => .loop (test.move φ) (body.move φ)
  | .function decl => .function (decl.move φ)
  | .ret keyword none => .ret (keyword.move φ) none
  | .ret keyword (some value) => .ret (keyword.move φ) (some (value.move φ))
  | .classDecl name superclass methods =>
    .classDecl (name.move φ) (superclass.map (Reference.move φ)) (Function.moveAll φ methods)
  | .gap => .gap

def Stmt.moveAll (φ : Nat → Nat) : List Stmt → List Stmt
  | [] => []
  | s :: rest => s.move φ :: Stmt.moveAll φ rest

def Function.move (φ : Nat → Nat) : Function → Function
  | ⟨name, params, body⟩ =>
    ⟨name.move φ, params.map (Token.move φ), Stmt.moveAll φ body⟩

def Function.moveAll (φ : Nat → Nat) : List Function → List Function
  | [] => []
  | f :: rest => f.move φ :: Function.moveAll φ rest

end

def Program.move (φ : Nat → Nat) (p : Program) : Program := ⟨Stmt.moveAll φ p.body⟩

section Functions

variable (φ : Nat → Nat)

@[simp] theorem Function.name_move (f : Function) : (f.move φ).name = f.name.move φ := by
  cases f
  rfl

@[simp] theorem Function.params_move (f : Function) :
    (f.move φ).params = f.params.map (Token.move φ) := by
  cases f
  rfl

@[simp] theorem Function.body_move (f : Function) :
    (f.move φ).body = Stmt.moveAll φ f.body := by
  cases f
  rfl

/-- Whether a function is an initializer does not depend on its line. -/
@[simp] theorem Function.isInit_move (f : Function) : (f.move φ).isInit = f.isInit := by
  cases f
  rfl

end Functions

/-! ### One move after another -/

theorem Token.moves_id (params : List Token) : params.map (Token.move id) = params :=
  List.map_id'' Token.move_id params

theorem Token.moves_moves (φ ψ : Nat → Nat) (params : List Token) :
    (params.map (Token.move φ)).map (Token.move ψ) = params.map (Token.move (ψ ∘ φ)) := by
  rw [List.map_map]
  rfl

mutual

theorem Expr.move_id : (e : Expr) → e.move id = e
  | .number _ | .string _ | .bool _ | .nil | .variable _ | .this _ | .super _ _ | .gap => rfl
  | .assign _ value => by simp [Expr.move, value.move_id]
  | .unary _ operand => by simp [Expr.move, operand.move_id]
  | .binary _ left right | .logical _ left right => by
    simp [Expr.move, left.move_id, right.move_id]
  | .group inner => by simp [Expr.move, inner.move_id]
  | .call callee _ args => by simp [Expr.move, callee.move_id, Expr.moveAll_id args]
  | .get object _ => by simp [Expr.move, object.move_id]
  | .set object _ value => by simp [Expr.move, object.move_id, value.move_id]
  | .lambda _ params body => by
    simp [Expr.move, Token.moves_id params, Stmt.moveAll_id body]

theorem Expr.moveAll_id : (es : List Expr) → Expr.moveAll id es = es
  | [] => rfl
  | e :: rest => by rw [Expr.moveAll, e.move_id, Expr.moveAll_id rest]

theorem Stmt.move_id : (s : Stmt) → s.move id = s
  | .expr e | .print e => by simp [Stmt.move, e.move_id]
  | .var _ none | .ret _ none | .gap => rfl
  | .var _ (some e) | .ret _ (some e) => by simp [Stmt.move, e.move_id]
  | .block body => by simp [Stmt.move, Stmt.moveAll_id body]
  | .cond test yes none => by simp [Stmt.move, test.move_id, yes.move_id]
  | .cond test yes (some no) => by simp [Stmt.move, test.move_id, yes.move_id, no.move_id]
  | .loop test body => by simp [Stmt.move, test.move_id, body.move_id]
  | .function decl => by simp [Stmt.move, decl.move_id]
  | .classDecl _ none methods | .classDecl _ (some _) methods => by
    simp [Stmt.move, Function.moveAll_id methods]

theorem Stmt.moveAll_id : (body : List Stmt) → Stmt.moveAll id body = body
  | [] => rfl
  | s :: rest => by rw [Stmt.moveAll, s.move_id, Stmt.moveAll_id rest]

theorem Function.move_id : (f : Function) → f.move id = f
  | ⟨_, params, body⟩ => by
    simp [Function.move, Token.moves_id params, Stmt.moveAll_id body]

theorem Function.moveAll_id : (fs : List Function) → Function.moveAll id fs = fs
  | [] => rfl
  | f :: rest => by rw [Function.moveAll, f.move_id, Function.moveAll_id rest]

end

mutual

/-- An expression is moved twice as once. The cases follow the tree. -/
theorem Expr.move_move (φ ψ : Nat → Nat) : (e : Expr) → (e.move φ).move ψ = e.move (ψ ∘ φ)
  | .number _ | .string _ | .bool _ | .nil | .variable _ | .this _ | .super _ _ | .gap => rfl
  | .assign _ value => by simp [Expr.move, value.move_move φ ψ]
  | .unary _ operand => by simp [Expr.move, operand.move_move φ ψ]
  | .binary _ left right | .logical _ left right => by
    simp [Expr.move, left.move_move φ ψ, right.move_move φ ψ]
  | .group inner => by simp [Expr.move, inner.move_move φ ψ]
  | .call callee _ args => by
    simp [Expr.move, callee.move_move φ ψ, Expr.moveAll_moveAll φ ψ args]
  | .get object _ => by simp [Expr.move, object.move_move φ ψ]
  | .set object _ value => by simp [Expr.move, object.move_move φ ψ, value.move_move φ ψ]
  | .lambda _ params body => by
    simp only [Expr.move, Token.move_move, Token.moves_moves, Stmt.moveAll_moveAll φ ψ body]

theorem Expr.moveAll_moveAll (φ ψ : Nat → Nat) :
    (es : List Expr) → Expr.moveAll ψ (Expr.moveAll φ es) = Expr.moveAll (ψ ∘ φ) es
  | [] => rfl
  | e :: rest => by
    simp only [Expr.moveAll, e.move_move φ ψ, Expr.moveAll_moveAll φ ψ rest]

/-- A statement is moved twice as once. -/
theorem Stmt.move_move (φ ψ : Nat → Nat) : (s : Stmt) → (s.move φ).move ψ = s.move (ψ ∘ φ)
  | .expr e | .print e => by simp [Stmt.move, e.move_move φ ψ]
  | .var _ none | .ret _ none | .gap => rfl
  | .var _ (some e) | .ret _ (some e) => by simp [Stmt.move, e.move_move φ ψ]
  | .block body => by simp [Stmt.move, Stmt.moveAll_moveAll φ ψ body]
  | .cond test yes none => by simp [Stmt.move, test.move_move φ ψ, yes.move_move φ ψ]
  | .cond test yes (some no) => by
    simp [Stmt.move, test.move_move φ ψ, yes.move_move φ ψ, no.move_move φ ψ]
  | .loop test body => by simp [Stmt.move, test.move_move φ ψ, body.move_move φ ψ]
  | .function decl => by simp [Stmt.move, decl.move_move φ ψ]
  | .classDecl _ none methods | .classDecl _ (some _) methods => by
    simp [Stmt.move, Function.moveAll_moveAll φ ψ methods]

theorem Stmt.moveAll_moveAll (φ ψ : Nat → Nat) :
    (body : List Stmt) → Stmt.moveAll ψ (Stmt.moveAll φ body) = Stmt.moveAll (ψ ∘ φ) body
  | [] => rfl
  | s :: rest => by
    simp only [Stmt.moveAll, s.move_move φ ψ, Stmt.moveAll_moveAll φ ψ rest]

/-- A function is moved twice as once. -/
theorem Function.move_move (φ ψ : Nat → Nat) :
    (f : Function) → (f.move φ).move ψ = f.move (ψ ∘ φ)
  | ⟨_, params, body⟩ => by
    simp only [Function.move, Token.move_move, Token.moves_moves, Stmt.moveAll_moveAll φ ψ body]

theorem Function.moveAll_moveAll (φ ψ : Nat → Nat) :
    (fs : List Function) → Function.moveAll ψ (Function.moveAll φ fs) = Function.moveAll (ψ ∘ φ) fs
  | [] => rfl
  | f :: rest => by
    simp only [Function.moveAll, f.move_move φ ψ, Function.moveAll_moveAll φ ψ rest]

end

/-- Moving every line to itself changes no program. -/
theorem Program.move_id (p : Program) : p.move id = p :=
  congrArg Program.mk (Stmt.moveAll_id p.body)

/-- A program is moved twice as once. -/
theorem Program.move_move (φ ψ : Nat → Nat) (p : Program) :
    (p.move φ).move ψ = p.move (ψ ∘ φ) :=
  congrArg Program.mk (Stmt.moveAll_moveAll φ ψ p.body)

end Lox
