import Lox.Syntax.Format

/-!
Trees up to the places of their tokens. Two trees are the same but for line numbers when they are
the same with all line numbers erased; neither of the two texts of a tree shows a line number.
-/

namespace Lox

/-- The token without its line. -/
def Token.bare (t : Token) : Token := { t with line := 0 }

@[simp] theorem Token.bare_kind (t : Token) : t.bare.kind = t.kind := rfl

/-- A line is no part of a lexeme. -/
@[simp] theorem Token.bare_lexeme (t : Token) : t.bare.lexeme = t.lexeme := rfl

/-- The use without its line. -/
def Reference.bare (ref : Reference) : Reference := { ref with name := ref.name.bare }

@[simp] theorem Reference.bare_lexeme (ref : Reference) :
    ref.bare.name.lexeme = ref.name.lexeme := rfl

mutual

/-- The tree without line numbers. -/
def Expr.bare : Expr → Expr
  | .number x => .number x
  | .string s => .string s
  | .bool b => .bool b
  | .nil => .nil
  | .variable ref => .variable ref.bare
  | .assign ref value => .assign ref.bare value.bare
  | .unary op operand => .unary op.bare operand.bare
  | .binary op left right => .binary op.bare left.bare right.bare
  | .logical op left right => .logical op.bare left.bare right.bare
  | .group inner => .group inner.bare
  | .call callee paren args => .call callee.bare paren.bare (Expr.bares args)
  | .get object name => .get object.bare name.bare
  | .set object name value => .set object.bare name.bare value.bare
  | .this ref => .this ref.bare
  | .super ref method => .super ref.bare method.bare
  | .lambda keyword params body => .lambda keyword.bare (params.map Token.bare) (Stmt.bares body)
  | .gap => .gap

def Expr.bares : List Expr → List Expr
  | [] => []
  | e :: rest => e.bare :: Expr.bares rest

def Stmt.bare : Stmt → Stmt
  | .expr e => .expr e.bare
  | .print e => .print e.bare
  | .var name none => .var name.bare none
  | .var name (some init) => .var name.bare (some init.bare)
  | .block body => .block (Stmt.bares body)
  | .cond test yes none => .cond test.bare yes.bare none
  | .cond test yes (some no) => .cond test.bare yes.bare (some no.bare)
  | .loop test body => .loop test.bare body.bare
  | .function decl => .function decl.bare
  | .ret keyword none => .ret keyword.bare none
  | .ret keyword (some value) => .ret keyword.bare (some value.bare)
  | .classDecl name superclass methods =>
    .classDecl name.bare (superclass.map Reference.bare) (Function.bares methods)
  | .gap => .gap

def Stmt.bares : List Stmt → List Stmt
  | [] => []
  | s :: rest => s.bare :: Stmt.bares rest

def Function.bare : Function → Function
  | ⟨name, params, body⟩ => ⟨name.bare, params.map Token.bare, Stmt.bares body⟩

def Function.bares : List Function → List Function
  | [] => []
  | f :: rest => f.bare :: Function.bares rest

end

def Program.bare (p : Program) : Program := ⟨Stmt.bares p.body⟩

/-! ### The texts of a tree show no line -/

/-- Parameters are printed without their lines. -/
theorem paramText_bare (params : List Token) :
    paramText (params.map Token.bare) = paramText params := by
  simp [paramText, Function.comp_def]

theorem sexprParams_bare (params : List Token) :
    sexprParams (params.map Token.bare) = sexprParams params := by
  simp [sexprParams, Function.comp_def]

mutual

/-- An expression is printed without the lines of its tokens. The cases follow the tree. -/
theorem Expr.format_bare (depth : Nat) : (e : Expr) → e.bare.format depth = e.format depth
  | .number _ | .string _ | .bool _ | .nil | .variable _ | .this _ | .gap => by
    simp [Expr.bare, Expr.format]
  | .assign _ value => by simp [Expr.bare, Expr.format, value.format_bare]
  | .unary _ operand => by simp [Expr.bare, Expr.format, operand.format_bare]
  | .binary _ left right | .logical _ left right => by
    simp [Expr.bare, Expr.format, left.format_bare, right.format_bare]
  | .group inner => by simp [Expr.bare, Expr.format, inner.format_bare]
  | .call callee _ args => by
    simp [Expr.bare, Expr.format, callee.format_bare, Expr.formats_bares depth args]
  | .get object _ => by simp [Expr.bare, Expr.format, object.format_bare]
  | .set object _ value => by
    simp [Expr.bare, Expr.format, object.format_bare, value.format_bare]
  | .super _ _ => by simp [Expr.bare, Expr.format]
  | .lambda _ params body => by
    simp [Expr.bare, Expr.format, paramText_bare, Stmt.formats_bares (depth + 1) body]

theorem Expr.formats_bares (depth : Nat) :
    (es : List Expr) → Expr.formats depth (Expr.bares es) = Expr.formats depth es
  | [] => rfl
  | e :: rest => by
    simp [Expr.bares, Expr.formats, e.format_bare, Expr.formats_bares depth rest]

/-- A statement is printed without the lines of its tokens. -/
theorem Stmt.format_bare (depth : Nat) : (s : Stmt) → s.bare.format depth = s.format depth
  | .expr e | .print e => by simp [Stmt.bare, Stmt.format, e.format_bare]
  | .var _ none | .ret _ none | .gap => by simp [Stmt.bare, Stmt.format]
  | .var _ (some e) | .ret _ (some e) => by simp [Stmt.bare, Stmt.format, e.format_bare]
  | .block body => by simp [Stmt.bare, Stmt.format, Stmt.formats_bares (depth + 1) body]
  | .cond test yes none => by
    simp [Stmt.bare, Stmt.format, test.format_bare, yes.format_bare]
  | .cond test yes (some no) => by
    simp [Stmt.bare, Stmt.format, test.format_bare, yes.format_bare, no.format_bare]
  | .loop test body => by simp [Stmt.bare, Stmt.format, test.format_bare, body.format_bare]
  | .function decl => by simp [Stmt.bare, Stmt.format, decl.format_bare]
  | .classDecl _ none methods | .classDecl _ (some _) methods => by
    simp [Stmt.bare, Stmt.format, Function.formats_bares (depth + 1) methods]

theorem Stmt.formats_bares (depth : Nat) :
    (body : List Stmt) → Stmt.formats depth (Stmt.bares body) = Stmt.formats depth body
  | [] => rfl
  | s :: rest => by
    simp [Stmt.bares, Stmt.formats, s.format_bare, Stmt.formats_bares depth rest]

/-- A function is printed without the lines of its tokens. -/
theorem Function.format_bare (depth : Nat) :
    (f : Function) → f.bare.format depth = f.format depth
  | ⟨_, params, body⟩ => by
    simp [Function.bare, Function.format, paramText_bare, Stmt.formats_bares (depth + 1) body]

theorem Function.formats_bares (depth : Nat) :
    (fs : List Function) → Function.formats depth (Function.bares fs) = Function.formats depth fs
  | [] => rfl
  | f :: rest => by
    simp [Function.bares, Function.formats, f.format_bare, Function.formats_bares depth rest]

end

mutual

/-- The fully bracketed text of an expression does not show lines. -/
theorem Expr.sexpr_bare : (e : Expr) → e.bare.sexpr = e.sexpr
  | .number _ | .string _ | .bool _ | .nil | .variable _ | .this _ | .super _ _ | .gap => by
    simp [Expr.bare, Expr.sexpr]
  | .assign _ value => by simp [Expr.bare, Expr.sexpr, value.sexpr_bare]
  | .unary _ operand => by simp [Expr.bare, Expr.sexpr, operand.sexpr_bare]
  | .binary _ left right | .logical _ left right => by
    simp [Expr.bare, Expr.sexpr, left.sexpr_bare, right.sexpr_bare]
  | .group inner => by simp [Expr.bare, Expr.sexpr, inner.sexpr_bare]
  | .call callee _ args => by
    simp [Expr.bare, Expr.sexpr, callee.sexpr_bare, Expr.sexprs_bares args]
  | .get object _ => by simp [Expr.bare, Expr.sexpr, object.sexpr_bare]
  | .set object _ value => by
    simp [Expr.bare, Expr.sexpr, object.sexpr_bare, value.sexpr_bare]
  | .lambda _ params body => by
    simp [Expr.bare, Expr.sexpr, sexprParams_bare, Stmt.sexprs_bares body]

theorem Expr.sexprs_bares : (es : List Expr) → Expr.sexprs (Expr.bares es) = Expr.sexprs es
  | [] => rfl
  | e :: rest => by simp [Expr.bares, Expr.sexprs, e.sexpr_bare, Expr.sexprs_bares rest]

/-- The fully bracketed text of a statement does not show lines. -/
theorem Stmt.sexpr_bare : (s : Stmt) → s.bare.sexpr = s.sexpr
  | .expr e | .print e => by simp [Stmt.bare, Stmt.sexpr, e.sexpr_bare]
  | .var _ none | .ret _ none | .gap => by simp [Stmt.bare, Stmt.sexpr]
  | .var _ (some e) | .ret _ (some e) => by simp [Stmt.bare, Stmt.sexpr, e.sexpr_bare]
  | .block body => by simp [Stmt.bare, Stmt.sexpr, Stmt.sexprs_bares body]
  | .cond test yes none => by simp [Stmt.bare, Stmt.sexpr, test.sexpr_bare, yes.sexpr_bare]
  | .cond test yes (some no) => by
    simp [Stmt.bare, Stmt.sexpr, test.sexpr_bare, yes.sexpr_bare, no.sexpr_bare]
  | .loop test body => by simp [Stmt.bare, Stmt.sexpr, test.sexpr_bare, body.sexpr_bare]
  | .function decl => by simp [Stmt.bare, Stmt.sexpr, decl.sexpr_bare]
  | .classDecl _ none methods | .classDecl _ (some _) methods => by
    simp [Stmt.bare, Stmt.sexpr, Function.sexprs_bares methods]

theorem Stmt.sexprs_bares : (body : List Stmt) → Stmt.sexprs (Stmt.bares body) = Stmt.sexprs body
  | [] => rfl
  | s :: rest => by simp [Stmt.bares, Stmt.sexprs, s.sexpr_bare, Stmt.sexprs_bares rest]

/-- The fully bracketed text of a function does not show lines. -/
theorem Function.sexpr_bare : (f : Function) → f.bare.sexpr = f.sexpr
  | ⟨_, params, body⟩ => by
    simp [Function.bare, Function.sexpr, sexprParams_bare, Stmt.sexprs_bares body]

theorem Function.sexprs_bares :
    (fs : List Function) → Function.sexprs (Function.bares fs) = Function.sexprs fs
  | [] => rfl
  | f :: rest => by simp [Function.bares, Function.sexprs, f.sexpr_bare, Function.sexprs_bares rest]

end

/-- A program is printed without the lines of its tokens. -/
theorem Program.format_bare (p : Program) : p.bare.format = p.format := by
  have each : ∀ body : List Stmt,
      (Stmt.bares body).map (·.format 0 ++ "\n") = body.map (·.format 0 ++ "\n") := by
    intro body
    induction body with
    | nil => rfl
    | cons s rest ih => simp [Stmt.bares, s.format_bare, ih]
  rw [Program.format, Program.format, Program.bare, each]

/-- The fully bracketed text of a program does not show lines. -/
theorem Program.sexpr_bare (p : Program) : p.bare.sexpr = p.sexpr := by
  have line : ∀ s : Stmt, s.bare.sexprLine = s.sexprLine := by
    intro s
    cases s with
    | gap => rfl
    | var _ init | ret _ init => cases init <;> exact Stmt.sexpr_bare _
    | cond _ _ no => cases no <;> exact Stmt.sexpr_bare _
    | _ => exact Stmt.sexpr_bare _
  have each : ∀ body : List Stmt,
      (Stmt.bares body).map Stmt.sexprLine = body.map Stmt.sexprLine := by
    intro body
    induction body with
    | nil => rfl
    | cons s rest ih => simp [Stmt.bares, line, ih]
  rw [Program.sexpr, Program.sexpr, Program.bare, each]

end Lox
