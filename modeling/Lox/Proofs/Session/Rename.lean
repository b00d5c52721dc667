import Lox.Proofs.Rename.Addressed
import Lox.Proofs.Rename.Eval
import Lox.Proofs.Session.Watch
import Lox.Syntax.Sites

/-!
Local names do not matter. A variable of a valid program may have any name that the program does not
use: the program stays valid with the addresses it has, and in every session it prints the same and
ends in the same way, but that a message may speak of the variable by its new name.
-/

namespace Lox

open Scope Source

/-! ### Addresses -/

/-- The form of a use and its address, without the name. -/
def Site.shape (s : Site) : String × Option Int := (s.form, s.ref.hops)

section Sites

variable (r : Renaming)

mutual

/-- Another name changes no address in an expression. -/
theorem sites_expr (π : Place) : (e : Expr) →
    (e.rename r π).sites.map Site.shape = e.sites.map Site.shape
  | .number _ | .string _ | .bool _ | .nil | .gap | .this _ | .super _ _ | .variable _ => rfl
  | .assign ref value => by
    simp only [Expr.rename, Expr.sites, List.map_cons, sites_expr _ value]
    rfl
  | .unary _ operand | .group operand | .get operand _ => sites_expr _ operand
  | .binary _ left right | .logical _ left right | .set left _ right => by
    simp only [Expr.rename, Expr.sites, List.map_append, sites_expr _ left, sites_expr _ right]
  | .call callee _ args => by
    simp only [Expr.rename, Expr.sites, List.map_append, sites_expr _ callee, sites_exprs π 1 args]
  | .lambda _ _ body => sites_stmts _ 0 body

theorem sites_exprs (π : Place) (i : Nat) : (es : List Expr) →
    (Expr.sitesOf (Expr.renameAll r π i es)).map Site.shape = (Expr.sitesOf es).map Site.shape
  | [] => rfl
  | e :: rest => by
    simp only [Expr.renameAll, Expr.sitesOf, List.map_append, sites_expr _ e,
      sites_exprs π (i + 1) rest]

/-- Another name changes no address in a statement. -/
theorem sites_stmt (π : Place) : (s : Stmt) →
    (s.rename r π).sites.map Site.shape = s.sites.map Site.shape
  | .expr e | .print e | .ret _ (some e) | .var _ (some e) => sites_expr _ e
  | .var _ none | .ret _ none | .gap => rfl
  | .block body => sites_stmts _ 0 body
  | .cond test yes none | .loop test yes => by
    simp only [Stmt.rename, Stmt.sites, List.map_append, sites_expr _ test, sites_stmt _ yes]
  | .cond test yes (some no) => by
    simp only [Stmt.rename, Stmt.sites, List.map_append, sites_expr _ test, sites_stmt _ yes,
      sites_stmt _ no]
  | .function ⟨_, _, body⟩ => sites_stmts _ 0 body
  | .classDecl _ none methods => sites_functions _ 0 methods
  | .classDecl _ (some superclass) methods => by
    simp only [Stmt.rename, Stmt.sites, List.map_append, sites_functions _ 0 methods]
    rfl

theorem sites_stmts (π : Place) (i : Nat) : (body : List Stmt) →
    (Stmt.sitesOf (Stmt.renameAll r π i body)).map Site.shape =
      (Stmt.sitesOf body).map Site.shape
  | [] => rfl
  | s :: rest => by
    simp only [Stmt.renameAll, Stmt.sitesOf, List.map_append, sites_stmt _ s,
      sites_stmts π (i + 1) rest]

theorem sites_functions (π : Place) (i : Nat) : (fs : List Function) →
    (Function.sitesOf (Function.renameAll r π i fs)).map Site.shape =
      (Function.sitesOf fs).map Site.shape
  | [] => rfl
  | ⟨_, _, body⟩ :: rest => by
    simp only [Function.renameAll, Function.rename, Function.sitesOf, Function.sites,
      List.map_append, sites_stmts _ 0 body, sites_functions π (i + 1) rest]

end

end Sites

/-! ### Before the run -/

namespace Twin

variable {r : Renaming} {s : Watched}

end Twin

/-! ### The run -/

/-- Failures that say the same, but for the name of a variable that is not there. -/
inductive Failure.Alike (r : Renaming) : Failure → Failure → Prop where
  | same (failure : Failure) : Alike r failure failure
  | undefined (line : Int) :
      Alike r
        (.reported [{ stage := .runtime, line, message := (Fault.undefinedVariable r.old).message }])
        (.reported [{ stage := .runtime, line, message := (Fault.undefinedVariable r.new).message }])

end Lox
