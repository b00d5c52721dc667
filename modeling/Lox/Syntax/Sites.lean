import Lox.Syntax.Basic

/-!
The uses of names in a tree, a node before its children and children from left to right.
-/

namespace Lox

/-- A use of a name, with the form of its node. -/
structure Site where
  form : String
  ref : Reference

mutual

def Expr.sites : Expr → List Site
  | .number _ | .string _ | .bool _ | .nil | .gap => []
  | .variable ref => [⟨"Variable", ref⟩]
  | .assign ref value => ⟨"AssignmentExpression", ref⟩ :: value.sites
  | .unary _ operand => operand.sites
  | .binary _ left right => left.sites ++ right.sites
  | .logical _ left right => left.sites ++ right.sites
  | .group inner => inner.sites
  | .call callee _ args => callee.sites ++ Expr.sitesOf args
  | .get object _ => object.sites
  | .set object _ value => object.sites ++ value.sites
  | .this ref => [⟨"ThisExpression", ref⟩]
  | .super ref _ => [⟨"SuperExpression", ref⟩]
  | .lambda _ _ body => Stmt.sitesOf body

def Expr.sitesOf : List Expr → List Site
  | [] => []
  | e :: rest => e.sites ++ Expr.sitesOf rest

def Stmt.sites : Stmt → List Site
  | .expr e => e.sites
  | .print e => e.sites
  | .var _ none => []
  | .var _ (some init) => init.sites
  | .block body => Stmt.sitesOf body
  | .cond test yes none => test.sites ++ yes.sites
  | .cond test yes (some no) => test.sites ++ yes.sites ++ no.sites
  | .loop test body => test.sites ++ body.sites
  | .function decl => decl.sites
  | .ret _ none => []
  | .ret _ (some value) => value.sites
  | .classDecl _ superclass methods =>
    (superclass.map (⟨"Variable", ·⟩)).toList ++ Function.sitesOf methods
  | .gap => []

def Stmt.sitesOf : List Stmt → List Site
  | [] => []
  | s :: rest => s.sites ++ Stmt.sitesOf rest

def Function.sites : Function → List Site
  | ⟨_, _, body⟩ => Stmt.sitesOf body

def Function.sitesOf : List Function → List Site
  | [] => []
  | f :: rest => f.sites ++ Function.sitesOf rest

end

def Program.sites (p : Program) : List Site := Stmt.sitesOf p.body

/-- How many names are known to be local. -/
def Program.localCount (p : Program) : Nat :=
  p.sites.countP (·.ref.hops.isSome)

/-! ### Giving hops from outside -/

/-- A supply of hops, one for each use in turn; a use beyond its end is global. -/
abbrev Supply := StateM (List (Option Int))

def Reference.takeHops (ref : Reference) : Supply Reference :=
  fun supply => ({ ref with hops := supply.head?.join }, supply.tail)

mutual

def Expr.takeHops : Expr → Supply Expr
  | .variable ref => return .variable (← ref.takeHops)
  | .assign ref value => return .assign (← ref.takeHops) (← value.takeHops)
  | .unary op operand => return .unary op (← operand.takeHops)
  | .binary op left right => return .binary op (← left.takeHops) (← right.takeHops)
  | .logical op left right => return .logical op (← left.takeHops) (← right.takeHops)
  | .group inner => return .group (← inner.takeHops)
  | .call callee paren args => return .call (← callee.takeHops) paren (← Expr.allTakeHops args)
  | .get object name => return .get (← object.takeHops) name
  | .set object name value => return .set (← object.takeHops) name (← value.takeHops)
  | .this ref => return .this (← ref.takeHops)
  | .super ref method => return .super (← ref.takeHops) method
  | .lambda keyword params body => return .lambda keyword params (← Stmt.allTakeHops body)
  | .number x => return .number x
  | .string s => return .string s
  | .bool b => return .bool b
  | .nil => return .nil
  | .gap => return .gap

def Expr.allTakeHops : List Expr → Supply (List Expr)
  | [] => return []
  | e :: rest => return (← e.takeHops) :: (← Expr.allTakeHops rest)

def Stmt.takeHops : Stmt → Supply Stmt
  | .expr e => return .expr (← e.takeHops)
  | .print e => return .print (← e.takeHops)
  | .var name none => return .var name none
  | .var name (some init) => return .var name (some (← init.takeHops))
  | .block body => return .block (← Stmt.allTakeHops body)
  | .cond test yes none => return .cond (← test.takeHops) (← yes.takeHops) none
  | .cond test yes (some no) =>
    return .cond (← test.takeHops) (← yes.takeHops) (some (← no.takeHops))
  | .loop test body => return .loop (← test.takeHops) (← body.takeHops)
  | .function decl => return .function (← decl.takeHops)
  | .ret keyword none => return .ret keyword none
  | .ret keyword (some value) => return .ret keyword (some (← value.takeHops))
  | .classDecl name none methods => return .classDecl name none (← Function.allTakeHops methods)
  | .classDecl name (some superclass) methods =>
    return .classDecl name (some (← superclass.takeHops)) (← Function.allTakeHops methods)
  | .gap => return .gap

def Stmt.allTakeHops : List Stmt → Supply (List Stmt)
  | [] => return []
  | s :: rest => return (← s.takeHops) :: (← Stmt.allTakeHops rest)

def Function.takeHops : Function → Supply Function
  | ⟨name, params, body⟩ => return ⟨name, params, ← Stmt.allTakeHops body⟩

def Function.allTakeHops : List Function → Supply (List Function)
  | [] => return []
  | f :: rest => return (← f.takeHops) :: (← Function.allTakeHops rest)

end

/-- The program with the given hops at its sites, in their order. -/
def Program.withHops (p : Program) (hops : List (Option Int)) : Program :=
  ⟨(Stmt.allTakeHops p.body hops).1⟩

end Lox
