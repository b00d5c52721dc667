import Lox.Proofs.Scope.Place

/-!
Another name for a local variable. The declaration in its scope gets the new name, and so does every
use whose address leads to that scope; nothing else changes, and no address does.
-/

namespace Lox.Scope

/-- A scope, the name of a variable of it, and another name. -/
structure Renaming where
  scope : Place
  old : String
  new : String

namespace Renaming

variable (r : Renaming)

/-- The name that stands for another in the scope, or outside of it. -/
def name (inScope : Bool) (n : String) : String :=
  if inScope = true ∧ n = r.old then r.new else n

def token (inScope : Bool) (t : Token) : Token := { t with lexeme := r.name inScope t.lexeme }

/-- Whether what is declared at the place belongs to the scope. -/
def holds (π : Place) : Bool := (enclosing π).head? = some r.scope

/-- Whether an address at the place leads to the scope. -/
def reaches (π : Place) (hops : Option Int) : Bool :=
  hops.bind (fun d => (enclosing π)[d.toNat]?) = some r.scope

/-- The token of a declaration at the place. -/
def declared (π : Place) (t : Token) : Token := r.token (r.holds π) t

/-- A use at the place. -/
def used (π : Place) (ref : Reference) : Reference :=
  { ref with name := r.token (r.reaches π ref.hops) ref.name }

/-- The two names trade places in the scope. -/
def swap (inScope : Bool) (n : String) : String :=
  if inScope = true then if n = r.old then r.new else if n = r.new then r.old else n else n

variable {r}

/-- To swap the names twice is to leave them. -/
@[simp] theorem swap_swap (b : Bool) (n : String) : r.swap b (r.swap b n) = n := by
  unfold swap
  grind

/-- A name is swapped to another if that one is swapped to it. -/
theorem swap_name_eq_iff {b : Bool} {m n : String} : r.swap b m = n ↔ m = r.swap b n :=
  ⟨fun h => by rw [← h, swap_swap], fun h => by rw [h, swap_swap]⟩

/-- As long as the new name is not used, nothing has to trade places with the old one. -/
theorem name_eq_swap {n : String} (fresh : n ≠ r.new) (b : Bool) : r.name b n = r.swap b n := by
  unfold name swap
  grind

/-- Other names than the two are not swapped. -/
theorem swap_of_ne {n : String} (old : n ≠ r.old) (new : n ≠ r.new) (b : Bool) :
    r.swap b n = n := by
  unfold swap
  grind

end Renaming

end Lox.Scope

namespace Lox

open Scope

/-! ### In a tree -/

mutual

def Expr.rename (r : Renaming) (π : Place) : Expr → Expr
  | .number x => .number x
  | .string s => .string s
  | .bool b => .bool b
  | .nil => .nil
  | .variable ref => .variable (r.used π ref)
  | .assign ref value => .assign (r.used π ref) (value.rename r (.part 0 :: π))
  | .unary op operand => .unary op (operand.rename r (.part 0 :: π))
  | .binary op left right =>
    .binary op (left.rename r (.part 0 :: π)) (right.rename r (.part 1 :: π))
  | .logical op left right =>
    .logical op (left.rename r (.part 0 :: π)) (right.rename r (.part 1 :: π))
  | .group inner => .group (inner.rename r (.part 0 :: π))
  | .call callee paren args =>
    .call (callee.rename r (.part 0 :: π)) paren (Expr.renameAll r π 1 args)
  | .get object name => .get (object.rename r (.part 0 :: π)) name
  | .set object name value =>
    .set (object.rename r (.part 0 :: π)) name (value.rename r (.part 1 :: π))
  | .this ref => .this ref
  | .super ref method => .super ref method
  | .lambda keyword params body =>
    .lambda keyword (params.map (r.declared (.body :: π))) (Stmt.renameAll r (.body :: π) 0 body)
  | .gap => .gap

def Expr.renameAll (r : Renaming) (π : Place) (i : Nat) : List Expr → List Expr
  | [] => []
  | e :: rest => e.rename r (.part i :: π) :: Expr.renameAll r π (i + 1) rest

def Stmt.rename (r : Renaming) (π : Place) : Stmt → Stmt
  | .expr e => .expr (e.rename r (.part 0 :: π))
  | .print e => .print (e.rename r (.part 0 :: π))
  | .var name none => .var (r.declared π name) none
  | .var name (some init) =>
    .var (r.declared π name) (some (init.rename r (.initializer name.lexeme :: π)))
  | .block body => .block (Stmt.renameAll r (.block :: π) 0 body)
  | .cond test yes none =>
    .cond (test.rename r (.part 0 :: π)) (yes.rename r (.part 1 :: π)) none
  | .cond test yes (some no) =>
    .cond (test.rename r (.part 0 :: π)) (yes.rename r (.part 1 :: π))
      (some (no.rename r (.part 2 :: π)))
  | .loop test body => .loop (test.rename r (.part 0 :: π)) (body.rename r (.part 1 :: π))
  | .function decl => .function (decl.rename r π)
  | .ret keyword none => .ret keyword none
  | .ret keyword (some value) => .ret keyword (some (value.rename r (.part 0 :: π)))
  | .classDecl name none methods =>
    .classDecl name none (Function.renameAll r (.this :: π) 0 methods)
  | .classDecl name (some superclass) methods =>
    .classDecl name (some (r.used π superclass))
      (Function.renameAll r (.this :: .super :: π) 0 methods)
  | .gap => .gap

def Stmt.renameAll (r : Renaming) (π : Place) (i : Nat) : List Stmt → List Stmt
  | [] => []
  | s :: rest => s.rename r (.part i :: π) :: Stmt.renameAll r π (i + 1) rest

/-- The name of a function is no variable of the kind that is renamed. -/
def Function.rename (r : Renaming) (π : Place) : Function → Function
  | ⟨name, params, body⟩ =>
    ⟨name, params.map (r.declared (.body :: π)), Stmt.renameAll r (.body :: π) 0 body⟩

def Function.renameAll (r : Renaming) (π : Place) (i : Nat) : List Function → List Function
  | [] => []
  | f :: rest => f.rename r (.part i :: π) :: Function.renameAll r π (i + 1) rest

end

def Program.rename (p : Program) (r : Renaming) : Program := ⟨Stmt.renameAll r [] 0 p.body⟩

/-! ### The names of a program -/

mutual

/-- The names that are declared or used, without those of members. -/
def Expr.names : Expr → List String
  | .number _ | .string _ | .bool _ | .nil | .gap | .this _ | .super _ _ => []
  | .variable ref => [ref.name.lexeme]
  | .assign ref value => ref.name.lexeme :: value.names
  | .unary _ operand => operand.names
  | .binary _ left right | .logical _ left right => left.names ++ right.names
  | .group inner => inner.names
  | .call callee _ args => callee.names ++ Expr.allNames args
  | .get object _ => object.names
  | .set object _ value => object.names ++ value.names
  | .lambda _ params body => params.map (·.lexeme) ++ Stmt.allNames body

def Expr.allNames : List Expr → List String
  | [] => []
  | e :: rest => e.names ++ Expr.allNames rest

def Stmt.names : Stmt → List String
  | .expr e | .print e => e.names
  | .var name none => [name.lexeme]
  | .var name (some init) => name.lexeme :: init.names
  | .block body => Stmt.allNames body
  | .cond test yes none => test.names ++ yes.names
  | .cond test yes (some no) => test.names ++ (yes.names ++ no.names)
  | .loop test body => test.names ++ body.names
  | .function decl => decl.name.lexeme :: decl.names
  | .ret _ none | .gap => []
  | .ret _ (some value) => value.names
  | .classDecl name none methods => name.lexeme :: Function.allNames methods
  | .classDecl name (some superclass) methods =>
    name.lexeme :: superclass.name.lexeme :: Function.allNames methods

def Stmt.allNames : List Stmt → List String
  | [] => []
  | s :: rest => s.names ++ Stmt.allNames rest

def Function.names : Function → List String
  | ⟨_, params, body⟩ => params.map (·.lexeme) ++ Stmt.allNames body

def Function.allNames : List Function → List String
  | [] => []
  | f :: rest => f.names ++ Function.allNames rest

end

def Program.names (p : Program) : List String := Stmt.allNames p.body

/-! ### The scopes of a program -/

/-- What a scope holds: the parameters of a function, if it is one, and statements. -/
structure LocalBody where
  params : List Token
  body : List Stmt

def Stmt.variable? : Stmt → Option String
  | .var name _ => some name.lexeme
  | _ => none

/-- What a statement declares that is no variable. -/
def Stmt.title? : Stmt → Option String
  | .function decl => some decl.name.lexeme
  | .classDecl name _ _ => some name.lexeme
  | _ => none

def LocalBody.variables (b : LocalBody) : List String :=
  b.params.map (·.lexeme) ++ b.body.filterMap Stmt.variable?

def LocalBody.titles (b : LocalBody) : List String := b.body.filterMap Stmt.title?

mutual

/-- The scope at the end of a path, the first step first. -/
def Expr.scope? : Expr → List Step → Option LocalBody
  | .number _, _ | .string _, _ | .bool _, _ | .nil, _ | .gap, _ | .variable _, _ | .this _, _
  | .super _ _, _ => none
  | .assign _ operand, path | .unary _ operand, path | .group operand, path
  | .get operand _, path =>
    match path with
    | .part 0 :: path => operand.scope? path
    | _ => none
  | .binary _ left right, path | .logical _ left right, path | .set left _ right, path =>
    match path with
    | .part 0 :: path => left.scope? path
    | .part 1 :: path => right.scope? path
    | _ => none
  | .call callee _ args, path =>
    match path with
    | .part 0 :: path => callee.scope? path
    | .part (j + 1) :: path => Expr.scopeOf? args j path
    | _ => none
  | .lambda _ params body, path =>
    match path with
    | [.body] => some ⟨params, body⟩
    | .body :: .part j :: path => Stmt.scopeOf? body j path
    | _ => none

def Expr.scopeOf? : List Expr → Nat → List Step → Option LocalBody
  | [], _, _ => none
  | e :: _, 0, path => e.scope? path
  | _ :: rest, j + 1, path => Expr.scopeOf? rest j path

def Stmt.scope? : Stmt → List Step → Option LocalBody
  | .var _ none, _ | .ret _ none, _ | .gap, _ => none
  | .expr e, path | .print e, path | .ret _ (some e), path =>
    match path with
    | .part 0 :: path => e.scope? path
    | _ => none
  | .var name (some init), path =>
    match path with
    | .initializer n :: path => if n = name.lexeme then init.scope? path else none
    | _ => none
  | .block body, path =>
    match path with
    | [.block] => some ⟨[], body⟩
    | .block :: .part j :: path => Stmt.scopeOf? body j path
    | _ => none
  | .cond test yes none, path | .loop test yes, path =>
    match path with
    | .part 0 :: path => test.scope? path
    | .part 1 :: path => yes.scope? path
    | _ => none
  | .cond test yes (some no), path =>
    match path with
    | .part 0 :: path => test.scope? path
    | .part 1 :: path => yes.scope? path
    | .part 2 :: path => no.scope? path
    | _ => none
  | .function decl, path => decl.scope? path
  | .classDecl _ none methods, path =>
    match path with
    | .this :: .part j :: path => Function.scopeOf? methods j path
    | _ => none
  | .classDecl _ (some _) methods, path =>
    match path with
    | .super :: .this :: .part j :: path => Function.scopeOf? methods j path
    | _ => none

def Stmt.scopeOf? : List Stmt → Nat → List Step → Option LocalBody
  | [], _, _ => none
  | s :: _, 0, path => s.scope? path
  | _ :: rest, j + 1, path => Stmt.scopeOf? rest j path

def Function.scope? : Function → List Step → Option LocalBody
  | ⟨_, params, body⟩, path =>
    match path with
    | [.body] => some ⟨params, body⟩
    | .body :: .part j :: path => Stmt.scopeOf? body j path
    | _ => none

def Function.scopeOf? : List Function → Nat → List Step → Option LocalBody
  | [], _, _ => none
  | f :: _, 0, path => f.scope? path
  | _ :: rest, j + 1, path => Function.scopeOf? rest j path

end

def Program.scope? (p : Program) (σ : Place) : Option LocalBody :=
  match σ.reverse with
  | .part j :: path => Stmt.scopeOf? p.body j path
  | _ => none

/-- The variables and parameters that are declared in a scope. -/
def Program.variables (p : Program) (σ : Place) : List String :=
  ((p.scope? σ).map (·.variables)).getD []

end Lox
