import Lox.Proofs.Scope.Classes
import Lox.Proofs.Syntax.Shape

/-!
Where the parts of a program stand, and when the addresses of its names are right. A place is the
way from the outermost level to a part; the scopes around it can be read off. The walk over a
program is right where every part is addressed in the context that its place gives.
-/

namespace Lox.Scope

/-- One step inward. The programs of a session are told apart by their numbers. -/
inductive Step where
  | program (run : Nat)
  | part (i : Nat)
  /-- Into the value that a variable is declared with. -/
  | initializer (name : String)
  | block
  /-- Into a function, whose parameters and statements share one scope. -/
  | body
  | this
  | super
deriving DecidableEq

/-- Whether a scope begins with the step. -/
def Step.opens : Step → Bool
  | .block | .body | .this | .super => true
  | _ => false

/-- The steps from the outermost level, the last one first. -/
abbrev Place := List Step

/-- The scopes around a place, the innermost first. A scope is the place where it begins. -/
def enclosing : Place → List Place
  | [] => []
  | step :: π => if step.opens then (step :: π) :: enclosing π else enclosing π

@[simp] theorem enclosing_program (run : Nat) (π : Place) :
    enclosing (.program run :: π) = enclosing π := rfl

@[simp] theorem enclosing_part (i : Nat) (π : Place) : enclosing (.part i :: π) = enclosing π := rfl

@[simp] theorem enclosing_initializer (name : String) (π : Place) :
    enclosing (.initializer name :: π) = enclosing π := rfl

@[simp] theorem enclosing_block (π : Place) :
    enclosing (.block :: π) = (.block :: π) :: enclosing π := rfl

@[simp] theorem enclosing_body (π : Place) :
    enclosing (.body :: π) = (.body :: π) :: enclosing π := rfl

@[simp] theorem enclosing_this (π : Place) :
    enclosing (.this :: π) = (.this :: π) :: enclosing π := rfl

@[simp] theorem enclosing_super (π : Place) :
    enclosing (.super :: π) = (.super :: π) :: enclosing π := rfl

/-! ### Contexts -/

/-- A scope with the names it declares so far. -/
structure LocalScope where
  place : Place
  names : Names

/-- What the walk knows at a place. -/
structure Context where
  /-- The innermost first. -/
  scopes : List LocalScope := []
  /-- What the innermost body is, if there is one. -/
  body : Option Body := none
  /-- What the innermost class is, if there is one. -/
  family : Option Family := none

namespace Context

def names (c : Context) : List Names := c.scopes.map (·.names)

def innermost (c : Context) : Names := c.names.headD []

/-- Changes the innermost scope; at top level there is none. -/
def mark (c : Context) (name : String) (done : Bool) : Context :=
  match c.scopes with
  | [] => c
  | s :: rest => { c with scopes := { s with names := Bindings.insert name done s.names } :: rest }

def enter (c : Context) (place : Place) (names : Names) : Context :=
  { c with scopes := ⟨place, names⟩ :: c.scopes }

/-- The names of parameters, on top of others. -/
def paramNames : List Token → Names → Names
  | [], names => names
  | p :: rest, names => paramNames rest (Bindings.insert p.lexeme true names)

/-- Inside a function. -/
def function (c : Context) (kind : Body) (π : Place) (params : List Token) : Context :=
  { c.enter (.body :: π) (paramNames params []) with body := some kind }

/-- Inside a class without a superclass. -/
def base (c : Context) (π : Place) : Context :=
  { c.enter (.this :: π) [("this", true)] with family := some .base }

/-- Inside a class with a superclass. -/
def derived (c : Context) (π : Place) : Context :=
  { (c.enter (.super :: π) [("super", true)]).enter (.this :: .super :: π) [("this", true)] with
    family := some .derived }

/-- The address of a use is the distance to the nearest scope that declares its name. -/
def Refers (c : Context) (ref : Reference) : Prop :=
  ref.hops = (hops? c.names ref.name.lexeme).map Int.ofNat

/-- A name is not read while the value it is declared with is worked out. -/
def Reads (c : Context) (ref : Reference) : Prop :=
  Bindings.get? ref.name.lexeme c.innermost ≠ some false ∧ c.Refers ref

/-- A name is new to its scope. -/
def New (c : Context) (name : Token) : Prop := Bindings.binds name.lexeme c.innermost = false

/-- A return stands in a body, and one with a value in no initializer. -/
def Returns (c : Context) (hasValue : Bool) : Prop :=
  c.body ≠ none ∧ (hasValue = true → c.body ≠ some .initializer)

end Context

/-- Parameters are new to the names before them. -/
def NewParams : List Token → Names → Prop
  | [], _ => True
  | p :: rest, names =>
    Bindings.binds p.lexeme names = false ∧ NewParams rest (Bindings.insert p.lexeme true names)

/-- What a method's body is. -/
def methodBody (f : Function) : Body := if f.isInit then .initializer else .method

end Lox.Scope

namespace Lox

open Scope

/-- The context after a statement. -/
def Stmt.after (c : Context) : Stmt → Context
  | .var name _ => c.mark name.lexeme true
  | .function decl => c.mark decl.name.lexeme true
  | .classDecl name _ _ => c.mark name.lexeme true
  | _ => c

mutual

/-- Every use in an expression has its right address, nothing is wrong with its names, and it has
the shape of a parsed one. -/
def Expr.Addressed (c : Context) (π : Place) : Expr → Prop
  | .number _ | .string _ | .bool _ | .nil => True
  | .gap => False
  | .variable ref => c.Reads ref ∧ ref.name.IsName
  | .assign ref value => value.Addressed c (.part 0 :: π) ∧ c.Refers ref ∧ ref.name.IsName
  | .unary op operand => operand.Addressed c (.part 0 :: π) ∧ op.IsUnary
  | .binary op left right =>
    left.Addressed c (.part 0 :: π) ∧ right.Addressed c (.part 1 :: π) ∧ op.IsBinary
  | .logical _ left right =>
    left.Addressed c (.part 0 :: π) ∧ right.Addressed c (.part 1 :: π)
  | .group inner => inner.Addressed c (.part 0 :: π)
  | .call callee _ args => callee.Addressed c (.part 0 :: π) ∧ Expr.AllAddressed c π 1 args
  | .get object _ => object.Addressed c (.part 0 :: π)
  | .set object _ value => value.Addressed c (.part 1 :: π) ∧ object.Addressed c (.part 0 :: π)
  | .this ref => ref.name.lexeme = "this" ∧ c.family ≠ none ∧ c.Refers ref
  | .super ref _ => ref.name.lexeme = "super" ∧ c.family = some .derived ∧ c.Refers ref
  | .lambda _ params body =>
    ((∀ t ∈ params, t.IsName) ∧ NewParams params []) ∧
      Stmt.AllAddressed (c.function .function π params) (.body :: π) 0 body

def Expr.AllAddressed (c : Context) (π : Place) (i : Nat) : List Expr → Prop
  | [] => True
  | e :: rest => e.Addressed c (.part i :: π) ∧ Expr.AllAddressed c π (i + 1) rest

def Stmt.Addressed (c : Context) (π : Place) : Stmt → Prop
  | .expr e | .print e => e.Addressed c (.part 0 :: π)
  | .var name none => name.IsName ∧ c.New name
  | .var name (some init) =>
    (name.IsName ∧ c.New name) ∧
      init.Addressed (c.mark name.lexeme false) (.initializer name.lexeme :: π)
  | .block body => Stmt.AllAddressed (c.enter (.block :: π) []) (.block :: π) 0 body
  | .cond test yes none =>
    test.Addressed c (.part 0 :: π) ∧ yes.Addressed c (.part 1 :: π) ∧ yes.isDeclaration = false
  | .cond test yes (some no) =>
    test.Addressed c (.part 0 :: π) ∧ (yes.Addressed c (.part 1 :: π) ∧ yes.isDeclaration = false) ∧
      no.Addressed c (.part 2 :: π) ∧ no.isDeclaration = false
  | .loop test body =>
    test.Addressed c (.part 0 :: π) ∧ body.Addressed c (.part 1 :: π) ∧ body.isDeclaration = false
  | .function decl =>
    c.New decl.name ∧ decl.Addressed (c.mark decl.name.lexeme true) π .function ∧ decl.name.IsName
  | .ret _ none => c.Returns false
  | .ret _ (some value) => c.Returns true ∧ value.Addressed c (.part 0 :: π)
  | .classDecl name none methods =>
    c.New name ∧
      Function.AllAddressed ((c.mark name.lexeme true).base π) (.this :: π) 0 methods ∧ name.IsName
  | .classDecl name (some superclass) methods =>
    c.New name ∧ superclass.name.lexeme ≠ name.lexeme ∧
      (c.mark name.lexeme true).Reads superclass ∧
      Function.AllAddressed ((c.mark name.lexeme true).derived π) (.this :: .super :: π) 0 methods ∧
        name.IsName ∧ superclass.name.IsName
  | .gap => False

/-- Every statement in the context after those before it. -/
def Stmt.AllAddressed (c : Context) (π : Place) (i : Nat) : List Stmt → Prop
  | [] => True
  | s :: rest => s.Addressed c (.part i :: π) ∧ Stmt.AllAddressed (s.after c) π (i + 1) rest

def Function.Addressed (c : Context) (π : Place) (kind : Body) : Function → Prop
  | ⟨_, params, body⟩ =>
    ((∀ t ∈ params, t.IsName) ∧ NewParams params []) ∧
      Stmt.AllAddressed (c.function kind π params) (.body :: π) 0 body

def Function.AllAddressed (c : Context) (π : Place) (i : Nat) : List Function → Prop
  | [] => True
  | f :: rest =>
    f.Addressed c (.part i :: π) (methodBody f) ∧ Function.AllAddressed c π (i + 1) rest

end

end Lox
