import Lox.Bindings
import Lox.Scope.Error
import Lox.Syntax.Sites

/-!
Addresses: a walk over a program that counts, for every use of a name, the scopes between it and
its binding. Names that no scope declares are global. The walk goes on past errors, so that all of
them are found, and every use gets its address.
-/

namespace Lox.Scope

/-- The names that a scope declares; false while a name's own initializer is walked. -/
abbrev Names := Bindings Bool

/-- What the innermost body is. -/
inductive Body where
  | function
  | method
  | initializer
deriving DecidableEq

/-- What the innermost class is: with a superclass clause or without. -/
inductive Family where
  | base
  | derived
deriving DecidableEq

/-- Where the walk stands, innermost first, and what it has found. -/
structure Walk where
  scopes : List Names := []
  bodies : List Body := []
  classes : List Family := []
  errors : List ScopeError := []

abbrev Walker := StateM Walk

/-- The number of scopes between here and the nearest that declares a name. -/
def hops? (scopes : List Names) (name : String) : Option Nat :=
  scopes.findIdx? (Bindings.binds name)

/-! ### Steps of the walk -/

def report (token : Token) (complaint : Complaint) : Walker Unit :=
  modify fun w => { w with errors := w.errors ++ [⟨token, complaint⟩] }

/-- Changes the innermost scope; at top level there is none. -/
def markInnermost (name : String) (done : Bool) : Walker Unit :=
  modify fun w =>
    match w.scopes with
    | [] => w
    | names :: rest => { w with scopes := Bindings.insert name done names :: rest }

/-- A name must be new to its scope. -/
def declare (name : Token) : Walker Unit := do
  if Bindings.binds name.lexeme ((← get).scopes.headD []) then
    report name .alreadyDeclared
  markInnermost name.lexeme false

def define (name : Token) : Walker Unit := markInnermost name.lexeme true

def address (ref : Reference) : Walker Reference := do
  let hops := hops? (← get).scopes ref.name.lexeme
  return { ref with hops := hops.map Int.ofNat }

def within {α : Type} (names : Names) (walk : Walker α) : Walker α := do
  modify fun w => { w with scopes := names :: w.scopes }
  let a ← walk
  modify fun w => { w with scopes := w.scopes.tail }
  return a

def withinBody {α : Type} (body : Body) (walk : Walker α) : Walker α := do
  modify fun w => { w with bodies := body :: w.bodies }
  let a ← walk
  modify fun w => { w with bodies := w.bodies.tail }
  return a

def withinClass {α : Type} (family : Family) (walk : Walker α) : Walker α := do
  modify fun w => { w with classes := family :: w.classes }
  let a ← walk
  modify fun w => { w with classes := w.classes.tail }
  return a

/-- Changes what the innermost class is; outside of all classes there is none. -/
def reclass (family : Family) : Walker Unit :=
  modify fun w =>
    match w.classes with
    | [] => w
    | _ :: rest => { w with classes := family :: rest }

/-- A parameter is declared and defined at once. -/
def bindParam (param : Token) : Walker Unit := do
  declare param
  define param

def bindParams : List Token → Walker Unit
  | [] => return
  | param :: rest => do
    bindParam param
    bindParams rest

/-- A name may not be read while the value it is declared with is worked out. -/
def checkRead (name : Token) : Walker Unit := do
  if Bindings.get? name.lexeme ((← get).scopes.headD []) = some false then
    report name .ownInitializer

def addressVariable (ref : Reference) : Walker Reference := do
  checkRead ref.name
  address ref

def addressThis (ref : Reference) : Walker Reference := do
  match (← get).classes with
  | [] =>
    report ref.name .thisOutsideClass
    return { ref with hops := none }
  | _ => address ref

def addressSuper (ref : Reference) : Walker Reference := do
  match (← get).classes with
  | [] =>
    report ref.name .superOutsideClass
    return { ref with hops := none }
  | .base :: _ =>
    report ref.name .superWithoutSuperclass
    return { ref with hops := none }
  | .derived :: _ => address ref

/-- A return belongs into a body, and one with a value not into an initializer. -/
def checkReturn (keyword : Token) (hasValue : Bool) : Walker Unit := do
  match (← get).bodies with
  | [] => report keyword .topLevelReturn
  | .initializer :: _ => if hasValue then report keyword .initializerReturn
  | _ => return

def checkSuperclass (name : Token) (superclass : Reference) : Walker Unit := do
  if superclass.name.lexeme = name.lexeme then
    report superclass.name .selfInheritance

/-! ### The walk -/

mutual

def expr : Expr → Walker Expr
  | .number x => return .number x
  | .string s => return .string s
  | .bool b => return .bool b
  | .nil => return .nil
  | .gap => return .gap
  | .variable ref => return .variable (← addressVariable ref)
  | .assign ref value => do
    let value ← expr value
    return .assign (← address ref) value
  | .unary op operand => return .unary op (← expr operand)
  | .binary op left right => return .binary op (← expr left) (← expr right)
  | .logical op left right => return .logical op (← expr left) (← expr right)
  | .group inner => return .group (← expr inner)
  | .call callee paren args => return .call (← expr callee) paren (← exprs args)
  | .get object name => return .get (← expr object) name
  | .set object name value => do
    let value ← expr value
    return .set (← expr object) name value
  | .this ref => return .this (← addressThis ref)
  | .super ref method => return .super (← addressSuper ref) method
  | .lambda keyword params body =>
    return .lambda keyword params (← withinBody .function (within [] do
      bindParams params
      stmts body))

def exprs : List Expr → Walker (List Expr)
  | [] => return []
  | e :: rest => return (← expr e) :: (← exprs rest)

def stmt : Stmt → Walker Stmt
  | .expr e => return .expr (← expr e)
  | .print e => return .print (← expr e)
  | .var name none => do
    declare name
    define name
    return .var name none
  | .var name (some init) => do
    declare name
    let init ← expr init
    define name
    return .var name (some init)
  | .block body => return .block (← within [] (stmts body))
  | .cond test yes none => return .cond (← expr test) (← stmt yes) none
  | .cond test yes (some no) => return .cond (← expr test) (← stmt yes) (some (← stmt no))
  | .loop test body => return .loop (← expr test) (← stmt body)
  | .function decl => do
    declare decl.name
    define decl.name
    return .function (← function .function decl)
  | .ret keyword none => do
    checkReturn keyword false
    return .ret keyword none
  | .ret keyword (some value) => do
    checkReturn keyword true
    return .ret keyword (some (← expr value))
  | .classDecl name none members =>
    withinClass .base do
      declare name
      define name
      return .classDecl name none (← within [("this", true)] (methods members))
  | .classDecl name (some superclass) members =>
    withinClass .base do
      declare name
      define name
      checkSuperclass name superclass
      reclass .derived
      let superclass ← addressVariable superclass
      return .classDecl name (some superclass)
        (← within [("super", true)] (within [("this", true)] (methods members)))
  | .gap => return .gap

def stmts : List Stmt → Walker (List Stmt)
  | [] => return []
  | s :: rest => return (← stmt s) :: (← stmts rest)

/-- Parameters and body share one scope. -/
def function (kind : Body) : Function → Walker Function
  | ⟨name, params, body⟩ =>
    return ⟨name, params, ← withinBody kind (within [] do
      bindParams params
      stmts body)⟩

def methods : List Function → Walker (List Function)
  | [] => return []
  | f :: rest =>
    return (← function (if f.isInit then .initializer else .method) f) :: (← methods rest)

end

/-- A program with the address of every use, and what is wrong with its names. -/
structure Addressed where
  program : Program
  errors : List ScopeError

/-- Walks a program, wherever the walk stands and whatever it has found before. -/
def resolveProgram (p : Program) : Walker Addressed := do
  set ({} : Walk)
  let body ← stmts p.body
  return { program := ⟨body⟩, errors := (← get).errors }

def resolve (p : Program) : Addressed := (resolveProgram p {}).1

/-- All errors, one to a line. -/
def describe (errors : List ScopeError) : String :=
  String.intercalate "\n" (errors.map (·.description))

end Lox.Scope
