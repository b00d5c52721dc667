import Lox.Proofs.Scope.Place

/-!
What is around each part of a program, read off its text. A scope has the names that are declared
directly in it and before the part; the walk over a program, with its stacks and its marks, plays no
role here. A part is found by the way to it, and what stands at the end of the way is a spot.
-/

namespace Lox

/-- The names that a statement declares in the scope it stands in. Its branches and the body of a
loop stand in the same scope. -/
def Stmt.declares : Stmt → List String
  | .var name _ => [name.lexeme]
  | .function decl => [decl.name.lexeme]
  | .classDecl name _ _ => [name.lexeme]
  | .cond _ yes none => yes.declares
  | .cond _ yes (some no) => yes.declares ++ no.declares
  | .loop _ body => body.declares
  | .expr _ | .print _ | .block _ | .ret .. | .gap => []

/-- The reference of a node that uses a name. -/
def Expr.use? : Expr → Option Reference
  | .variable ref | .assign ref _ | .this ref | .super ref _ => some ref
  | _ => none

namespace Scope

/-- What is around a part of a program. Everything is listed with the innermost first. -/
structure Surroundings where
  /-- The names that each scope has. At the outermost level of a program there is no scope. -/
  scopes : List (List String) := []
  /-- The variable whose initializer the part belongs to, with no scope in between. -/
  initializer : Option String := none
  bodies : List Body := []
  classes : List Family := []

/-- A part of a program. -/
inductive Part where
  | program (p : Program)
  | stmt (s : Stmt)
  | expr (e : Expr)
  | method (f : Function)
  /-- The name of a variable, a function, a class or a parameter, where it is declared. -/
  | name (token : Token)
  /-- The superclass clause of a class. -/
  | clause (name : Token) (superclass : Reference)

structure Spot where
  part : Part
  around : Surroundings

/-- The way to a part: at each step the number of the part to go into. -/
abbrev Way := List Nat

/-! ### Surroundings -/

namespace Surroundings

/-- Further on in the innermost scope, behind declarations. -/
def declaring (a : Surroundings) (names : List String) : Surroundings :=
  { a with
    scopes := match a.scopes with
      | [] => []
      | own :: outer => (own ++ names) :: outer }

/-- In the initializer of a variable, which is declared before its value is worked out. -/
def initializing (a : Surroundings) (name : String) : Surroundings :=
  { a.declaring [name] with initializer := some name }

def opening (a : Surroundings) (names : List String) : Surroundings :=
  { a with scopes := names :: a.scopes, initializer := none }

/-- In a scope of a body's own. -/
def inBody (a : Surroundings) (kind : Body) : Surroundings :=
  { a.opening [] with bodies := kind :: a.bodies }

/-- In a class, whose methods see `this`, and behind it `super` if there is a superclass. -/
def inClass (a : Surroundings) : Family → Surroundings
  | .base => { a.opening ["this"] with classes := .base :: a.classes }
  | .derived => { (a.opening ["super"]).opening ["this"] with classes := .derived :: a.classes }

/-- The scope at the distance is the first that has the name. -/
structure IsAddress (a : Surroundings) (name : String) (distance : Nat) : Prop where
  has : ∃ names, a.scopes[distance]? = some names ∧ name ∈ names
  first : ∀ i < distance, ∀ names, a.scopes[i]? = some names → name ∉ names

/-- The use may have an address: `this` only in a class, and `super` only if the innermost class has
a superclass clause. -/
def Admits (a : Surroundings) : Expr → Prop
  | .this _ => a.classes ≠ []
  | .super .. => a.classes.head? = some .derived
  | _ => True

/-! ### What is inside -/

/-- Parameters, each behind those before it. -/
def params (a : Surroundings) (params : List Token) : List Spot :=
  params.mapIdx fun i p => ⟨.name p, a.declaring ((params.take i).map (·.lexeme))⟩

/-- Statements, each behind what those before it declare. -/
def stmts (a : Surroundings) (body : List Stmt) : List Spot :=
  body.mapIdx fun i s => ⟨.stmt s, a.declaring ((body.take i).flatMap Stmt.declares)⟩

/-- Parameters and statements of a body, in one scope. -/
def function (a : Surroundings) (kind : Body) (params : List Token) (body : List Stmt) :
    List Spot :=
  (a.inBody kind).params params ++
    ((a.inBody kind).declaring (params.map (·.lexeme))).stmts body

def methods (a : Surroundings) (family : Family) (members : List Function) : List Spot :=
  members.map fun f => ⟨.method f, a.inClass family⟩

def exprs (a : Surroundings) (es : List Expr) : List Spot := es.map fun e => ⟨.expr e, a⟩

def insideExpr (a : Surroundings) : Expr → List Spot
  | .assign _ value => a.exprs [value]
  | .unary _ operand => a.exprs [operand]
  | .binary _ left right | .logical _ left right => a.exprs [left, right]
  | .group inner => a.exprs [inner]
  | .call callee _ args => a.exprs (callee :: args)
  | .get object _ => a.exprs [object]
  | .set object _ value => a.exprs [object, value]
  | .lambda _ params body => a.function .function params body
  | .number _ | .string _ | .bool _ | .nil | .variable _ | .this _ | .super .. | .gap => []

def insideStmt (a : Surroundings) : Stmt → List Spot
  | .expr e | .print e | .ret _ (some e) => a.exprs [e]
  | .var name none => [⟨.name name, a⟩]
  | .var name (some init) => [⟨.name name, a⟩, ⟨.expr init, a.initializing name.lexeme⟩]
  | .block body => (a.opening []).stmts body
  | .cond test yes none => [⟨.expr test, a⟩, ⟨.stmt yes, a⟩]
  | .cond test yes (some no) =>
    [⟨.expr test, a⟩, ⟨.stmt yes, a⟩, ⟨.stmt no, a.declaring yes.declares⟩]
  | .loop test body => [⟨.expr test, a⟩, ⟨.stmt body, a⟩]
  | .function decl =>
    ⟨.name decl.name, a⟩ ::
      (a.declaring [decl.name.lexeme]).function .function decl.params decl.body
  | .classDecl name none members =>
    ⟨.name name, a⟩ :: (a.declaring [name.lexeme]).methods .base members
  | .classDecl name (some superclass) members =>
    ⟨.name name, a⟩ :: ⟨.clause name superclass, a.declaring [name.lexeme]⟩ ::
      ⟨.expr (.variable superclass), a.declaring [name.lexeme]⟩ ::
        (a.declaring [name.lexeme]).methods .derived members
  | .ret _ none | .gap => []

end Surroundings

namespace Spot

/-- The parts directly inside. -/
def inside : Spot → List Spot
  | ⟨.program p, a⟩ => a.stmts p.body
  | ⟨.stmt s, a⟩ => a.insideStmt s
  | ⟨.expr e, a⟩ => a.insideExpr e
  | ⟨.method f, a⟩ => a.function (methodBody f) f.params f.body
  | ⟨.name _, _⟩ | ⟨.clause .., _⟩ => []

/-- The spot at the end of a way. -/
def at? (x : Spot) : Way → Option Spot
  | [] => some x
  | i :: way => (x.inside[i]?).bind (·.at? way)

/-- What can be wrong with a part where it stands. -/
inductive Offends : Spot → ScopeError → Prop
  /-- A return that is in no body. -/
  | topLevelReturn {keyword : Token} {value : Option Expr} {a : Surroundings} : a.bodies = [] →
      Offends ⟨.stmt (.ret keyword value), a⟩ ⟨keyword, .topLevelReturn⟩
  /-- A return with a value, and the innermost body is an initializer's. -/
  | initializerReturn {keyword : Token} {value : Expr} {a : Surroundings} :
      a.bodies.head? = some .initializer →
      Offends ⟨.stmt (.ret keyword (some value)), a⟩ ⟨keyword, .initializerReturn⟩
  /-- A superclass clause that names its own class. -/
  | selfInheritance {name : Token} {superclass : Reference} {a : Surroundings} :
      superclass.name.lexeme = name.lexeme →
      Offends ⟨.clause name superclass, a⟩ ⟨superclass.name, .selfInheritance⟩
  /-- A declaration of a name that the innermost scope has already. -/
  | alreadyDeclared {name : Token} {names : List String} {a : Surroundings} :
      a.scopes.head? = some names → name.lexeme ∈ names →
      Offends ⟨.name name, a⟩ ⟨name, .alreadyDeclared⟩
  /-- A variable that is read in its own initializer, with no scope in between. -/
  | ownInitializer {ref : Reference} {a : Surroundings} : a.scopes ≠ [] →
      a.initializer = some ref.name.lexeme →
      Offends ⟨.expr (.variable ref), a⟩ ⟨ref.name, .ownInitializer⟩
  | thisOutsideClass {ref : Reference} {a : Surroundings} : a.classes = [] →
      Offends ⟨.expr (.this ref), a⟩ ⟨ref.name, .thisOutsideClass⟩
  | superOutsideClass {ref : Reference} {method : Token} {a : Surroundings} : a.classes = [] →
      Offends ⟨.expr (.super ref method), a⟩ ⟨ref.name, .superOutsideClass⟩
  /-- `super`, and the innermost class has no superclass clause. -/
  | superWithoutSuperclass {ref : Reference} {method : Token} {a : Surroundings} :
      a.classes.head? = some .base →
      Offends ⟨.expr (.super ref method), a⟩ ⟨ref.name, .superWithoutSuperclass⟩

end Spot

/-! ### How surroundings go on -/

namespace Surroundings

variable {a : Surroundings}

@[simp] theorem declaring_nil : a.declaring [] = a := by
  obtain ⟨scopes, initializer, bodies, classes⟩ := a
  cases scopes <;> simp [declaring]

/-- Names that are declared one after the other are declared together. -/
@[simp] theorem declaring_declaring {names more : List String} :
    (a.declaring names).declaring more = a.declaring (names ++ more) := by
  obtain ⟨scopes, initializer, bodies, classes⟩ := a
  cases scopes <;> simp [declaring]

@[simp] theorem params_nil : a.params [] = [] := rfl

@[simp] theorem stmts_nil : a.stmts [] = [] := rfl

/-- Each parameter is declared before the next is looked at. -/
theorem params_cons {p : Token} {rest : List Token} :
    a.params (p :: rest) = ⟨.name p, a⟩ :: (a.declaring [p.lexeme]).params rest := by
  simp [params, List.mapIdx_cons]

/-- Each statement declares its names before the next is looked at. -/
theorem stmts_cons {s : Stmt} {rest : List Stmt} :
    a.stmts (s :: rest) = ⟨.stmt s, a⟩ :: (a.declaring s.declares).stmts rest := by
  simp [stmts, List.mapIdx_cons]

end Surroundings

end Scope

/-- The whole of a program, with nothing around it. -/
def Program.spot (p : Program) : Scope.Spot := ⟨.program p, {}⟩

end Lox
