import Lox.Proofs.Run.Globals
import Lox.Proofs.Scope.Place

/-!
Runs with a ledger. Whatever a run does is entered with what it is done for and with the frames
before and after, and every top-level statement that has been carried out is entered too. The ledger
decides nothing: without it the run is the run itself.
-/

namespace Lox

open Scope

/-- What a step of a run is for. -/
inductive Cause where
  /-- A native is lent. -/
  | lend (name : String)
  /-- A variable, a function or a class is bound; `direct` if its declaration stands directly at the
  top level of a program. -/
  | declaration (direct : Bool) (name : String)
  | assignment
  /-- The scope of a block is made. -/
  | block
  /-- The scope of a call is made, with its parameters. -/
  | parameters
  /-- The scope of a method is made, with its instance. -/
  | receiver
  | other

/-- What a step may do to the globals. -/
def Cause.Allows (before after : Frames Value) : Cause → Prop
  | .lend name | .declaration true name => before.BindsGlobal name after
  | .assignment => before.SameGlobalNames after
  | _ => before.SameGlobals after

/-- The name that a step may bind among the globals. -/
def Cause.opens? : Cause → Option String
  | .lend name | .declaration true name => some name
  | _ => none

/-- What a statement declares. -/
def Stmt.declared? : Stmt → Option String
  | .var name _ | .classDecl name _ _ => some name.lexeme
  | .function decl => some decl.name.lexeme
  | _ => none

structure Entry where
  cause : Cause
  before : Frames Value
  after : Frames Value
  /-- The natives lent before the step. -/
  lent : List String
  /-- What completed top-level statements declared before the step. -/
  completed : List String

/-- A world with all that was done to it. -/
structure Book where
  world : World
  lent : List String := []
  completed : List String := []
  /-- The last one first. -/
  entries : List Entry := []

namespace Book

def enter (s : Book) (cause : Cause) (world : World) : Book :=
  { s with
    world
    entries :=
      { cause, before := s.world.frames, after := world.frames, lent := s.lent,
        completed := s.completed } :: s.entries }

/-- A top-level statement has been carried out. -/
def complete (s : Book) (stmt : Stmt) : Book :=
  { s with completed := s.completed ++ stmt.declared?.toList }

end Book

abbrev Ledger := EStateM Stop Book

namespace Ledger

variable {α β : Type}

/-- Part of a run that is one step in the ledger. -/
def step (cause : Cause) (act : Run α) : Ledger α := fun s =>
  match act s.world with
  | .ok a world => .ok a (s.enter cause world)
  | .error stop world => .error stop (s.enter cause world)

def placedAt (token : Token) (act : Ledger α) : Ledger α := fun s =>
  match act s with
  | .ok a s => .ok a s
  | .error stop s => .error (Run.Stop.placed token stop) s

def deeper (act : Ledger α) : Ledger α := fun s =>
  match act { s with world := { s.world with depth := s.world.depth + 1 } } with
  | .ok a s => .ok a { s with world := { s.world with depth := s.world.depth - 1 } }
  | .error stop s =>
    .error stop { s with world := { s.world with depth := s.world.depth - 1 } }

/-- Once the superclass is known, nothing is evaluated any more and nothing can go wrong: to bind
the class is one step. -/
def declareClass (direct : Bool) (env : Nat) (name : Token) (superclass : Option Reference)
    (methods : List Function) : Ledger Unit := do
  match superclass with
  | none =>
    step (.declaration direct name.lexeme) (Run.bindClass env name none methods)
  | some ref =>
    let parent ← step .other (Run.readSuperclass env ref)
    step (.declaration direct name.lexeme) (Run.bindClass env name (some parent) methods)

/-! ### Calls -/

def runAll (exec : Stmt → Ledger Run.Completion) : List Stmt → Ledger Run.Completion
  | [] => return .normal
  | s :: rest => do
    match ← exec s with
    | .returned v => return .returned v
    | .normal => runAll exec rest

def callClosure (body : Nat → List Stmt → Ledger Run.Completion) (f : Closure)
    (args : List Value) : Ledger Value :=
  if args.length ≠ f.params.length then
    step .other (Run.fail (.argumentCount f.params.length args.length))
  else do
    let env ← step .parameters (Run.newFrame f.frame (Run.bindArgs f.params args []))
    let completion ← body env f.body
    step .other (Run.answer f completion)

def construct (callInit : Closure → List Value → Ledger Value) (c : Class) (args : List Value) :
    Ledger Value := do
  let object := Value.object (← step .other Run.newObject) c
  match c.method? initName with
  | none => return object
  | some init =>
    let f ← step .receiver (Run.bindMethod init object)
    discard (callInit f args)
    return object

def call (maxDepth : Nat) (invoke : Callable → List Value → Ledger Value) (paren : Token)
    (callee : Value) (args : List Value) : Ledger Value := do
  match callee.callable? with
  | none => step .other (Run.raise paren (.notCallable callee.kind))
  | some f =>
    if args.length ≠ f.arity then
      step .other (Run.raise paren (.arity f.arity args.length f.description))
    else if maxDepth ≤ (← get).world.depth then
      step .other (Run.raise paren .stackOverflow)
    else
      placedAt paren (deeper (invoke f args))

/-! ### Evaluation -/

mutual

def eval (m : Machine) : Nat → Nat → Expr → Ledger Value
  | 0, _, _ => throw .outOfFuel
  | n + 1, env, e =>
    match e with
    | .number x => return .number x
    | .string s => return .string s
    | .bool b => return .bool b
    | .nil => return .nil
    | .variable ref => step .other (Run.readRef env ref)
    | .assign ref value => do
      let v ← eval m n env value
      step .assignment (Run.assignRef env ref v)
      return v
    | .unary op operand => do
      let v ← eval m n env operand
      step .other (Run.applyUnary op v)
    | .binary op left right => do
      let a ← eval m n env left
      let b ← eval m n env right
      step .other (Run.applyBinary op a b)
    | .logical op left right => do
      let a ← eval m n env left
      if a.isTruthy = (op.kind = .orKw : Bool) then return a else eval m n env right
    | .group inner => eval m n env inner
    | .call callee paren args => do
      let f ← eval m n env callee
      let vs ← args.mapM (eval m n env)
      call m.maxDepth (invoke m n) paren f vs
    | .get object name => do
      let v ← eval m n env object
      step .receiver (Run.getMember v name)
    | .set object name value => do
      let o ← eval m n env object
      let owner ← step .other (Run.fieldOwner o name)
      let v ← eval m n env value
      step .other (Run.setField owner name.lexeme v)
      return v
    | .this ref => step .other (Run.readRef env ref)
    | .super ref method => step .receiver (Run.superMethod env ref method)
    | .lambda _ params body => do
      let f ← step .other (Run.makeClosure env "" params body false)
      return .function f
    | .gap => step .other (Run.fail .missingExpression)

/-- Carries out a statement; `direct` if it stands directly at the top level. -/
def exec (m : Machine) : Nat → Bool → Nat → Stmt → Ledger Run.Completion
  | 0, _, _, _ => throw .outOfFuel
  | n + 1, direct, env, s =>
    match s with
    | .expr e => do
      discard (eval m n env e)
      return .normal
    | .print e => do
      let v ← eval m n env e
      step .other (Run.write m.sink v.text)
      return .normal
    | .var name none => do
      step (.declaration direct name.lexeme) (Run.define env name.lexeme .nil)
      return .normal
    | .var name (some init) => do
      let v ← eval m n env init
      step (.declaration direct name.lexeme) (Run.define env name.lexeme v)
      return .normal
    | .block body => do
      let inner ← step .block (Run.newFrame env [])
      runAll (exec m n false inner) body
    | .cond test yes no => do
      let v ← eval m n env test
      if v.isTruthy then exec m n false env yes
      else match no with
        | some s => exec m n false env s
        | none => return .normal
    | .loop test body => do
      let v ← eval m n env test
      if v.isTruthy then
        match ← exec m n false env body with
        | .returned v => return .returned v
        | .normal => exec m n direct env (.loop test body)
      else return .normal
    | .function decl => do
      let f ← step .other
        (Run.makeClosure env decl.name.lexeme decl.params decl.body false)
      step (.declaration direct decl.name.lexeme) (Run.define env decl.name.lexeme (.function f))
      return .normal
    | .ret _ none => return .returned .nil
    | .ret _ (some value) => return .returned (← eval m n env value)
    | .classDecl name superclass methods => do
      declareClass direct env name superclass methods
      return .normal
    | .gap => step .other (Run.fail .missingStatement)

def invoke (m : Machine) : Nat → Callable → List Value → Ledger Value
  | 0, _, _ => throw .outOfFuel
  | n + 1, callee, args =>
    match callee with
    | .function f => callClosure (fun env => runAll (exec m n false env)) f args
    | .native f => do
      let before ← step .other Run.ask
      Run.perform (invoke m n) args [] (m.natives before f.name (args.map (·.appearance)))
    | .classObj c => construct (callClosure fun env => runAll (exec m n false env)) c args

end

/-- A statement counts as completed once it has been carried out, and not if it stops. -/
def execTop (m : Machine) : List Stmt → Ledger Unit
  | [] => return
  | s :: rest => do
    discard (exec m m.fuel true Frames.root s)
    modify (·.complete s)
    execTop m rest

def program (m : Machine) (p : Program) : Ledger Unit := do
  step .other (modify fun w => { w with depth := 0 })
  execTop m p.body

/-! ### How parts end -/

/-- The state at the end, however it came. -/
def final : EStateM.Result Stop Book α → Book
  | .ok _ s | .error _ s => s

/-- The result without the ledger. -/
def forget : EStateM.Result Stop Book α → EStateM.Result Stop World α
  | .ok a s => .ok a s.world
  | .error stop s => .error stop s.world

end Ledger

end Lox
