import Lox.Run.Member
import Lox.Run.Operator

/-!
Evaluation. Programs may run for ever, so evaluation is by fuel: a step inward and a round of a loop
take one unit each, and a run that has none left stops as such and not as a fault.
-/

namespace Lox.Run

mutual

/-- The value of an expression in a frame. -/
def eval (m : Machine) : Nat → Nat → Expr → Run Value
  | 0, _, _ => throw .outOfFuel
  | n + 1, env, e =>
    match e with
    | .number x => return .number x
    | .string s => return .string s
    | .bool b => return .bool b
    | .nil => return .nil
    | .variable ref => readRef env ref
    | .assign ref value => do
      let v ← eval m n env value
      assignRef env ref v
      return v
    | .unary op operand => do
      let v ← eval m n env operand
      applyUnary op v
    | .binary op left right => do
      let a ← eval m n env left
      let b ← eval m n env right
      applyBinary op a b
    | .logical op left right => do
      let a ← eval m n env left
      if a.isTruthy = (op.kind = .orKw : Bool) then return a else eval m n env right
    | .group inner => eval m n env inner
    | .call callee paren args => do
      let f ← eval m n env callee
      let vs ← args.mapM (eval m n env)
      call m.maxDepth (invoke m n) paren f vs
    | .get object name => do
      let v ← eval m n env object
      getMember v name
    | .set object name value => do
      let owner ← fieldOwner (← eval m n env object) name
      let v ← eval m n env value
      setField owner name.lexeme v
      return v
    | .this ref => readRef env ref
    | .super ref method => superMethod env ref method
    | .lambda _ params body => return .function (← makeClosure env "" params body false)
    | .gap => fail .missingExpression

/-- Carries out a statement in a frame. -/
def exec (m : Machine) : Nat → Nat → Stmt → Run Completion
  | 0, _, _ => throw .outOfFuel
  | n + 1, env, s =>
    match s with
    | .expr e => do
      discard (eval m n env e)
      return .normal
    | .print e => do
      let v ← eval m n env e
      write m.sink v.text
      return .normal
    | .var name none => do
      define env name.lexeme .nil
      return .normal
    | .var name (some init) => do
      let v ← eval m n env init
      define env name.lexeme v
      return .normal
    | .block body => do
      let inner ← newFrame env []
      runAll (exec m n inner) body
    | .cond test yes no => do
      let v ← eval m n env test
      if v.isTruthy then exec m n env yes
      else match no with
        | some s => exec m n env s
        | none => return .normal
    | .loop test body => do
      let v ← eval m n env test
      if v.isTruthy then
        match ← exec m n env body with
        | .returned v => return .returned v
        | .normal => exec m n env (.loop test body)
      else return .normal
    | .function decl => do
      let f ← makeClosure env decl.name.lexeme decl.params decl.body false
      define env decl.name.lexeme (.function f)
      return .normal
    | .ret _ none => return .returned .nil
    | .ret _ (some value) => return .returned (← eval m n env value)
    | .classDecl name superclass methods => do
      declareClass env name superclass methods
      return .normal
    | .gap => fail .missingStatement

/-- Calls something with arguments. -/
def invoke (m : Machine) : Nat → Callable → List Value → Run Value
  | 0, _, _ => throw .outOfFuel
  | n + 1, callee, args =>
    match callee with
    | .function f => callClosure (fun env => runAll (exec m n env)) f args
    | .native f => do
      let before ← ask
      perform (invoke m n) args [] (m.natives before f.name (args.map (·.appearance)))
    | .classObj c => construct (callClosure fun env => runAll (exec m n env)) c args

end

/-- Top-level statements in turn; a return at top level ends nothing. -/
def execTop (m : Machine) : List Stmt → Run Unit
  | [] => return
  | s :: rest => do
    discard (exec m m.fuel Frames.root s)
    execTop m rest

/-- Runs a program at the outermost level, with no calls going on. -/
def program (m : Machine) (p : Program) : Run Unit := do
  modify fun w => { w with depth := 0 }
  execTop m p.body

end Lox.Run
