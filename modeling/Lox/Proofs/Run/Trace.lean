import Lox.Proofs.Native.Perform
import Lox.Run.Eval

/-!
Traces of runs. A traced run writes down every moment that it passes through, with the world at that
moment, the calls and bodies that are going on, and the value that has just been worked out, and it
writes down every line that it tries to print and every problem that a native is told of. What is
written down decides nothing: without it a traced run is the run itself.
-/

namespace Lox

/-- What is going on in a run: a call in the program, named by its closing parenthesis, or the body
of a function. -/
inductive Activity where
  | call (paren : Token)
  | body (f : Closure)

/-- The closing parenthesis of the innermost call that is going on. -/
def innermostCall? (going : List Activity) : Option Token :=
  going.findSome? fun
    | .call paren => some paren
    | .body _ => none

structure Moment where
  /-- What is going on, innermost first. -/
  going : List Activity
  world : World
  /-- What an expression or a call has just given. -/
  value : Option Value := none

/-- A line that is to be printed, whether or not it is taken. -/
structure Attempt where
  line : String
  going : List Activity

/-- A call of a native: how many were called before, its name, and what it is shown of its
arguments. -/
structure Asked where
  before : Nat
  name : String
  args : List Appearance

def Asked.reply (asked : Asked) (natives : Natives) : Reply :=
  natives asked.before asked.name asked.args

/-- A problem that a native is told of. -/
structure Notice where
  asked : Asked
  problem : Problem

structure Traced where
  world : World
  /-- The last one first. -/
  moments : List Moment := []
  /-- The first one first. -/
  attempts : List Attempt := []
  /-- The last one first. -/
  told : List Notice := []

abbrev Trace := EStateM Stop Traced

namespace Traced

def reach (s : Traced) (going : List Activity) (world : World) : Traced :=
  { s with world, moments := { going, world } :: s.moments }

def give (s : Traced) (going : List Activity) (v : Value) : Traced :=
  { s with moments := { going, world := s.world, value := some v } :: s.moments }

def attempt (s : Traced) (going : List Activity) (line : String) : Traced :=
  { s with attempts := s.attempts ++ [{ line, going }] }

/-- Of a run that is out of fuel no native is told. -/
def tell (s : Traced) (asked : Asked) (stop : Stop) : Traced :=
  { s with told := (stop.problem?.toList.map fun problem => { asked, problem }) ++ s.told }

end Traced

namespace Trace

variable {α β : Type}

/-- Part of a run that is one moment in the trace. -/
def plain (going : List Activity) (act : Run α) : Trace α := fun s =>
  match act s.world with
  | .ok a world => .ok a (s.reach going world)
  | .error stop world => .error stop (s.reach going world)

def giving (going : List Activity) (act : Trace Value) : Trace Value := do
  let v ← act
  modify (·.give going v)
  return v

def write (sink : Sink) (going : List Activity) (line : String) : Trace Unit := do
  modify (·.attempt going line)
  plain going (Run.write sink line)

def placedAt (token : Token) (act : Trace α) : Trace α := fun s =>
  match act s with
  | .ok a s => .ok a s
  | .error stop s => .error (Run.Stop.placed token stop) s

def deeper (act : Trace α) : Trace α := fun s =>
  match act { s with world := { s.world with depth := s.world.depth + 1 } } with
  | .ok a s => .ok a { s with world := { s.world with depth := s.world.depth - 1 } }
  | .error stop s =>
    .error stop { s with world := { s.world with depth := s.world.depth - 1 } }

/-- A class is bound once for its name to be known, and once more when its methods are made. -/
def declareClass (going : List Activity) (env : Nat) (name : Token) (superclass : Option Reference)
    (methods : List Function) : Trace Unit := do
  match superclass with
  | none =>
    plain going (Run.define env name.lexeme .nil)
    let methods ← plain going (Run.makeMethods env methods [])
    let id ← plain going Run.fresh
    let c : Class := { id, name := name.lexeme, superclass := none, methods }
    plain going (Run.define env name.lexeme (.classObj c))
  | some ref =>
    let parent ← plain going (Run.readSuperclass env ref)
    plain going (Run.define env name.lexeme .nil)
    let inner ← plain going (Run.newFrame env [("super", .classObj parent)])
    let methods ← plain going (Run.makeMethods inner methods [])
    let id ← plain going Run.fresh
    let c : Class := { id, name := name.lexeme, superclass := some parent, methods }
    plain going (Run.define env name.lexeme (.classObj c))

/-! ### Calls -/

def runAll (exec : Stmt → Trace Run.Completion) : List Stmt → Trace Run.Completion
  | [] => return .normal
  | s :: rest => do
    match ← exec s with
    | .returned v => return .returned v
    | .normal => runAll exec rest

def callClosure (body : List Activity → Nat → List Stmt → Trace Run.Completion)
    (going : List Activity) (f : Closure) (args : List Value) : Trace Value :=
  if args.length ≠ f.params.length then
    plain going (Run.fail (.argumentCount f.params.length args.length))
  else do
    let env ← plain going (Run.newFrame f.frame (Run.bindArgs f.params args []))
    let completion ← body (.body f :: going) env f.body
    plain going (Run.answer f completion)

def construct (callInit : Closure → List Value → Trace Value) (going : List Activity) (c : Class)
    (args : List Value) : Trace Value := do
  let id ← plain going Run.newObject
  let object := Value.object id c
  match c.method? initName with
  | none => return object
  | some init =>
    let f ← plain going (Run.bindMethod init object)
    discard (callInit f args)
    return object

/-- A call that a native makes: the native is told what problem the call stops at. -/
def telling (asked : Asked) (act : Trace Value) : Trace Value := fun s =>
  match act s with
  | .ok v s => .ok v s
  | .error stop s => .error stop (s.tell asked stop)

/-- Carries out what a native does. -/
def perform (natives : Natives) (invoke : Callable → List Value → Trace Value) (args : List Value)
    (asked : Asked) : Trace Value :=
  Run.perform (fun f args => telling asked (invoke f args)) args [] (asked.reply natives)

/-- What comes of a call once it is not too deep. -/
def guarded (maxDepth : Nat) (going : List Activity) (paren : Token) (act : Trace Value) :
    Trace Value := do
  if maxDepth ≤ (← get).world.depth then
    plain going (Run.raise paren .stackOverflow)
  else
    placedAt paren (deeper act)

def call (maxDepth : Nat) (invoke : List Activity → Callable → List Value → Trace Value)
    (going : List Activity) (paren : Token) (callee : Value) (args : List Value) : Trace Value :=
  match callee.callable? with
  | none => plain going (Run.raise paren (.notCallable callee.kind))
  | some f =>
    if args.length ≠ f.arity then
      plain going (Run.raise paren (.arity f.arity args.length f.description))
    else
      guarded maxDepth going paren (invoke (.call paren :: going) f args)

/-! ### Evaluation -/

mutual

def eval (m : Machine) : Nat → List Activity → Nat → Expr → Trace Value
  | 0, _, _, _ => throw .outOfFuel
  | n + 1, going, env, e => giving going <|
    match e with
    | .number x => return .number x
    | .string s => return .string s
    | .bool b => return .bool b
    | .nil => return .nil
    | .variable ref => plain going (Run.readRef env ref)
    | .assign ref value => do
      let v ← eval m n going env value
      plain going (Run.assignRef env ref v)
      return v
    | .unary op operand => do
      let v ← eval m n going env operand
      plain going (Run.applyUnary op v)
    | .binary op left right => do
      let a ← eval m n going env left
      let b ← eval m n going env right
      plain going (Run.applyBinary op a b)
    | .logical op left right => do
      let a ← eval m n going env left
      if a.isTruthy = (op.kind = .orKw : Bool) then return a else eval m n going env right
    | .group inner => eval m n going env inner
    | .call callee paren args => do
      let f ← eval m n going env callee
      let vs ← args.mapM (eval m n going env)
      call m.maxDepth (invoke m n) going paren f vs
    | .get object name => do
      let v ← eval m n going env object
      plain going (Run.getMember v name)
    | .set object name value => do
      let o ← eval m n going env object
      let owner ← plain going (Run.fieldOwner o name)
      let v ← eval m n going env value
      plain going (Run.setField owner name.lexeme v)
      return v
    | .this ref => plain going (Run.readRef env ref)
    | .super ref method => plain going (Run.superMethod env ref method)
    | .lambda _ params body => do
      let f ← plain going (Run.makeClosure env "" params body false)
      return .function f
    | .gap => plain going (Run.fail .missingExpression)

def exec (m : Machine) : Nat → List Activity → Nat → Stmt → Trace Run.Completion
  | 0, _, _, _ => throw .outOfFuel
  | n + 1, going, env, s =>
    match s with
    | .expr e => do
      discard (eval m n going env e)
      return .normal
    | .print e => do
      let v ← eval m n going env e
      write m.sink going v.text
      return .normal
    | .var name none => do
      plain going (Run.define env name.lexeme .nil)
      return .normal
    | .var name (some init) => do
      let v ← eval m n going env init
      plain going (Run.define env name.lexeme v)
      return .normal
    | .block body => do
      let inner ← plain going (Run.newFrame env [])
      runAll (exec m n going inner) body
    | .cond test yes no => do
      let v ← eval m n going env test
      if v.isTruthy then exec m n going env yes
      else match no with
        | some s => exec m n going env s
        | none => return .normal
    | .loop test body => do
      let v ← eval m n going env test
      if v.isTruthy then
        match ← exec m n going env body with
        | .returned v => return .returned v
        | .normal => exec m n going env (.loop test body)
      else return .normal
    | .function decl => do
      let f ← plain going (Run.makeClosure env decl.name.lexeme decl.params decl.body false)
      plain going (Run.define env decl.name.lexeme (.function f))
      return .normal
    | .ret _ none => return .returned .nil
    | .ret _ (some value) => return .returned (← eval m n going env value)
    | .classDecl name superclass methods => do
      declareClass going env name superclass methods
      return .normal
    | .gap => plain going (Run.fail .missingStatement)

def invoke (m : Machine) : Nat → List Activity → Callable → List Value → Trace Value
  | 0, _, _, _ => throw .outOfFuel
  | n + 1, going, callee, args => giving going <|
    match callee with
    | .function f => callClosure (fun going env => runAll (exec m n going env)) going f args
    | .native f => do
      let before ← plain going Run.ask
      perform m.natives (invoke m n going) args ⟨before, f.name, args.map (·.appearance)⟩
    | .classObj c =>
      construct (callClosure (fun going env => runAll (exec m n going env)) going) going c args

end

def execTop (m : Machine) : List Stmt → Trace Unit
  | [] => return
  | s :: rest => do
    discard (exec m m.fuel [] Frames.root s)
    execTop m rest

def program (m : Machine) (p : Program) : Trace Unit := do
  plain [] (modify fun w => { w with depth := 0 })
  execTop m p.body

/-! ### How parts of a traced run end -/

/-- The state at the end, however it came. -/
def final : EStateM.Result Stop Traced α → Traced
  | .ok _ s | .error _ s => s

/-- A part that is carried out as it is leaves the world that it leaves without a trace. -/
theorem world_final_plain (going : List Activity) (act : Run α) (s : Traced) :
    (final (plain going act s)).world = Run.final (act s.world) := by
  unfold plain
  cases act s.world <;> rfl

/-- A call is refused if there are as many as the limit, and is carried out one deeper if not. -/
theorem guarded_apply (maxDepth : Nat) (going : List Activity) (paren : Token) (act : Trace Value)
    (s : Traced) : guarded maxDepth going paren act s =
      if maxDepth ≤ s.world.depth then
        .error (.raised paren .stackOverflow) (s.reach going s.world)
      else placedAt paren (deeper act) s := by
  change (if maxDepth ≤ s.world.depth then _ else _ : Trace Value) s = _
  split <;> rfl

/-! ### Without the trace -/

/-- The result of a traced run without its trace. -/
def forget : EStateM.Result Stop Traced α → EStateM.Result Stop World α
  | .ok a s => .ok a s.world
  | .error stop s => .error stop s.world

/-- Without its trace the traced run is the run. -/
structure Erases (traced : Trace α) (act : Run α) : Prop where
  run : ∀ s, forget (traced s) = act s.world

theorem erases_pure (a : α) : Erases (pure a) (pure a) := ⟨fun _ => rfl⟩

theorem erases_throw (stop : Stop) : Erases (throw stop : Trace α) (throw stop) := ⟨fun _ => rfl⟩

/-- A part that is carried out as it is has no trace of its own. -/
theorem erases_plain (going : List Activity) (act : Run α) : Erases (plain going act) act := by
  refine ⟨fun s => ?_⟩
  unfold plain
  split
  · next h => exact h.symm
  · next h => exact h.symm

section Bind

variable {x : Trace α} {y : Run α} {f : α → Trace β} {g : α → Run β}

/-- The trace of two parts is left out by leaving out that of each. -/
theorem Erases.bind (h : Erases x y) (hf : ∀ a, Erases (f a) (g a)) :
    Erases (x >>= f) (y >>= g) := by
  refine ⟨fun s => ?_⟩
  rw [Run.bind_apply, Run.bind_apply, ← h.run s]
  cases x s with
  | ok a t => exact (hf a).run t
  | error stop t => rfl

theorem Erases.discard (h : Erases x y) : Erases (discard x) (discard y) := by
  refine ⟨fun s => ?_⟩
  rw [Run.discard_apply, Run.discard_apply]
  exact (h.bind fun _ => ⟨fun _ => rfl⟩).run s

/-- The trace is left out, whatever problem is met. -/
theorem Erases.attempt (h : Erases x y) : Erases (Run.attempt x) (Run.attempt y) := by
  refine ⟨fun s => ?_⟩
  rw [Run.attempt_apply, Run.attempt_apply, ← h.run s]
  cases x s with
  | ok a t => rfl
  | error stop t =>
    unfold forget
    dsimp only
    cases stop.problem? <;> rfl

/-- To look at the trace is to look at the world in it. -/
theorem erases_get {f : Traced → Trace α} {g : World → Run α}
    (hf : ∀ s, Erases (f s) (g s.world)) : Erases (get >>= f) (get >>= g) :=
  ⟨fun s => (hf s).run s⟩

/-- To write something down changes nothing. -/
theorem erases_modify_bind (change : Traced → Traced) (same : ∀ s, (change s).world = s.world)
    {f : PUnit → Trace α} (hf : Erases (f ()) y) : Erases (modify change >>= f) y := by
  refine ⟨fun s => ?_⟩
  rw [← same s]
  exact hf.run (change s)

/-- What is given is noted and given all the same. -/
theorem erases_giving {act : Trace Value} {act' : Run Value} (going : List Activity)
    (h : Erases act act') : Erases (giving going act) act' := by
  have given : Erases (giving going act) (act' >>= pure) :=
    h.bind fun v => erases_modify_bind (·.give going v) (fun _ => rfl) (erases_pure v)
  rwa [bind_pure] at given

theorem Erases.placedAt (h : Erases x y) (token : Token) :
    Erases (placedAt token x) (Run.placedAt token y) := by
  refine ⟨fun s => ?_⟩
  unfold Trace.placedAt Run.placedAt
  rw [← h.run s]
  cases x s <;> rfl

theorem Erases.deeper (h : Erases x y) : Erases (deeper x) (Run.deeper y) := by
  refine ⟨fun s => ?_⟩
  have inner := h.run { s with world := { s.world with depth := s.world.depth + 1 } }
  unfold Trace.deeper Run.deeper
  rw [← inner]
  cases x { s with world := { s.world with depth := s.world.depth + 1 } } <;> rfl

end Bind

/-- A line that is tried is noted and then written. -/
theorem erases_write (sink : Sink) (going : List Activity) (line : String) :
    Erases (write sink going line) (Run.write sink line) :=
  erases_modify_bind (·.attempt going line) (fun _ => rfl) (erases_plain going _)

/-- To declare a class leaves a trace at each step and does what it does without. -/
theorem erases_declareClass (going : List Activity) (env : Nat) (name : Token)
    (superclass : Option Reference) (methods : List Function) :
    Erases (declareClass going env name superclass methods)
      (Run.declareClass env name superclass methods) := by
  cases superclass with
  | none =>
    exact (erases_plain ..).bind fun _ => (erases_plain ..).bind fun _ =>
      (erases_plain ..).bind fun _ => erases_plain ..
  | some ref =>
    exact (erases_plain ..).bind fun _ => (erases_plain ..).bind fun _ =>
      (erases_plain ..).bind fun _ => (erases_plain ..).bind fun _ =>
        (erases_plain ..).bind fun _ => erases_plain ..

theorem erases_runAll {exec : Stmt → Trace Run.Completion} {exec' : Stmt → Run Run.Completion}
    (h : ∀ s, Erases (exec s) (exec' s)) (body : List Stmt) :
    Erases (runAll exec body) (Run.runAll exec' body) := by
  induction body with
  | nil => exact erases_pure _
  | cons s rest ih =>
    refine (h s).bind fun completion => ?_
    cases completion with
    | returned v => exact erases_pure _
    | normal => exact ih

/-- A body that is carried out in the trace of its call. -/
theorem erases_callClosure {body : List Activity → Nat → List Stmt → Trace Run.Completion}
    {body' : Nat → List Stmt → Run Run.Completion}
    (h : ∀ going env ss, Erases (body going env ss) (body' env ss)) (going : List Activity)
    (f : Closure) (args : List Value) :
    Erases (callClosure body going f args) (Run.callClosure body' f args) := by
  unfold callClosure Run.callClosure
  split
  · exact erases_plain ..
  · exact (erases_plain ..).bind fun env => (h _ env _).bind fun _ => erases_plain ..

/-- An instance is made with its trace. -/
theorem erases_construct {callInit : Closure → List Value → Trace Value}
    {callInit' : Closure → List Value → Run Value}
    (h : ∀ f args, Erases (callInit f args) (callInit' f args)) (going : List Activity) (c : Class)
    (args : List Value) :
    Erases (construct callInit going c args) (Run.construct callInit' c args) := by
  refine (erases_plain ..).bind fun id => ?_
  cases c.method? initName with
  | none => exact erases_pure _
  | some init =>
    exact (erases_plain ..).bind fun f => (h f args).discard.bind fun _ => erases_pure _

/-- What a native is told of is noted, and decides nothing. -/
theorem Erases.telling {traced : Trace Value} {act : Run Value} (h : Erases traced act)
    (asked : Asked) : Erases (telling asked traced) act := by
  refine ⟨fun s => ?_⟩
  unfold Trace.telling
  rw [← h.run s]
  cases traced s <;> rfl

/-- A native leaves a trace in what it calls and in what it is told of, and in nothing else. -/
theorem erases_perform {invoke : Callable → List Value → Trace Value}
    {invoke' : Callable → List Value → Run Value}
    (h : ∀ f args, Erases (invoke f args) (invoke' f args)) (natives : Natives) (args : List Value)
    (asked : Asked) : Erases (perform natives invoke args asked)
      (Run.perform invoke' args [] (asked.reply natives)) :=
  Run.rel_perform erases_pure erases_throw
    (fun f args _ _ next _ => ((h f args).telling asked).attempt.bind next) args [] _
    (Reply.passesOn_none 0 _)

/-- A call is noted while it is going on. -/
theorem erases_call {invoke : List Activity → Callable → List Value → Trace Value}
    {invoke' : Callable → List Value → Run Value}
    (h : ∀ going f args, Erases (invoke going f args) (invoke' f args)) (maxDepth : Nat)
    (going : List Activity) (paren : Token) (callee : Value) (args : List Value) :
    Erases (call maxDepth invoke going paren callee args)
      (Run.call maxDepth invoke' paren callee args) := by
  unfold call Run.call
  cases callee.callable? with
  | none => exact erases_plain ..
  | some f =>
    dsimp only
    split
    · exact erases_plain ..
    · refine erases_get fun s => ?_
      split
      · exact erases_plain ..
      · exact ((h _ f args).deeper).placedAt paren

theorem erases_mapM {eval : Expr → Trace Value} {eval' : Expr → Run Value}
    (h : ∀ e, Erases (eval e) (eval' e)) (es : List Expr) :
    Erases (es.mapM eval) (es.mapM eval') := by
  induction es with
  | nil => exact erases_pure _
  | cons e rest ih =>
    rw [List.mapM_cons, List.mapM_cons]
    exact (h e).bind fun v => ih.bind fun vs => erases_pure _

/-- With so much fuel, the traced evaluation is the evaluation. -/
structure ErasesAll (m : Machine) (n : Nat) : Prop where
  eval : ∀ going env e, Erases (eval m n going env e) (Run.eval m n env e)
  exec : ∀ going env s, Erases (exec m n going env s) (Run.exec m n env s)
  invoke : ∀ going f args, Erases (invoke m n going f args) (Run.invoke m n f args)

section Round

variable {m : Machine} {n : Nat}

/-- One step inward, an expression with its trace left out is the expression. -/
theorem ErasesAll.eval_succ (ih : ErasesAll m n) (going : List Activity) (env : Nat) (e : Expr) :
    Erases (Trace.eval m (n + 1) going env e) (Run.eval m (n + 1) env e) := by
  apply erases_giving
  -- the cases follow `Trace.eval`; the trace adds what is going on and reads nothing of it
  cases e with
  | number | string | bool | nil => exact erases_pure _
  | gap | this | «super» | «variable» => exact erases_plain ..
  | lambda => exact (erases_plain ..).bind fun _ => erases_pure _
  | assign => exact (ih.eval ..).bind fun _ => (erases_plain ..).bind fun _ => erases_pure _
  | unary | get => exact (ih.eval ..).bind fun _ => erases_plain ..
  | binary =>
    exact (ih.eval ..).bind fun _ => (ih.eval ..).bind fun _ => erases_plain ..
  | logical =>
    refine (ih.eval ..).bind fun v => ?_
    split
    · exact erases_pure _
    · exact ih.eval ..
  | group => exact ih.eval ..
  | call callee paren args =>
    exact (ih.eval ..).bind fun _ => (erases_mapM (ih.eval going env) args).bind fun _ =>
      erases_call ih.invoke ..
  | set =>
    exact (ih.eval ..).bind fun _ => (erases_plain ..).bind fun _ => (ih.eval ..).bind fun _ =>
      (erases_plain ..).bind fun _ => erases_pure _

/-- One step inward, a statement with its trace left out is the statement. -/
theorem ErasesAll.exec_succ (ih : ErasesAll m n) (going : List Activity) (env : Nat) (s : Stmt) :
    Erases (Trace.exec m (n + 1) going env s) (Run.exec m (n + 1) env s) := by
  cases s with
  | expr => exact (ih.eval ..).discard.bind fun _ => erases_pure _
  -- only here a line is noted
  | print => exact (ih.eval ..).bind fun _ => (erases_write ..).bind fun _ => erases_pure _
  | var name init =>
    cases init with
    | none => exact (erases_plain ..).bind fun _ => erases_pure _
    | some init =>
      exact (ih.eval ..).bind fun _ => (erases_plain ..).bind fun _ => erases_pure _
  | block body => exact (erases_plain ..).bind fun inner => erases_runAll (ih.exec going inner) body
  | cond test yes no =>
    refine (ih.eval ..).bind fun v => ?_
    split
    · exact ih.exec ..
    · cases no with
      | none => exact erases_pure _
      | some no => exact ih.exec ..
  | loop test body =>
    refine (ih.eval ..).bind fun v => ?_
    split
    · refine (ih.exec ..).bind fun completion => ?_
      cases completion with
      | returned v => exact erases_pure _
      | normal => exact ih.exec ..
    · exact erases_pure _
  | function decl =>
    exact (erases_plain ..).bind fun _ => (erases_plain ..).bind fun _ => erases_pure _
  | ret keyword value =>
    cases value with
    | none => exact erases_pure _
    | some value => exact (ih.eval ..).bind fun _ => erases_pure _
  | classDecl => exact (erases_declareClass ..).bind fun _ => erases_pure _
  | gap => exact erases_plain going (Run.fail .missingStatement)

/-- One step inward, a call with its trace left out is the call. -/
theorem ErasesAll.invoke_succ (ih : ErasesAll m n) (going : List Activity) (f : Callable)
    (args : List Value) :
    Erases (Trace.invoke m (n + 1) going f args) (Run.invoke m (n + 1) f args) := by
  have bodies (going : List Activity) (env : Nat) (body : List Stmt) :
      Erases (runAll (Trace.exec m n going env) body) (Run.runAll (Run.exec m n env) body) :=
    erases_runAll (ih.exec going env) body
  apply erases_giving
  cases f with
  | function f => exact erases_callClosure bodies going f args
  | native f => exact (erases_plain ..).bind fun _ => erases_perform (ih.invoke going) ..
  | classObj c => exact erases_construct (erases_callClosure bodies going) going c args

end Round

/-- Whatever the fuel, the trace makes no difference to evaluation. -/
theorem erasesAll (m : Machine) (n : Nat) : ErasesAll m n := by
  induction n with
  | zero =>
    exact ⟨fun _ _ _ => erases_throw _, fun _ _ _ => erases_throw _, fun _ _ _ => erases_throw _⟩
  | succ n ih => exact ⟨ih.eval_succ, ih.exec_succ, ih.invoke_succ⟩

/-- The trace makes no difference to the statements of a program. -/
theorem erases_execTop (m : Machine) (body : List Stmt) :
    Erases (execTop m body) (Run.execTop m body) := by
  induction body with
  | nil => exact erases_pure _
  | cons s rest ih => exact ((erasesAll m m.fuel).exec ..).discard.bind fun _ => ih

/-- A traced program does what the program does. -/
theorem erases_program (m : Machine) (p : Program) : Erases (program m p) (Run.program m p) :=
  (erases_plain ..).bind fun _ => erases_execTop m p.body

end Trace

end Lox
