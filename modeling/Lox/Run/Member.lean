import Lox.Run.World

/-!
Names, members and calls: the parts of evaluation that evaluate nothing themselves.
-/

namespace Lox.Run

/-! ### Names -/

/-- The value of a name: in the frame that its address gives, or among the globals. -/
def readRef (env : Nat) (ref : Reference) : Run Value := do
  let frames := (← get).frames
  let found := match ref.hops with
    | some d => frames.getAt? env d ref.name.lexeme
    | none => frames.get? Frames.root ref.name.lexeme
  match found with
  | some v => return v
  | none => raise ref.name (.undefinedVariable ref.name.lexeme)

/-- Assignment changes a name that is bound, and binds none. -/
def assignRef (env : Nat) (ref : Reference) (v : Value) : Run Unit := do
  let frames := (← get).frames
  let target := match ref.hops with
    | some d => frames.frameAt? env d ref.name.lexeme
    | none => frames.nearest? Frames.root ref.name.lexeme
  match target with
  | some e => define e ref.name.lexeme v
  | none => raise ref.name (.undefinedVariable ref.name.lexeme)

/-! ### Functions and methods -/

def makeClosure (env : Nat) (name : String) (params : List Token) (body : List Stmt)
    (isInit : Bool) : Run Closure :=
  return { id := ← fresh, name, params, body, frame := env, isInit }

/-- A method of an instance: a copy that sees the instance as `this`. -/
def bindMethod (method : Closure) (object : Value) : Run Closure := do
  let frame ← newFrame method.frame [("this", object)]
  return { method with id := ← fresh, frame }

/-- Makes the methods of a class; of two with one name the later counts. -/
def makeMethods (env : Nat) : List Function → Bindings Closure → Run (Bindings Closure)
  | [], methods => return methods
  | f :: rest, methods => do
    let method ← makeClosure env f.name.lexeme f.params f.body f.isInit
    makeMethods env rest (Bindings.insert f.name.lexeme method methods)

/-- The value of a superclass clause, which has to be a class. -/
def readSuperclass (env : Nat) (superclass : Reference) : Run Class := do
  match ← readRef env superclass with
  | .classObj c => return c
  | _ => raise superclass.name .superclassKind

/-- The name stands for nothing yet while its methods are made. -/
def declareClass (env : Nat) (name : Token) (superclass : Option Reference)
    (methods : List Function) : Run Unit := do
  match superclass with
  | none =>
    define env name.lexeme .nil
    let methods ← makeMethods env methods []
    let c : Class := { id := ← fresh, name := name.lexeme, superclass := none, methods }
    define env name.lexeme (.classObj c)
  | some ref =>
    let parent ← readSuperclass env ref
    define env name.lexeme .nil
    let inner ← newFrame env [("super", .classObj parent)]
    let methods ← makeMethods inner methods []
    let c : Class := { id := ← fresh, name := name.lexeme, superclass := some parent, methods }
    define env name.lexeme (.classObj c)

/-! ### Members -/

/-- A field comes before a method of its name. -/
def getMember (object : Value) (name : Token) : Run Value := do
  match object with
  | .object id c =>
    match ← field? id name.lexeme with
    | some v => return v
    | none =>
      match c.method? name.lexeme with
      | some method => return .function (← bindMethod method object)
      | none => raise name (.undefinedProperty name.lexeme)
  | _ => raise name (.noProperties object.kind)

/-- The number of an instance whose field is to be set. -/
def fieldOwner (object : Value) (name : Token) : Run Nat :=
  match object with
  | .object id _ => return id
  | _ => raise name (.noFields object.kind)

/-- A name `hops` frames outward, which the place of `super` promises. -/
def readAround (env : Nat) (hops : Int) (keyword : Token) (name : String) : Run Value := do
  match (← get).frames.getAt? env hops name with
  | some v => return v
  | none => raise keyword (.undefinedVariable name)

/-- A method of the class that was the superclass when the class was declared, for the instance at
hand; `this` lies one frame inside `super`. -/
def superMethod (env : Nat) (ref : Reference) (method : Token) : Run Value := do
  match ref.hops with
  | none => raise ref.name .superOutsideClass
  | some hops =>
    match ← readAround env hops ref.name "super" with
    | .classObj c =>
      let object ← readAround env (hops - 1) ref.name "this"
      match object with
      | .object _ _ =>
        match c.method? method.lexeme with
        | some f => return .function (← bindMethod f object)
        | none => raise method (.undefinedProperty method.lexeme)
      | _ => raise ref.name .superWithoutInstance
    | _ => raise ref.name .superclassKind

/-! ### Calls -/

/-- How a statement ends. -/
inductive Completion where
  | normal
  | returned (v : Value)

/-- Statements in turn, up to the first return. -/
def runAll (exec : Stmt → Run Completion) : List Stmt → Run Completion
  | [] => return .normal
  | s :: rest => do
    match ← exec s with
    | .returned v => return .returned v
    | .normal => runAll exec rest

/-- Parameters with their arguments; of two with one name the later counts. -/
def bindArgs : List Token → List Value → Bindings Value → Bindings Value
  | p :: params, v :: args, bindings => bindArgs params args (Bindings.insert p.lexeme v bindings)
  | _, _, bindings => bindings

/-- What a call gives: an initializer answers its instance, however it ends. -/
def answer (f : Closure) (completion : Completion) : Run Value := do
  if f.isInit then
    match (← get).frames.getAt? f.frame 0 "this" with
    | some v => return v
    | none => fail (.undefinedVariable "this")
  else
    match completion with
    | .returned v => return v
    | .normal => return .nil

/-- Runs a function's body in a new frame. -/
def callClosure (body : Nat → List Stmt → Run Completion) (f : Closure) (args : List Value) :
    Run Value :=
  if args.length ≠ f.params.length then fail (.argumentCount f.params.length args.length)
  else do
    let env ← newFrame f.frame (bindArgs f.params args [])
    let completion ← body env f.body
    answer f completion

/-- Makes an instance and runs its initializer. -/
def construct (callInit : Closure → List Value → Run Value) (c : Class) (args : List Value) :
    Run Value := do
  let object := Value.object (← newObject) c
  match c.method? initName with
  | none => return object
  | some init =>
    discard (callInit (← bindMethod init object) args)
    return object

section Natives

variable {σ : Type}

/-- A call that a native asks for. What cannot be called is not called. -/
def request (invoke : Callable → List Value → EStateM Stop σ Value) (callee : Value)
    (args : List Value) : EStateM Stop σ (Except Problem Value) :=
  match callee.callable? with
  | some f => attempt (invoke f args)
  | none => return .error ⟨none, .notCallable callee.kind⟩

/-- Carries out what a native does, with the values that it was given and the problems that it met.
To pass on a problem that was not met is to answer nothing. -/
def perform (invoke : Callable → List Value → EStateM Stop σ Value) :
    List Value → List Problem → Reply → EStateM Stop σ Value
  | given, _, .answer d => return d.value given
  | _, _, .fail message => throw (.unplaced (.native message))
  | _, met, .pass i =>
    match met[i]? with
    | some problem => throw problem.stop
    | none => return .absent
  | given, met, .call callee args resume => do
    match ← request invoke (callee.value given) (args.map (·.value given)) with
    | .ok v => perform invoke (given ++ [v]) met (resume (.ok v.appearance))
    | .error problem => perform invoke given (met ++ [problem]) (resume (.error problem.mishap))

end Natives

/-- A call in a program: what is called has to be callable, to take so many arguments, and to be not
too deep. A fault inside that has no place yet belongs to the call. -/
def call (maxDepth : Nat) (invoke : Callable → List Value → Run Value) (paren : Token)
    (callee : Value) (args : List Value) : Run Value := do
  match callee.callable? with
  | none => raise paren (.notCallable callee.kind)
  | some f =>
    if args.length ≠ f.arity then
      raise paren (.arity f.arity args.length f.description)
    else if maxDepth ≤ (← get).depth then
      raise paren .stackOverflow
    else
      placedAt paren (deeper (invoke f args))

end Lox.Run
