import Lox.Proofs.Native.Perform
import Lox.Proofs.Scope.Place
import Lox.Session

/-!
Evaluation under watch. A watched run takes notes: which scope every frame was made for, where every
function stands, which declarations are complete in which frame, which superclass every class got
and which instance every method is bound to, and every use of a name or of `super` with all that is
known at that moment. The notes decide nothing: without them a watched run is the run itself.
-/

namespace Lox

open Scope

/-- The evaluation of a name, or of an assignment to one. -/
structure Use where
  place : Place
  isAssignment : Bool
  ref : Reference
  /-- The frame in which the use is evaluated. -/
  env : Nat
  frames : Frames Value
  labels : List Place
  completed : List (Nat × Place)

/-- A class with a superclass, as its declaration was carried out. -/
structure Heir where
  /-- Where the class is declared. -/
  place : Place
  /-- What the superclass clause gave. -/
  superclass : Class
  /-- The frame that binds `super` for its methods. -/
  frame : Nat

/-- The evaluation of a method of the superclass. -/
structure Lookup where
  place : Place
  ref : Reference
  method : Token
  /-- The frame in which the method is looked up. -/
  env : Nat
  world : World

structure Notes where
  /-- The scope of every frame, by its number; the outermost frame stands outside of all. -/
  labels : List Place := [[]]
  /-- The places of functions, by their identities. -/
  origins : List (Nat × Place) := []
  /-- The frames and places of the initializers of variables that are declared. -/
  completed : List (Nat × Place) := []
  heirs : List Heir := []
  /-- The frames that bind `this` for a method, each with the value it was bound to. -/
  received : List (Nat × Value) := []
  uses : List Use := []
  lookups : List Lookup := []
  /-- Why the calls that natives made stopped, those that did. -/
  told : List Stop := []

namespace Notes

def label (n : Notes) (place : Place) : Notes := { n with labels := n.labels ++ [place] }

def originate (n : Notes) (id : Nat) (place : Place) : Notes :=
  { n with origins := (id, place) :: n.origins }

def origin (n : Notes) (id : Nat) : Place := (n.origins.lookup id).getD []

def complete (n : Notes) (env : Nat) (place : Place) : Notes :=
  { n with completed := (env, place) :: n.completed }

def inherit (n : Notes) (heir : Heir) : Notes := { n with heirs := heir :: n.heirs }

def receive (n : Notes) (env : Nat) (object : Value) : Notes :=
  { n with received := (env, object) :: n.received }

/-- The scope of the instance that a method belongs to. -/
def thisScope (n : Notes) (method : Nat) : Place := (enclosing (n.origin method)).headD []

end Notes

structure Watched where
  world : World
  notes : Notes

abbrev Watch := EStateM Stop Watched

namespace Watch

variable {α β : Type}

/-- Part of a run that needs no notes. -/
def plain (act : Run α) : Watch α := fun s =>
  match act s.world with
  | .ok a world => .ok a { s with world }
  | .error stop world => .error stop { s with world }

def note (change : World → Notes → Notes) : Watch Unit := fun s =>
  .ok () { s with notes := change s.world s.notes }

/-- Part of a run, and then a note on its result. -/
def noting (act : Run α) (change : α → Notes → Notes) : Watch α := do
  let a ← plain act
  note fun _ => change a
  return a

def placedAt (token : Token) (act : Watch α) : Watch α := fun s =>
  match act s with
  | .ok a s => .ok a s
  | .error stop s => .error (Run.Stop.placed token stop) s

def deeper (act : Watch α) : Watch α := fun s =>
  match act { s with world := { s.world with depth := s.world.depth + 1 } } with
  | .ok a s => .ok a { s with world := { s.world with depth := s.world.depth - 1 } }
  | .error stop s =>
    .error stop { s with world := { s.world with depth := s.world.depth - 1 } }

/-! ### Names -/

def noteUse (env : Nat) (place : Place) (isAssignment : Bool) (ref : Reference) : Watch Unit :=
  note fun w n =>
    { n with uses := { place, isAssignment, ref, env, frames := w.frames, labels := n.labels,
                       completed := n.completed } :: n.uses }

def readRef (env : Nat) (place : Place) (ref : Reference) : Watch Value := do
  noteUse env place false ref
  plain (Run.readRef env ref)

def assignRef (env : Nat) (place : Place) (ref : Reference) (v : Value) : Watch Unit := do
  noteUse env place true ref
  plain (Run.assignRef env ref v)

/-! ### Functions and methods -/

def newFrame (scope : Place) (parent : Nat) (bindings : Bindings Value) : Watch Nat :=
  noting (Run.newFrame parent bindings) fun _ n => n.label scope

/-- An identity for a function that stands at the place. -/
def freshAt (place : Place) : Watch Nat :=
  noting Run.fresh fun id n => n.originate id place

def makeClosure (place : Place) (env : Nat) (name : String) (params : List Token)
    (body : List Stmt) (isInit : Bool) : Watch Closure :=
  return { id := ← freshAt place, name, params, body, frame := env, isInit }

/-- The copy stands where the method does, inside a frame of its own for the instance. -/
def bindMethod (method : Closure) (object : Value) : Watch Closure := do
  let notes := (← get).notes
  let frame ← noting (Run.newFrame method.frame [("this", object)]) fun e n =>
    (n.label (notes.thisScope method.id)).receive e object
  return { method with id := ← freshAt (notes.origin method.id), frame }

def makeMethods (env : Nat) (place : Place) :
    Nat → List Function → Bindings Closure → Watch (Bindings Closure)
  | _, [], methods => return methods
  | i, f :: rest, methods => do
    let method ← makeClosure (.part i :: place) env f.name.lexeme f.params f.body f.isInit
    makeMethods env place (i + 1) rest (Bindings.insert f.name.lexeme method methods)

def readSuperclass (env : Nat) (place : Place) (superclass : Reference) : Watch Class := do
  match ← readRef env place superclass with
  | .classObj c => return c
  | _ => plain (Run.raise superclass.name .superclassKind)

def declareClass (env : Nat) (place : Place) (name : Token) (superclass : Option Reference)
    (methods : List Function) : Watch Unit := do
  match superclass with
  | none =>
    plain (Run.define env name.lexeme .nil)
    let methods ← makeMethods env (.this :: place) 0 methods []
    let id ← plain Run.fresh
    let c : Class := { id, name := name.lexeme, superclass := none, methods }
    plain (Run.define env name.lexeme (.classObj c))
  | some ref =>
    let parent ← readSuperclass env (.part 0 :: place) ref
    plain (Run.define env name.lexeme .nil)
    let inner ← noting (Run.newFrame env [("super", .classObj parent)]) fun e n =>
      (n.label (.super :: place)).inherit { place, superclass := parent, frame := e }
    let methods ← makeMethods inner (.this :: .super :: place) 0 methods []
    let id ← plain Run.fresh
    let c : Class := { id, name := name.lexeme, superclass := some parent, methods }
    plain (Run.define env name.lexeme (.classObj c))

/-! ### Members -/

def getMember (object : Value) (name : Token) : Watch Value := do
  match object with
  | .object id c =>
    match ← plain (Run.field? id name.lexeme) with
    | some v => return v
    | none =>
      match c.method? name.lexeme with
      | some method => return .function (← bindMethod method object)
      | none => plain (Run.raise name (.undefinedProperty name.lexeme))
  | _ => plain (Run.raise name (.noProperties object.kind))

def noteLookup (env : Nat) (place : Place) (ref : Reference) (method : Token) : Watch Unit :=
  note fun world n => { n with lookups := { place, ref, method, env, world } :: n.lookups }

def superMethod (env : Nat) (place : Place) (ref : Reference) (method : Token) : Watch Value := do
  noteLookup env place ref method
  match ref.hops with
  | none => plain (Run.raise ref.name .superOutsideClass)
  | some hops =>
    match ← plain (Run.readAround env hops ref.name "super") with
    | .classObj c =>
      let object ← plain (Run.readAround env (hops - 1) ref.name "this")
      match object with
      | .object _ _ =>
        match c.method? method.lexeme with
        | some f => return .function (← bindMethod f object)
        | none => plain (Run.raise method (.undefinedProperty method.lexeme))
      | _ => plain (Run.raise ref.name .superWithoutInstance)
    | _ => plain (Run.raise ref.name .superclassKind)

/-! ### Calls -/

/-- Statements in turn, with their numbers. -/
def runAll (exec : Nat → Stmt → Watch Run.Completion) : Nat → List Stmt → Watch Run.Completion
  | _, [] => return .normal
  | i, s :: rest => do
    match ← exec i s with
    | .returned v => return .returned v
    | .normal => runAll exec (i + 1) rest

def callClosure (body : Nat → Place → List Stmt → Watch Run.Completion) (f : Closure)
    (args : List Value) : Watch Value :=
  if args.length ≠ f.params.length then
    plain (Run.fail (.argumentCount f.params.length args.length))
  else do
    let place := .body :: (← get).notes.origin f.id
    let env ← newFrame place f.frame (Run.bindArgs f.params args [])
    let completion ← body env place f.body
    plain (Run.answer f completion)

def construct (callInit : Closure → List Value → Watch Value) (c : Class) (args : List Value) :
    Watch Value := do
  let id ← plain Run.newObject
  let object := Value.object id c
  match c.method? initName with
  | none => return object
  | some init =>
    let f ← bindMethod init object
    discard (callInit f args)
    return object

/-- A call that a native makes; the native may go on after it stops. -/
def telling (act : Watch Value) : Watch Value := fun s =>
  match act s with
  | .ok v s => .ok v s
  | .error stop s => .error stop { s with notes := { s.notes with told := stop :: s.notes.told } }

def call (maxDepth : Nat) (invoke : Callable → List Value → Watch Value) (paren : Token)
    (callee : Value) (args : List Value) : Watch Value := do
  match callee.callable? with
  | none => plain (Run.raise paren (.notCallable callee.kind))
  | some f =>
    if args.length ≠ f.arity then
      plain (Run.raise paren (.arity f.arity args.length f.description))
    else if maxDepth ≤ (← get).world.depth then
      plain (Run.raise paren .stackOverflow)
    else
      placedAt paren (deeper (invoke f args))

/-! ### Evaluation -/

/-- Expressions in turn, with their numbers. -/
def evalAll (eval : Nat → Expr → Watch Value) : Nat → List Expr → Watch (List Value)
  | _, [] => return []
  | i, e :: rest => do
    let v ← eval i e
    let vs ← evalAll eval (i + 1) rest
    return v :: vs

mutual

def eval (m : Machine) : Nat → Nat → Place → Expr → Watch Value
  | 0, _, _, _ => throw .outOfFuel
  | n + 1, env, place, e =>
    match e with
    | .number x => return .number x
    | .string s => return .string s
    | .bool b => return .bool b
    | .nil => return .nil
    | .variable ref => readRef env place ref
    | .assign ref value => do
      let v ← eval m n env (.part 0 :: place) value
      assignRef env place ref v
      return v
    | .unary op operand => do
      let v ← eval m n env (.part 0 :: place) operand
      plain (Run.applyUnary op v)
    | .binary op left right => do
      let a ← eval m n env (.part 0 :: place) left
      let b ← eval m n env (.part 1 :: place) right
      plain (Run.applyBinary op a b)
    | .logical op left right => do
      let a ← eval m n env (.part 0 :: place) left
      if a.isTruthy = (op.kind = .orKw : Bool) then return a
      else eval m n env (.part 1 :: place) right
    | .group inner => eval m n env (.part 0 :: place) inner
    | .call callee paren args => do
      let f ← eval m n env (.part 0 :: place) callee
      let vs ← evalAll (fun i => eval m n env (.part i :: place)) 1 args
      call m.maxDepth (invoke m n) paren f vs
    | .get object name => do
      let v ← eval m n env (.part 0 :: place) object
      getMember v name
    | .set object name value => do
      let o ← eval m n env (.part 0 :: place) object
      let owner ← plain (Run.fieldOwner o name)
      let v ← eval m n env (.part 1 :: place) value
      plain (Run.setField owner name.lexeme v)
      return v
    | .this ref => plain (Run.readRef env ref)
    | .super ref method => superMethod env place ref method
    | .lambda _ params body => return .function (← makeClosure place env "" params body false)
    | .gap => plain (Run.fail .missingExpression)

def exec (m : Machine) : Nat → Nat → Place → Stmt → Watch Run.Completion
  | 0, _, _, _ => throw .outOfFuel
  | n + 1, env, place, s =>
    match s with
    | .expr e => do
      discard (eval m n env (.part 0 :: place) e)
      return .normal
    | .print e => do
      let v ← eval m n env (.part 0 :: place) e
      plain (Run.write m.sink v.text)
      return .normal
    | .var name none => do
      plain (Run.define env name.lexeme .nil)
      return .normal
    | .var name (some init) => do
      let v ← eval m n env (.initializer name.lexeme :: place) init
      plain (Run.define env name.lexeme v)
      note fun _ notes => notes.complete env (.initializer name.lexeme :: place)
      return .normal
    | .block body => do
      let inner ← newFrame (.block :: place) env []
      runAll (fun i => exec m n inner (.part i :: .block :: place)) 0 body
    | .cond test yes no => do
      let v ← eval m n env (.part 0 :: place) test
      if v.isTruthy then exec m n env (.part 1 :: place) yes
      else match no with
        | some s => exec m n env (.part 2 :: place) s
        | none => return .normal
    | .loop test body => do
      let v ← eval m n env (.part 0 :: place) test
      if v.isTruthy then
        match ← exec m n env (.part 1 :: place) body with
        | .returned v => return .returned v
        | .normal => exec m n env place (.loop test body)
      else return .normal
    | .function decl => do
      let f ← makeClosure place env decl.name.lexeme decl.params decl.body false
      plain (Run.define env decl.name.lexeme (.function f))
      return .normal
    | .ret _ none => return .returned .nil
    | .ret _ (some value) => return .returned (← eval m n env (.part 0 :: place) value)
    | .classDecl name superclass methods => do
      declareClass env place name superclass methods
      return .normal
    | .gap => plain (Run.fail .missingStatement)

def invoke (m : Machine) : Nat → Callable → List Value → Watch Value
  | 0, _, _ => throw .outOfFuel
  | n + 1, callee, args =>
    match callee with
    | .function f =>
      callClosure (fun env place => runAll (fun i => exec m n env (.part i :: place)) 0) f args
    | .native f => do
      let before ← plain Run.ask
      Run.perform (fun f args => telling (invoke m n f args)) args []
        (m.natives before f.name (args.map (·.appearance)))
    | .classObj c =>
      construct
        (callClosure fun env place => runAll (fun i => exec m n env (.part i :: place)) 0) c args

end

def execTop (m : Machine) (place : Place) : Nat → List Stmt → Watch Unit
  | _, [] => return
  | i, s :: rest => do
    discard (exec m m.fuel Frames.root (.part i :: place) s)
    execTop m place (i + 1) rest

/-- The program that is run as number `run` of its session. -/
def program (m : Machine) (run : Nat) (p : Program) : Watch Unit := do
  plain (modify fun w => { w with depth := 0 })
  execTop m [.program run] 0 p.body

/-! ### Without the notes -/

/-- The result of a watched run without its notes. -/
def forget : EStateM.Result Stop Watched α → EStateM.Result Stop World α
  | .ok a s => .ok a s.world
  | .error stop s => .error stop s.world

/-- Without its notes the watched run is the run. -/
structure Erases (watched : Watch α) (act : Run α) : Prop where
  run : ∀ s, forget (watched s) = act s.world

theorem erases_pure (a : α) : Erases (pure a) (pure a) := ⟨fun _ => rfl⟩

theorem erases_throw (stop : Stop) : Erases (throw stop : Watch α) (throw stop) := ⟨fun _ => rfl⟩

/-- A part that is carried out as it is makes no note. -/
theorem erases_plain (act : Run α) : Erases (plain act) act := by
  refine ⟨fun s => ?_⟩
  unfold plain
  split
  · next h => exact h.symm
  · next h => exact h.symm

section Bind

variable {x : Watch α} {y : Run α} {f : α → Watch β} {g : α → Run β}

/-- The notes of two parts are left out by leaving out those of each. -/
theorem Erases.bind (h : Erases x y) (hf : ∀ a, Erases (f a) (g a)) :
    Erases (x >>= f) (y >>= g) := by
  refine ⟨fun s => ?_⟩
  rw [Run.bind_apply, Run.bind_apply, ← h.run s]
  cases x s with
  | ok a t => exact (hf a).run t
  | error stop t => rfl

theorem Erases.discard (h : Erases x y) : Erases (discard x) (discard y) := by
  refine ⟨fun s => ?_⟩
  rw [Run.discard_apply, Run.discard_apply]
  exact (h.bind fun _ => ⟨fun _ => rfl⟩).run s

/-- The notes are left out, whatever problem is met. -/
theorem Erases.attempt (h : Erases x y) : Erases (Run.attempt x) (Run.attempt y) := by
  refine ⟨fun s => ?_⟩
  rw [Run.attempt_apply, Run.attempt_apply, ← h.run s]
  cases x s with
  | ok a t => rfl
  | error stop t =>
    unfold forget
    dsimp only
    cases stop.problem? <;> rfl

/-- Of what a native calls only the end is noted. -/
theorem Erases.telling {x : Watch Value} {y : Run Value} (h : Erases x y) :
    Erases (telling x) y := by
  refine ⟨fun s => ?_⟩
  unfold Watch.telling
  rw [← h.run s]
  cases x s <;> rfl

/-- A note changes nothing. -/
theorem erases_note_bind {change : World → Notes → Notes} {f : Unit → Watch α}
    (hf : Erases (f ()) y) : Erases (note change >>= f) y :=
  ⟨fun s => hf.run { s with notes := change s.world s.notes }⟩

/-- To look at the state is to look at the world in it. -/
theorem erases_get {f : Watched → Watch α} {g : World → Run α}
    (hf : ∀ s, Erases (f s) (g s.world)) : Erases (get >>= f) (get >>= g) :=
  ⟨fun s => (hf s).run s⟩

/-- What only the notes say changes nothing. -/
theorem erases_get_notes {f : Watched → Watch α} (hf : ∀ s, Erases (f s) y) :
    Erases (get >>= f) y :=
  ⟨fun s => (hf s).run s⟩

/-- To make a note of what a part gives changes nothing. -/
theorem erases_noting (act : Run α) (change : α → Notes → Notes) :
    Erases (noting act change) act := by
  have h : Erases (noting act change) (act >>= pure) :=
    (erases_plain act).bind fun a => erases_note_bind (erases_pure a)
  rwa [bind_pure] at h

theorem Erases.placedAt (h : Erases x y) (token : Token) :
    Erases (placedAt token x) (Run.placedAt token y) := by
  refine ⟨fun s => ?_⟩
  have inner := h.run s
  unfold Watch.placedAt Run.placedAt
  rw [← inner]
  cases x s <;> rfl

theorem Erases.deeper (h : Erases x y) : Erases (deeper x) (Run.deeper y) := by
  refine ⟨fun s => ?_⟩
  have inner := h.run { s with world := { s.world with depth := s.world.depth + 1 } }
  unfold Watch.deeper Run.deeper
  rw [← inner]
  cases x { s with world := { s.world with depth := s.world.depth + 1 } } <;> rfl

end Bind

/-- A use is noted and then read. -/
theorem erases_readRef (env : Nat) (place : Place) (ref : Reference) :
    Erases (readRef env place ref) (Run.readRef env ref) :=
  erases_note_bind (erases_plain _)

/-- A use is noted and then assigned to. -/
theorem erases_assignRef (env : Nat) (place : Place) (ref : Reference) (v : Value) :
    Erases (assignRef env place ref v) (Run.assignRef env ref v) :=
  erases_note_bind (erases_plain _)

/-- The place of a function is noted once it is made. -/
theorem erases_makeClosure (place : Place) (env : Nat) (name : String) (params : List Token)
    (body : List Stmt) (isInit : Bool) :
    Erases (makeClosure place env name params body isInit)
      (Run.makeClosure env name params body isInit) :=
  (erases_noting _ _).bind fun _ => erases_pure _

/-- A method that is bound is noted with the scope of its instance. -/
theorem erases_bindMethod (method : Closure) (object : Value) :
    Erases (bindMethod method object) (Run.bindMethod method object) :=
  erases_get_notes fun _ => (erases_noting _ _).bind fun _ => (erases_noting _ _).bind fun _ =>
    erases_pure _

/-- Methods are made one after the other, with their places. -/
theorem erases_makeMethods (env : Nat) (place : Place) (i : Nat) (fs : List Function)
    (methods : Bindings Closure) :
    Erases (makeMethods env place i fs methods) (Run.makeMethods env fs methods) := by
  induction fs generalizing i methods with
  | nil => exact erases_pure _
  | cons f rest ih => exact (erases_makeClosure ..).bind fun method => ih _ _

theorem erases_readSuperclass (env : Nat) (place : Place) (ref : Reference) :
    Erases (readSuperclass env place ref) (Run.readSuperclass env ref) := by
  refine (erases_readRef env place ref).bind fun v => ?_
  cases v with
  | classObj c => exact erases_pure c
  | _ => exact erases_plain _

/-- To declare a class makes notes of its scopes, and does what it does without. -/
theorem erases_declareClass (env : Nat) (place : Place) (name : Token)
    (superclass : Option Reference) (methods : List Function) :
    Erases (declareClass env place name superclass methods)
      (Run.declareClass env name superclass methods) := by
  cases superclass with
  | none =>
    exact (erases_plain _).bind fun _ => (erases_makeMethods ..).bind fun _ =>
      (erases_plain _).bind fun _ => erases_plain _
  | some ref =>
    exact (erases_readSuperclass ..).bind fun _ => (erases_plain _).bind fun _ =>
      (erases_noting _ _).bind fun _ => (erases_makeMethods ..).bind fun _ =>
        (erases_plain _).bind fun _ => erases_plain _

theorem erases_getMember (object : Value) (name : Token) :
    Erases (getMember object name) (Run.getMember object name) := by
  unfold getMember Run.getMember
  cases object with
  | object id c =>
    refine (erases_plain _).bind fun field => ?_
    cases field with
    | some v => exact erases_pure v
    | none =>
      dsimp only
      cases c.method? name.lexeme with
      | some method => exact (erases_bindMethod ..).bind fun _ => erases_pure _
      | none => exact erases_plain _
  | _ => exact erases_plain _

/-- A lookup in the superclass is noted and then made. -/
theorem erases_superMethod (env : Nat) (place : Place) (ref : Reference) (method : Token) :
    Erases (superMethod env place ref method) (Run.superMethod env ref method) := by
  refine erases_note_bind ?_
  unfold Run.superMethod
  cases ref.hops with
  | none => exact erases_plain _
  | some hops =>
    refine (erases_plain _).bind fun c => ?_
    cases c with
    | classObj c =>
      refine (erases_plain _).bind fun object => ?_
      cases object with
      | object =>
        dsimp only
        cases c.method? method.lexeme with
        | some f => exact (erases_bindMethod ..).bind fun _ => erases_pure _
        | none => exact erases_plain _
      | _ => exact erases_plain _
    | _ => exact erases_plain _

theorem erases_runAll {exec : Nat → Stmt → Watch Run.Completion} {exec' : Stmt → Run Run.Completion}
    (h : ∀ i s, Erases (exec i s) (exec' s)) (i : Nat) (body : List Stmt) :
    Erases (runAll exec i body) (Run.runAll exec' body) := by
  induction body generalizing i with
  | nil => exact erases_pure _
  | cons s rest ih =>
    refine (h i s).bind fun completion => ?_
    cases completion with
    | returned v => exact erases_pure _
    | normal => exact ih _

/-- A body is carried out at its place. -/
theorem erases_callClosure {body : Nat → Place → List Stmt → Watch Run.Completion}
    {body' : Nat → List Stmt → Run Run.Completion}
    (h : ∀ env place ss, Erases (body env place ss) (body' env ss)) (f : Closure)
    (args : List Value) : Erases (callClosure body f args) (Run.callClosure body' f args) := by
  unfold callClosure Run.callClosure
  split
  · exact erases_plain _
  · exact erases_get_notes fun _ => (erases_noting _ _).bind fun env => (h _ _ _).bind fun _ =>
      erases_plain _

theorem erases_construct {callInit : Closure → List Value → Watch Value}
    {callInit' : Closure → List Value → Run Value}
    (h : ∀ f args, Erases (callInit f args) (callInit' f args)) (c : Class) (args : List Value) :
    Erases (construct callInit c args) (Run.construct callInit' c args) := by
  refine (erases_plain _).bind fun id => ?_
  cases c.method? initName with
  | none => exact erases_pure _
  | some init =>
    exact (erases_bindMethod ..).bind fun f => (h f args).discard.bind fun _ => erases_pure _

/-- Of a native the problems that it is told of are noted, and nothing else. -/
theorem erases_perform {invoke : Callable → List Value → Watch Value}
    {invoke' : Callable → List Value → Run Value}
    (h : ∀ f args, Erases (invoke f args) (invoke' f args)) (args : List Value) (reply : Reply) :
    Erases (Run.perform (fun f args => telling (invoke f args)) args [] reply)
      (Run.perform invoke' args [] reply) :=
  Run.rel_perform erases_pure erases_throw
    (fun f args _ _ next _ => (h f args).telling.attempt.bind next) args [] reply
    (reply.passesOn_none 0)

/-- A call makes no note of its own. -/
theorem erases_call {invoke : Callable → List Value → Watch Value}
    {invoke' : Callable → List Value → Run Value}
    (h : ∀ f args, Erases (invoke f args) (invoke' f args)) (maxDepth : Nat) (paren : Token)
    (callee : Value) (args : List Value) :
    Erases (call maxDepth invoke paren callee args)
      (Run.call maxDepth invoke' paren callee args) := by
  unfold call Run.call
  cases callee.callable? with
  | none => exact erases_plain _
  | some f =>
    dsimp only
    split
    · exact erases_plain _
    · refine erases_get fun s => ?_
      split
      · exact erases_plain _
      · exact ((h f args).deeper).placedAt paren

/-- Arguments are evaluated in turn, each at its place. -/
theorem erases_evalAll {eval : Nat → Expr → Watch Value} {eval' : Expr → Run Value}
    (h : ∀ i e, Erases (eval i e) (eval' e)) (i : Nat) (es : List Expr) :
    Erases (evalAll eval i es) (es.mapM eval') := by
  induction es generalizing i with
  | nil => exact erases_pure _
  | cons e rest ih =>
    rw [List.mapM_cons]
    exact (h i e).bind fun v => (ih (i + 1)).bind fun vs => erases_pure _

/-- All of evaluation is the same under watch, whatever the fuel. -/
theorem erases_all (m : Machine) (n : Nat) :
    (∀ env place e, Erases (eval m n env place e) (Run.eval m n env e)) ∧
      (∀ env place s, Erases (exec m n env place s) (Run.exec m n env s)) ∧
        ∀ f args, Erases (invoke m n f args) (Run.invoke m n f args) := by
  -- the notes are taken beside the run: without them it is `Run` itself
  induction n with
  | zero =>
    exact ⟨fun _ _ _ => erases_throw _, fun _ _ _ => erases_throw _, fun _ _ => erases_throw _⟩
  | succ n ih =>
    obtain ⟨evals, execs, invokes⟩ := ih
    have bodies (env : Nat) (place : Place) (body : List Stmt) :
        Erases (runAll (fun i => exec m n env (.part i :: place)) 0 body)
          (Run.runAll (Run.exec m n env) body) :=
      erases_runAll (fun i s => execs env _ s) 0 body
    refine ⟨fun env place e => ?_, fun env place s => ?_, fun callee args => ?_⟩
    · cases e with
      | number | string | bool | nil => exact erases_pure _
      | gap => exact erases_plain (Run.fail .missingExpression)
      | this ref => exact erases_plain _
      | «variable» ref => exact erases_readRef env place ref
      | assign ref value =>
        exact (evals ..).bind fun _ => (erases_assignRef ..).bind fun _ => erases_pure _
      | unary op operand => exact (evals ..).bind fun _ => erases_plain _
      | binary op left right =>
        exact (evals ..).bind fun _ => (evals ..).bind fun _ => erases_plain _
      | logical op left right =>
        refine (evals ..).bind fun v => ?_
        split
        · exact erases_pure _
        · exact evals ..
      | group inner => exact evals ..
      | call callee paren args =>
        exact (evals ..).bind fun _ => (erases_evalAll (fun i e => evals env _ e) 1 args).bind
          fun _ => erases_call invokes ..
      | get object name => exact (evals ..).bind fun _ => erases_getMember ..
      | set object name value =>
        exact (evals ..).bind fun _ => (erases_plain _).bind fun _ => (evals ..).bind fun _ =>
          (erases_plain _).bind fun _ => erases_pure _
      | «super» ref method => exact erases_superMethod env place ref method
      | lambda keyword params body => exact (erases_makeClosure ..).bind fun _ => erases_pure _
    · cases s with
      | expr e => exact (evals ..).discard.bind fun _ => erases_pure _
      | print e => exact (evals ..).bind fun _ => (erases_plain _).bind fun _ => erases_pure _
      | var name init =>
        cases init with
        | none => exact (erases_plain _).bind fun _ => erases_pure _
        | some init =>
          exact (evals ..).bind fun _ => (erases_plain _).bind fun _ =>
            erases_note_bind (erases_pure _)
      | block body => exact (erases_noting _ _).bind fun inner => bodies inner _ body
      | cond test yes no =>
        refine (evals ..).bind fun v => ?_
        split
        · exact execs ..
        · cases no with
          | none => exact erases_pure _
          | some no => exact execs ..
      | loop test body =>
        refine (evals ..).bind fun v => ?_
        split
        · refine (execs ..).bind fun completion => ?_
          cases completion with
          | returned v => exact erases_pure _
          | normal => exact execs ..
        · exact erases_pure _
      | function decl =>
        exact (erases_makeClosure ..).bind fun _ => (erases_plain _).bind fun _ => erases_pure _
      | ret keyword value =>
        cases value with
        | none => exact erases_pure _
        | some value => exact (evals ..).bind fun _ => erases_pure _
      | classDecl name superclass methods =>
        exact (erases_declareClass ..).bind fun _ => erases_pure _
      | gap => exact erases_plain (Run.fail .missingStatement)
    · cases callee with
      | function f => exact erases_callClosure bodies f args
      -- a native is shown the same, since it sees no notes
      | native f => exact (erases_plain _).bind fun _ => erases_perform invokes args _
      | classObj c => exact erases_construct (erases_callClosure bodies) c args

/-- The notes make no difference to the statements of a program. -/
theorem erases_execTop (m : Machine) (place : Place) (i : Nat) (body : List Stmt) :
    Erases (execTop m place i body) (Run.execTop m body) := by
  induction body generalizing i with
  | nil => exact erases_pure _
  | cons s rest ih => exact ((erases_all m m.fuel).2.1 ..).discard.bind fun _ => ih _

/-- A watched program does what the program does. -/
theorem erases_program (m : Machine) (run : Nat) (p : Program) :
    Erases (program m run p) (Run.program m p) :=
  (erases_plain _).bind fun _ => erases_execTop m _ 0 p.body

end Watch

end Lox
