import Lox.Proofs.Lines.World
import Lox.Proofs.Native.Perform
import Lox.Proofs.Run.Operator
import Lox.Run.Eval

/-!
Runs on other lines. No part of a run looks at the line of a token: from a world that is moved, a
tree that is moved does the same, and what comes out is moved. The walk over the parts of a run also
shows that as many calls are going on after it as before.
-/

namespace Lox.Run

variable {α β γ δ : Type}

/-- What comes out, on other lines. -/
def moved (φ : Nat → Nat) (f : α → β) :
    EStateM.Result Stop World α → EStateM.Result Stop World β
  | .ok a w => .ok (f a) (w.move φ)
  | .error stop w => .error (stop.move φ) (w.move φ)

/-- The second part of a run does on other lines what the first does, which ends the calls that it
begins. -/
structure Moves (φ : Nat → Nat) (f : α → β) (act : Run α) (act' : Run β) : Prop where
  run : ∀ w, act' (w.move φ) = moved φ f (act w)
  level : ∀ w, (final (act w)).depth = w.depth

def Completion.move (φ : Nat → Nat) : Completion → Completion
  | .normal => .normal
  | .returned v => .returned (v.move φ)

section Steps

variable {φ : Nat → Nat} {f : α → β} {g : γ → δ} {act : Run α} {act' : Run β}

theorem moves_pure {a : α} {b : β} (h : b = f a) : Moves φ f (pure a) (pure b) := by
  subst h
  exact ⟨fun _ => rfl, fun _ => rfl⟩

theorem moves_throw {stop stop' : Stop} (h : stop' = stop.move φ) :
    Moves φ f (throw stop) (throw stop') := by
  subst h
  exact ⟨fun _ => rfl, fun _ => rfl⟩

/-- A fault is raised at the moved token. -/
theorem moves_raise (token : Token) (fault : Fault) :
    Moves φ f (raise token fault) (raise (token.move φ) fault) :=
  moves_throw rfl

theorem moves_fail (fault : Fault) : Moves φ f (fail fault) (fail fault) := moves_throw rfl

/-- A run that reads the world moves if it does so from every world. -/
theorem moves_get {next : World → Run γ} {next' : World → Run δ}
    (h : ∀ w, Moves φ g (next w) (next' (w.move φ))) :
    Moves φ g (get >>= next) (get >>= next') :=
  ⟨fun w => (h w).run w, fun w => (h w).level w⟩

/-- What the second part is given is what the first gives, moved. -/
theorem Moves.bind {next : α → Run γ} {next' : β → Run δ} (h : Moves φ f act act')
    (hnext : ∀ a, Moves φ g (next a) (next' (f a))) :
    Moves φ g (act >>= next) (act' >>= next') := by
  constructor
  · intro w
    rw [bind_apply, bind_apply, h.run]
    cases act w with
    | ok a w₁ => exact (hnext a).run w₁
    | error stop w₁ => rfl
  · intro w
    have level := h.level w
    rw [bind_apply]
    cases done : act w with
    | ok a w₁ =>
      rw [done] at level
      exact ((hnext a).level w₁).trans level
    | error stop w₁ =>
      rw [done] at level
      exact level

theorem Moves.discard (h : Moves φ f act act') :
    Moves φ id (Functor.discard act) (Functor.discard act') := by
  have bound : Moves φ id (act >>= fun _ => pure ()) (act' >>= fun _ => pure ()) :=
    h.bind fun _ => moves_pure rfl
  constructor
  · intro w
    rw [discard_apply, discard_apply]
    exact bound.run w
  · intro w
    rw [discard_apply]
    exact bound.level w

/-- The line that a stop is placed on moves with the token. -/
theorem placed_move (token : Token) (stop : Stop) :
    Stop.placed (token.move φ) (stop.move φ) = (Stop.placed token stop).move φ := by
  cases stop <;> rfl

theorem Moves.placedAt (h : Moves φ f act act') (token : Token) :
    Moves φ f (placedAt token act) (placedAt (token.move φ) act') := by
  constructor
  · intro w
    unfold Run.placedAt
    rw [h.run]
    cases act w with
    | ok a w₁ => rfl
    | error stop w₁ => simp only [moved, placed_move]
  · intro w
    have level := h.level w
    unfold Run.placedAt
    cases done : act w <;> rw [done] at level <;> exact level

/-- What came of a call, on other lines. -/
def outcomeMove (φ : Nat → Nat) : Except Problem Value → Except Problem Value
  | .ok v => .ok (v.move φ)
  | .error p => .error (p.move φ)

/-- What came of a call is the same but for lines, also where it is a problem. -/
theorem Moves.attempt {act act' : Run Value} (h : Moves φ (Value.move φ) act act') :
    Moves φ (outcomeMove φ) (attempt act) (attempt act') := by
  constructor
  · intro w
    rw [attempt_apply, attempt_apply, h.run]
    cases act w with
    | ok v w₁ => rfl
    | error stop w₁ => cases stop <;> rfl
  · intro w
    have level := h.level w
    rw [attempt_apply]
    cases done : act w with
    | ok v w₁ =>
      rw [done] at level
      exact level
    | error stop w₁ =>
      rw [done] at level
      cases stop <;> exact level

/-- The one call that is begun here is ended here. -/
theorem Moves.deeper (h : Moves φ f act act') : Moves φ f (deeper act) (deeper act') := by
  constructor
  · intro w
    have inner := h.run { w with depth := w.depth + 1 }
    unfold Run.deeper
    rw [show ({ w.move φ with depth := (w.move φ).depth + 1 } : World) =
      World.move φ { w with depth := w.depth + 1 } from rfl, inner]
    cases act { w with depth := w.depth + 1 } <;> rfl
  · intro w
    have level := h.level { w with depth := w.depth + 1 }
    unfold Run.deeper
    cases done : act { w with depth := w.depth + 1 } <;> rw [done] at level <;>
      exact congrArg (· - 1) level

end Steps

/-! ### Parts that call nothing -/

section Parts

variable (φ : Nat → Nat)

theorem moves_fresh : Moves φ id fresh fresh := ⟨fun _ => rfl, fun _ => rfl⟩

theorem moves_ask : Moves φ id ask ask := ⟨fun _ => rfl, fun _ => rfl⟩

theorem moves_newFrame (parent : Nat) (bindings : Bindings Value) :
    Moves φ id (newFrame parent bindings)
      (newFrame parent (bindings.onValues (Value.move φ))) := by
  constructor
  · intro w
    unfold newFrame
    simp only [moved, World.move, Frames.size_onValues, Frames.push_onValues, id]
  · exact fun _ => rfl

theorem moves_define (env : Nat) (name : String) (v : Value) :
    Moves φ id (define env name v) (define env name (v.move φ)) := by
  constructor
  · intro w
    unfold define
    simp only [moved, World.move, Frames.define_onValues, id]
  · exact fun _ => rfl

theorem moves_newObject : Moves φ id newObject newObject := by
  constructor
  · intro w
    unfold newObject
    simp only [moved, World.move, Array.size_map, Array.map_push, id]
    rfl
  · exact fun _ => rfl

theorem moves_field? (id : Nat) (name : String) :
    Moves φ (Option.map (Value.move φ)) (field? id name) (field? id name) := by
  constructor
  · intro w
    unfold field?
    simp only [moved, World.move, Array.getElem?_map]
    cases w.objects[id]? with
    | none => rfl
    | some fields => simp only [Option.map_some, Option.bind_some, Bindings.get?_onValues]
  · exact fun _ => rfl

theorem moves_setField (owner : Nat) (name : String) (v : Value) :
    Moves φ id (setField owner name v) (setField owner name (v.move φ)) := by
  constructor
  · intro w
    unfold setField
    simp only [moved, World.move, id]
    rw [map_modify]
    exact fun fields => (Bindings.insert_onValues _ name v fields).symm
  · exact fun _ => rfl

theorem moves_write (sink : Sink) (line : String) :
    Moves φ id (write sink line) (write sink line) := by
  constructor
  · intro w
    unfold write
    rw [World.printed_move]
    split <;> rfl
  · intro w
    unfold write
    split <;> rfl

/-- What is found is read. -/
theorem moves_found (found : Option Value) (name : Token) :
    Moves φ (Value.move φ)
      (match found with
        | some v => pure v
        | none => raise name (.undefinedVariable name.lexeme))
      (match found.map (Value.move φ) with
        | some v => pure v
        | none => raise (name.move φ) (.undefinedVariable name.lexeme)) := by
  cases found with
  | none => exact moves_raise ..
  | some v => exact moves_pure rfl

/-- A variable is found in the same frame, by its distance or by its name. -/
theorem moves_readRef (env : Nat) (ref : Reference) :
    Moves φ (Value.move φ) (readRef env ref) (readRef env (ref.move φ)) := by
  refine moves_get fun w => ?_
  simp only [Reference.hops_move, Reference.name_move, Token.lexeme_move, World.move]
  cases ref.hops with
  | none =>
    simp only [Frames.get?_onValues]
    exact moves_found ..
  | some d =>
    simp only [Frames.getAt?_onValues]
    exact moves_found ..

theorem moves_assignRef (env : Nat) (ref : Reference) (v : Value) :
    Moves φ id (assignRef env ref v) (assignRef env (ref.move φ) (v.move φ)) := by
  refine moves_get fun w => ?_
  simp only [Reference.hops_move, Reference.name_move, Token.lexeme_move, World.move,
    Frames.frameAt?_onValues, Frames.nearest?_onValues]
  split
  · exact moves_define ..
  · exact moves_raise ..

/-- A closure is made with the moved body, in the same frame and with the same number. -/
theorem moves_makeClosure (env : Nat) (name : String) (params : List Token) (body : List Stmt)
    (isInit : Bool) :
    Moves φ (Closure.move φ) (makeClosure env name params body isInit)
      (makeClosure env name (params.map (Token.move φ)) (Stmt.moveAll φ body) isInit) :=
  (moves_fresh φ).bind fun _ => moves_pure rfl

theorem moves_bindMethod (method : Closure) (object : Value) :
    Moves φ (Closure.move φ) (bindMethod method object)
      (bindMethod (method.move φ) (object.move φ)) := by
  refine (moves_newFrame φ method.frame [("this", object)]).bind fun frame => ?_
  exact (moves_fresh φ).bind fun _ => moves_pure rfl

theorem moves_makeMethods (env : Nat) (fs : List Function) (methods : Bindings Closure) :
    Moves φ (Bindings.onValues (Closure.move φ)) (makeMethods env fs methods)
      (makeMethods env (Function.moveAll φ fs) (methods.onValues (Closure.move φ))) := by
  induction fs generalizing methods with
  | nil => exact moves_pure rfl
  | cons f rest ih =>
    rw [Function.moveAll, makeMethods, makeMethods, Function.name_move, Function.params_move,
      Function.body_move, Function.isInit_move, Token.lexeme_move]
    refine (moves_makeClosure ..).bind fun method => ?_
    rw [Bindings.insert_onValues]
    exact ih _

/-- What is no class is refused at the moved line. -/
theorem moves_readSuperclass (env : Nat) (ref : Reference) :
    Moves φ (Class.move φ) (readSuperclass env ref) (readSuperclass env (ref.move φ)) := by
  refine (moves_readRef φ env ref).bind fun v => ?_
  cases v with
  | classObj c => exact moves_pure rfl
  | _ => exact moves_raise ..

/-- A class is declared with its moved methods. -/
theorem moves_declareClass (env : Nat) (name : Token) (superclass : Option Reference)
    (methods : List Function) :
    Moves φ id (declareClass env name superclass methods)
      (declareClass env (name.move φ) (superclass.map (Reference.move φ))
        (Function.moveAll φ methods)) := by
  cases superclass with
  | none =>
    refine (moves_define φ env name.lexeme .nil).bind fun _ => ?_
    refine (moves_makeMethods φ env methods []).bind fun made => ?_
    refine (moves_fresh φ).bind fun id => ?_
    exact moves_define φ env name.lexeme (.classObj ⟨id, name.lexeme, none, made⟩)
  | some ref =>
    refine (moves_readSuperclass φ env ref).bind fun parent => ?_
    refine (moves_define φ env name.lexeme .nil).bind fun _ => ?_
    refine (moves_newFrame φ env [("super", .classObj parent)]).bind fun inner => ?_
    refine (moves_makeMethods φ inner methods []).bind fun made => ?_
    refine (moves_fresh φ).bind fun id => ?_
    exact moves_define φ env name.lexeme (.classObj ⟨id, name.lexeme, some parent, made⟩)

/-- A method bound to an instance, if there is one. -/
theorem moves_method (c : Class) (object : Value) (name : Token) :
    Moves φ (Value.move φ)
      (match c.method? name.lexeme with
        | some method => do return .function (← bindMethod method object)
        | none => raise name (.undefinedProperty name.lexeme))
      (match (c.move φ).method? name.lexeme with
        | some method => do return .function (← bindMethod method (object.move φ))
        | none => raise (name.move φ) (.undefinedProperty name.lexeme)) := by
  rw [Class.method?_move]
  cases c.method? name.lexeme with
  | none => exact moves_raise ..
  | some method => exact (moves_bindMethod φ method object).bind fun _ => moves_pure rfl

/-- A property is read from the same object, and its absence is reported at the moved line. -/
theorem moves_getMember (object : Value) (name : Token) :
    Moves φ (Value.move φ) (getMember object name) (getMember (object.move φ) (name.move φ)) := by
  cases object with
  | object id c =>
    refine (moves_field? φ id name.lexeme).bind fun found => ?_
    cases found with
    | some v => exact moves_pure rfl
    | none => exact moves_method φ c (.object id c) name
  | _ => exact moves_raise ..

theorem moves_fieldOwner (object : Value) (name : Token) :
    Moves φ id (fieldOwner object name) (fieldOwner (object.move φ) (name.move φ)) := by
  cases object with
  | object => exact moves_pure rfl
  | _ => exact moves_raise ..

theorem moves_readAround (env : Nat) (hops : Int) (keyword : Token) (name : String) :
    Moves φ (Value.move φ) (readAround env hops keyword name)
      (readAround env hops (keyword.move φ) name) := by
  refine moves_get fun w => ?_
  simp only [World.move, Frames.getAt?_onValues]
  cases w.frames.getAt? env hops name with
  | none => exact moves_raise ..
  | some v => exact moves_pure rfl

/-- A method of the superclass is looked up at the same distance. -/
theorem moves_superMethod (env : Nat) (ref : Reference) (method : Token) :
    Moves φ (Value.move φ) (superMethod env ref method)
      (superMethod env (ref.move φ) (method.move φ)) := by
  unfold superMethod
  rw [Reference.hops_move]
  split
  · exact moves_raise ..
  · next hops _ =>
    refine (moves_readAround φ env hops ref.name "super").bind fun v => ?_
    cases v with
    | classObj c =>
      refine (moves_readAround φ env (hops - 1) ref.name "this").bind fun object => ?_
      cases object with
      | object id d => exact moves_method φ c (.object id d) method
      | _ => exact moves_raise ..
    | _ => exact moves_raise ..

theorem moves_applyUnary (op : Token) (v : Value) :
    Moves φ (Value.move φ) (applyUnary op v) (applyUnary (op.move φ) (v.move φ)) := by
  unfold applyUnary
  rw [Token.kind_move, Token.lexeme_move, Value.isTruthy_move]
  split
  · exact moves_pure rfl
  · cases v with
    | number x => exact moves_pure rfl
    | _ => exact moves_raise ..
  · exact moves_raise ..

/-- Operands are of the same kinds, so the same operators apply. -/
theorem moves_applyBinary (op : Token) (left right : Value) :
    Moves φ (Value.move φ) (applyBinary op left right)
      (applyBinary (op.move φ) (left.move φ) (right.move φ)) := by
  -- plain operands have no lines; with another one there are only comparisons
  by_cases plain : left.isPlain = true ∧ right.isPlain = true
  · rw [left.move_of_isPlain φ plain.1, right.move_of_isPlain φ plain.2]
    unfold applyBinary
    rw [Token.kind_move]
    split
    · exact moves_pure rfl
    · exact moves_pure rfl
    · exact moves_pure rfl
    · exact moves_pure rfl
    · exact moves_raise ..
    · split
      · next h => exact moves_pure (Value.move_of_isPlain φ (isPlain_of_arithmetic? h)).symm
      · exact moves_raise ..
    · exact moves_raise ..
  · have some : left.isPlain = false ∨ right.isPlain = false := by
      cases h : left.isPlain <;> simp_all
    rw [applyBinary_of_not_plain some, applyBinary_of_not_plain (by simpa using some)]
    simp only [Token.kind_move, Token.lexeme_move, Value.kind_move, Value.equals_move]
    split
    · exact moves_pure rfl
    · exact moves_pure rfl
    · exact moves_raise ..
    · exact moves_raise ..

theorem moves_answer (f : Closure) (completion : Completion) :
    Moves φ (Value.move φ) (answer f completion) (answer (f.move φ) (completion.move φ)) := by
  unfold answer
  rw [show (f.move φ).isInit = f.isInit from rfl]
  split
  · refine moves_get fun w => ?_
    rw [show (f.move φ).frame = f.frame from rfl]
    simp only [World.move, Frames.getAt?_onValues]
    cases w.frames.getAt? f.frame 0 "this" with
    | none => exact moves_fail _
    | some v => exact moves_pure rfl
  · cases completion <;> exact moves_pure rfl

theorem bindArgs_move (params : List Token) (args : List Value) (bindings : Bindings Value) :
    bindArgs (params.map (Token.move φ)) (args.map (Value.move φ))
      (bindings.onValues (Value.move φ)) = (bindArgs params args bindings).onValues (Value.move φ)
    := by
  induction params generalizing args bindings with
  | nil => rfl
  | cons p rest ih =>
    cases args with
    | nil => rfl
    | cons v args =>
      simp only [List.map_cons, bindArgs, Token.lexeme_move, Bindings.insert_onValues]
      exact ih args _

end Parts

/-! ### Calls -/

section Calls

variable {φ : Nat → Nat}

/-- Statements in order move one by one. -/
theorem moves_runAll {exec exec' : Stmt → Run Completion}
    (h : ∀ s, Moves φ (Completion.move φ) (exec s) (exec' (s.move φ))) (body : List Stmt) :
    Moves φ (Completion.move φ) (runAll exec body) (runAll exec' (Stmt.moveAll φ body)) := by
  induction body with
  | nil => exact moves_pure rfl
  | cons s rest ih =>
    refine (h s).bind fun completion => ?_
    cases completion with
    | returned v => exact moves_pure rfl
    | normal => exact ih

/-- A call binds the moved arguments and runs the moved body. -/
theorem moves_callClosure {body body' : Nat → List Stmt → Run Completion}
    (h : ∀ env ss, Moves φ (Completion.move φ) (body env ss) (body' env (Stmt.moveAll φ ss)))
    (f : Closure) (args : List Value) :
    Moves φ (Value.move φ) (callClosure body f args)
      (callClosure body' (f.move φ) (args.map (Value.move φ))) := by
  have params : (f.move φ).params = f.params.map (Token.move φ) := rfl
  unfold callClosure
  rw [params, List.length_map, List.length_map]
  split
  · exact moves_fail _
  · rw [show ([] : Bindings Value) = Bindings.onValues (Value.move φ) [] from rfl, bindArgs_move]
    refine (moves_newFrame φ f.frame _).bind fun env => ?_
    exact (h env f.body).bind fun completion => moves_answer φ f completion

/-- An instance is made and initialized with the moved arguments. -/
theorem moves_construct {callInit callInit' : Closure → List Value → Run Value}
    (h : ∀ f args, Moves φ (Value.move φ) (callInit f args)
      (callInit' (f.move φ) (args.map (Value.move φ)))) (c : Class) (args : List Value) :
    Moves φ (Value.move φ) (construct callInit c args)
      (construct callInit' (c.move φ) (args.map (Value.move φ))) := by
  refine (moves_newObject φ).bind fun id => ?_
  dsimp only
  rw [Class.method?_move]
  cases c.method? initName with
  | none => exact moves_pure rfl
  | some init =>
    refine (moves_bindMethod φ init (.object id c)).bind fun bound => ?_
    exact (h bound args).discard.bind fun _ => moves_pure rfl

/-- A native speaks of values on other lines. -/
theorem value_move (given : List Value) (d : Datum) :
    d.value (given.map (Value.move φ)) = (d.value given).move φ := by
  refine Datum.related (R := fun v v' => v' = v.move φ) (likeness_move φ).plain ?_ d
  rw [List.forall₂_map_right_iff]
  exact List.forall₂_same.mpr fun _ _ => rfl

/-- A native names values by their numbers, so it names the moved ones. -/
theorem values_move (given : List Value) (ds : List Datum) :
    ds.map (·.value (given.map (Value.move φ))) = (ds.map (·.value given)).map (Value.move φ) := by
  rw [List.map_map]
  exact List.map_congr_left fun d _ => value_move given d

/-- What a native asks for is asked for with moved values. -/
theorem moves_request {invoke invoke' : Callable → List Value → Run Value}
    (h : ∀ f args, Moves φ (Value.move φ) (invoke f args)
      (invoke' (f.move φ) (args.map (Value.move φ)))) (callee : Value) (args : List Value) :
    Moves φ (outcomeMove φ) (request invoke callee args)
      (request invoke' (callee.move φ) (args.map (Value.move φ))) := by
  unfold request
  rw [Value.callable?_move, Value.kind_move]
  cases callee.callable? with
  | none => exact moves_pure rfl
  | some f => exact (h f args).attempt

/-- A native is shown the same of values and problems on other lines, and does the same. -/
theorem moves_perform {invoke invoke' : Callable → List Value → Run Value}
    (h : ∀ f args, Moves φ (Value.move φ) (invoke f args)
      (invoke' (f.move φ) (args.map (Value.move φ)))) (given : List Value) (met : List Problem)
    (reply : Reply) :
    Moves φ (Value.move φ) (perform invoke given met reply)
      (perform invoke' (given.map (Value.move φ)) (met.map (Problem.move φ)) reply) := by
  -- one reply for both, since lines are not shown to a native
  induction reply generalizing given met with
  | answer d => exact moves_pure (value_move given d)
  | fail message => exact moves_throw rfl
  | pass i =>
    unfold perform
    rw [List.getElem?_map]
    cases met[i]? with
    | none => exact moves_pure rfl
    | some p => exact moves_throw (p.stop_move φ)
  | call callee args resume ih =>
    unfold perform
    rw [value_move, values_move]
    refine (moves_request h _ _).bind fun r => ?_
    cases r with
    | ok v =>
      have after := ih (.ok v.appearance) (given ++ [v]) met
      rw [List.map_append] at after
      unfold outcomeMove
      dsimp only
      rwa [← (likeness_move φ).alike v _ rfl]
    | error p =>
      have after := ih (.error p.mishap) given (met ++ [p])
      rw [List.map_append] at after
      unfold outcomeMove
      dsimp only
      rwa [Problem.mishap_move]

/-- A call checks arity and depth before and after as it would without moving. -/
theorem moves_call {invoke invoke' : Callable → List Value → Run Value}
    (h : ∀ f args, Moves φ (Value.move φ) (invoke f args)
      (invoke' (f.move φ) (args.map (Value.move φ)))) (maxDepth : Nat) (paren : Token)
    (callee : Value) (args : List Value) :
    Moves φ (Value.move φ) (call maxDepth invoke paren callee args)
      (call maxDepth invoke' (paren.move φ) (callee.move φ) (args.map (Value.move φ))) := by
  unfold call
  rw [Value.callable?_move, Value.kind_move, List.length_map]
  cases callee.callable? with
  | none => exact moves_raise ..
  | some f =>
    simp only [Option.map_some, Callable.arity_move, Callable.description_move]
    split
    · exact moves_raise ..
    · refine moves_get fun w => ?_
      rw [World.depth_move]
      split
      · exact moves_raise ..
      · exact (h f args).deeper.placedAt paren

theorem moves_mapM {eval eval' : Expr → Run Value}
    (h : ∀ e, Moves φ (Value.move φ) (eval e) (eval' (e.move φ))) (es : List Expr) :
    Moves φ (List.map (Value.move φ)) (es.mapM eval) ((Expr.moveAll φ es).mapM eval') := by
  induction es with
  | nil => exact moves_pure rfl
  | cons e rest ih =>
    rw [Expr.moveAll, List.mapM_cons, List.mapM_cons]
    exact (h e).bind fun v => ih.bind fun vs => moves_pure rfl

end Calls

/-! ### Evaluation -/

/-- With so much fuel, a run does the same on other lines. -/
structure MovesAll (φ : Nat → Nat) (m : Machine) (n : Nat) : Prop where
  eval : ∀ env e, Moves φ (Value.move φ) (eval m n env e) (eval m n env (e.move φ))
  exec : ∀ env s, Moves φ (Completion.move φ) (exec m n env s) (exec m n env (s.move φ))
  invoke : ∀ f args, Moves φ (Value.move φ) (invoke m n f args)
    (invoke m n (f.move φ) (args.map (Value.move φ)))

section Round

variable {φ : Nat → Nat} {m : Machine} {n : Nat}

/-- One level more of an expression. The cases follow `Run.eval`. -/
theorem MovesAll.eval_succ (ih : MovesAll φ m n) (env : Nat) (e : Expr) :
    Moves φ (Value.move φ) (Run.eval m (n + 1) env e) (Run.eval m (n + 1) env (e.move φ)) := by
  -- the cases follow `Run.eval`, and moving follows the same tree
  cases e with
  | number | string | bool | nil => exact moves_pure rfl
  | gap => exact moves_fail _
  | this ref => exact moves_readRef φ env ref
  | «variable» ref => exact moves_readRef φ env ref
  | assign ref value =>
    refine (ih.eval env value).bind fun v => ?_
    exact (moves_assignRef φ env ref v).bind fun _ => moves_pure rfl
  | unary op operand => exact (ih.eval env operand).bind fun v => moves_applyUnary φ op v
  | binary op left right =>
    refine (ih.eval env left).bind fun a => ?_
    exact (ih.eval env right).bind fun b => moves_applyBinary φ op a b
  | logical op left right =>
    refine (ih.eval env left).bind fun a => ?_
    rw [Value.isTruthy_move, Token.kind_move]
    split
    · exact moves_pure rfl
    · exact ih.eval env right
  | group inner => exact ih.eval env inner
  | call callee paren args =>
    refine (ih.eval env callee).bind fun f => ?_
    refine (moves_mapM (ih.eval env) args).bind fun vs => ?_
    exact moves_call ih.invoke m.maxDepth paren f vs
  | get object name => exact (ih.eval env object).bind fun v => moves_getMember φ v name
  | set object name value =>
    refine (ih.eval env object).bind fun owner => ?_
    refine (moves_fieldOwner φ owner name).bind fun id => ?_
    refine (ih.eval env value).bind fun v => ?_
    exact (moves_setField φ id name.lexeme v).bind fun _ => moves_pure rfl
  | «super» ref method => exact moves_superMethod φ env ref method
  | lambda keyword params body =>
    exact (moves_makeClosure φ env "" params body false).bind fun _ => moves_pure rfl

/-- One level more of a statement. The cases follow `Run.exec`. -/
theorem MovesAll.exec_succ (ih : MovesAll φ m n) (env : Nat) (s : Stmt) :
    Moves φ (Completion.move φ) (Run.exec m (n + 1) env s) (Run.exec m (n + 1) env (s.move φ)) := by
  cases s with
  | expr e => exact (ih.eval env e).discard.bind fun _ => moves_pure rfl
  | print e =>
    refine (ih.eval env e).bind fun v => ?_
    rw [Value.text_move]
    exact (moves_write φ m.sink v.text).bind fun _ => moves_pure rfl
  | var name init =>
    cases init with
    | none => exact (moves_define φ env name.lexeme .nil).bind fun _ => moves_pure rfl
    | some init =>
      refine (ih.eval env init).bind fun v => ?_
      exact (moves_define φ env name.lexeme v).bind fun _ => moves_pure rfl
  | block body =>
    exact (moves_newFrame φ env []).bind fun inner => moves_runAll (ih.exec inner) body
  | cond test yes no =>
    cases no with
    | none =>
      refine (ih.eval env test).bind fun v => ?_
      rw [Value.isTruthy_move]
      split
      · exact ih.exec env yes
      · exact moves_pure rfl
    | some no =>
      refine (ih.eval env test).bind fun v => ?_
      rw [Value.isTruthy_move]
      split
      · exact ih.exec env yes
      · exact ih.exec env no
  | loop test body =>
    refine (ih.eval env test).bind fun v => ?_
    rw [Value.isTruthy_move]
    split
    · refine (ih.exec env body).bind fun completion => ?_
      cases completion with
      | returned v => exact moves_pure rfl
      | normal => exact ih.exec env (.loop test body)
    · exact moves_pure rfl
  | function decl =>
    obtain ⟨name, params, body⟩ := decl
    refine (moves_makeClosure φ env name.lexeme params body false).bind fun f => ?_
    exact (moves_define φ env name.lexeme (.function f)).bind fun _ => moves_pure rfl
  | ret keyword value =>
    cases value with
    | none => exact moves_pure rfl
    | some value => exact (ih.eval env value).bind fun _ => moves_pure rfl
  | classDecl name superclass methods =>
    exact (moves_declareClass φ env name superclass methods).bind fun _ => moves_pure rfl
  | gap => exact moves_fail _

/-- One level more of a call. The cases follow `Run.invoke`. -/
theorem MovesAll.invoke_succ (ih : MovesAll φ m n) (f : Callable) (args : List Value) :
    Moves φ (Value.move φ) (Run.invoke m (n + 1) f args)
      (Run.invoke m (n + 1) (f.move φ) (args.map (Value.move φ))) := by
  have bodies (env : Nat) (body : List Stmt) :
      Moves φ (Completion.move φ) (runAll (Run.exec m n env) body)
        (runAll (Run.exec m n env) (Stmt.moveAll φ body)) :=
    moves_runAll (ih.exec env) body
  cases f with
  | function f => exact moves_callClosure bodies f args
  | native f =>
    refine (moves_ask φ).bind fun before => ?_
    have shown : (args.map (Value.move φ)).map (·.appearance) = args.map (·.appearance) := by
      rw [List.map_map]
      exact List.map_congr_left fun v _ => ((likeness_move φ).alike v _ rfl).symm
    dsimp only [Callable.move, id]
    rw [shown]
    exact moves_perform ih.invoke args [] _
  | classObj c => exact moves_construct (moves_callClosure bodies) c args

end Round

variable {m : Machine}

end Lox.Run
