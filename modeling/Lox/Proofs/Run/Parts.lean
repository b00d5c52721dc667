import Lox.Proofs.Run.Internal
import Lox.Run.Eval

/-!
Parts of runs that call nothing. Most of them are put together from few: a fresh identity, a new
frame, a look at the world, a stop. What holds of these, and of whatever is put together from parts
of which it holds, holds of names that are read, of methods that are bound and of operators.
-/

namespace Lox.Run

/-- A property of parts of runs that respects the way they are put together. Nothing is asked of the
stop at a call that nobody counted the arguments of. -/
structure Compositional (P : {α : Type} → Run α → Prop) : Prop where
  pure : ∀ {α : Type} (a : α), P (pure a)
  throw : ∀ {α : Type} {stop : Stop}, stop.isMiscount = false → P (throw stop : Run α)
  get : ∀ {α : Type} {next : World → Run α}, (∀ w, P (next w)) → P (get >>= next)
  bind : ∀ {α β : Type} {act : Run α} {next : α → Run β}, P act → (∀ a, P (next a)) →
    P (act >>= next)
  fresh : P fresh
  newFrame : ∀ parent bindings, P (newFrame parent bindings)

namespace Compositional

variable {P : {α : Type} → Run α → Prop}

/-- A fault at a token, unless it tells of a miscount. -/
theorem raise (h : Compositional P) {α : Type} {token : Token} {fault : Fault}
    (counted : (Stop.raised token fault).isMiscount = false) : P (Run.raise token fault : Run α) :=
  h.throw counted

/-- A fault without a place, unless it tells of a miscount. -/
theorem fail (h : Compositional P) {α : Type} {fault : Fault}
    (counted : (Stop.unplaced fault).isMiscount = false) : P (Run.fail fault : Run α) :=
  h.throw counted

/-! ### Names -/

/-- The value of a name. -/
theorem readRef (h : Compositional P) (env : Nat) (ref : Reference) : P (readRef env ref) := by
  refine h.get fun w => ?_
  dsimp only
  split
  · exact h.pure _
  · exact h.raise rfl

/-- An assignment, if to bind a name is such a part. -/
theorem assignRef (h : Compositional P) (define : ∀ e name v, P (define e name v)) (env : Nat)
    (ref : Reference) (v : Value) : P (assignRef env ref v) := by
  refine h.get fun w => ?_
  dsimp only
  split
  · exact define ..
  · exact h.raise rfl

/-! ### Functions and methods -/

theorem makeClosure (h : Compositional P) (env : Nat) (name : String) (params : List Token)
    (body : List Stmt) (isInit : Bool) : P (makeClosure env name params body isInit) :=
  h.bind h.fresh fun _ => h.pure _

/-- A method that is bound to its instance, in a new frame. -/
theorem bindMethod (h : Compositional P) (method : Closure) (object : Value) :
    P (bindMethod method object) :=
  h.bind (h.newFrame ..) fun _ => h.bind h.fresh fun _ => h.pure _

/-- The methods of a class, one after the other. -/
theorem makeMethods (h : Compositional P) (env : Nat) (fs : List Function)
    (methods : Bindings Closure) : P (makeMethods env fs methods) := by
  induction fs generalizing methods with
  | nil => exact h.pure _
  | cons f rest ih => exact h.bind (h.makeClosure ..) fun method => ih _

theorem readSuperclass (h : Compositional P) (env : Nat) (ref : Reference) :
    P (readSuperclass env ref) := by
  refine h.bind (h.readRef env ref) fun v => ?_
  cases v with
  | classObj c => exact h.pure c
  | _ => exact h.raise rfl

/-! ### Members -/

/-- A property of a value: a field, or else a method that is bound. -/
theorem getMember (h : Compositional P) (object : Value) (name : Token) :
    P (getMember object name) := by
  unfold Run.getMember
  cases object with
  | object id c =>
    have field : P (field? id name.lexeme) := h.get fun w => h.pure _
    refine h.bind field fun found => ?_
    cases found with
    | some v => exact h.pure v
    | none =>
      dsimp only
      cases c.method? name.lexeme with
      | some method => exact h.bind (h.bindMethod ..) fun _ => h.pure _
      | none => exact h.raise rfl
  | _ => exact h.raise rfl

theorem fieldOwner (h : Compositional P) (object : Value) (name : Token) :
    P (fieldOwner object name) := by
  unfold Run.fieldOwner
  split
  · exact h.pure _
  · exact h.raise rfl

theorem readAround (h : Compositional P) (env : Nat) (hops : Int) (keyword : Token)
    (name : String) : P (readAround env hops keyword name) := by
  refine h.get fun w => ?_
  split
  · exact h.pure _
  · exact h.raise rfl

/-- A method of the superclass, bound to the instance at hand. -/
theorem superMethod (h : Compositional P) (env : Nat) (ref : Reference) (method : Token) :
    P (superMethod env ref method) := by
  unfold Run.superMethod
  split
  · exact h.raise rfl
  · refine h.bind (h.readAround ..) fun v => ?_
    cases v with
    | classObj c =>
      refine h.bind (h.readAround ..) fun object => ?_
      cases object with
      | object =>
        dsimp only
        cases c.method? method.lexeme with
        | some f => exact h.bind (h.bindMethod ..) fun _ => h.pure _
        | none => exact h.raise rfl
      | _ => exact h.raise rfl
    | _ => exact h.raise rfl

/-! ### Operators -/

theorem applyUnary (h : Compositional P) (op : Token) (v : Value) : P (applyUnary op v) := by
  unfold Run.applyUnary
  split
  · exact h.pure _
  · split
    · exact h.pure _
    · exact h.raise rfl
  · exact h.raise rfl

theorem applyBinary (h : Compositional P) (op : Token) (a b : Value) : P (applyBinary op a b) := by
  unfold Run.applyBinary
  split
  · exact h.pure _
  · exact h.pure _
  · exact h.pure _
  · exact h.pure _
  · exact h.raise rfl
  · split
    · exact h.pure _
    · exact h.raise rfl
  · exact h.raise rfl

/-! ### Calls -/

/-- What a call gives once its body is through. -/
theorem answer (h : Compositional P) (f : Closure) (completion : Completion) :
    P (answer f completion) := by
  unfold Run.answer
  split
  · refine h.get fun w => ?_
    split
    · exact h.pure _
    · exact h.fail rfl
  · split <;> exact h.pure _

end Compositional

end Lox.Run
