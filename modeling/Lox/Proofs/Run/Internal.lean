import Lox.Run.World

/-!
How a run goes on and how it ends, and stops that would tell of a broken program and not of a wrong
one: a part or an operator that no text has, a look for `this` or `super` where there is none, a
call that nobody counted the arguments of.
-/

namespace Lox

namespace Run

variable {α : Type}

/-- The world at the end, however it came. -/
def final : EStateM.Result Stop World α → World
  | .ok _ w | .error _ w => w

/-- Why the end came early, if it did. -/
def stop? : EStateM.Result Stop World α → Option Stop
  | .ok _ _ => none
  | .error stop _ => some stop

section Bind

variable {ε σ α β : Type} (act : EStateM ε σ α) (s : σ)

/-- Parts of a run one after the other: where the first stops, there is no second. -/
theorem bind_apply (next : α → EStateM ε σ β) :
    (act >>= next) s = match act s with
      | .ok a t => next a t
      | .error stop t => .error stop t :=
  EStateM.run_bind act next

theorem discard_apply : Functor.discard act s = (act >>= fun _ => pure ()) s := by
  rw [bind_apply]
  show EStateM.map _ act s = _
  unfold EStateM.map
  cases act s <;> rfl

end Bind

end Run

/-- The fault tells of a part that no text has, or of a look for `this` or `super` that fails. -/
def Fault.isInternal : Fault → Bool
  | .unknownUnary _ | .unknownBinary _ | .missingExpression | .missingStatement => true
  | .superOutsideClass | .superWithoutInstance => true
  | .undefinedVariable name => name = "this" || name = "super"
  | _ => false

/-- A superclass that is no class is found out where a class is declared, and never at a `super`. -/
def Stop.isInternal : Stop → Bool
  | .raised token .superclassKind => token.lexeme = "super"
  | .unplaced .superclassKind => true
  | .raised _ fault | .unplaced fault => fault.isInternal
  | .outOfFuel => false

/-- To place a fault makes it no internal one. -/
theorem Stop.isInternal_placed {stop : Stop} (h : stop.isInternal = false) (token : Token) :
    (Run.Stop.placed token stop).isInternal = false := by
  cases stop with
  | unplaced fault =>
    cases fault with
    | superclassKind => cases h
    | _ => exact h
  | _ => exact h

/-- A name that is not there is no internal fault, unless it is one that only calls bind. -/
theorem Stop.isInternal_undefined {token : Token} {name : String} (this : name ≠ "this")
    (super : name ≠ "super") :
    (Stop.raised token (.undefinedVariable name)).isInternal = false := by
  simp [isInternal, Fault.isInternal, this, super]

/-- A function got more or fewer arguments than it takes, and no call in the program saw it. -/
def Stop.isMiscount : Stop → Bool
  | .raised _ (.argumentCount _ _) | .unplaced (.argumentCount _ _) => true
  | _ => false

end Lox
