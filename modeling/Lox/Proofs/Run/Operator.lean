import Lox.Proofs.Native.Given
import Lox.Run.Operator

/-!
What operators make of values: arithmetic gives plain values, and takes no others.
-/

namespace Lox.Run

/-- Arithmetic gives numbers and truth values. -/
theorem isPlain_of_arithmetic? {kind : Token.Kind} {x y : Float} {v : Value}
    (h : arithmetic? kind x y = some v) : v.isPlain = true := by
  unfold arithmetic? at h
  split at h <;> cases h <;> rfl

/-- Operands that hold parts of a program can be compared, and that is all. -/
theorem applyBinary_of_not_plain {op : Token} {a b : Value}
    (h : a.isPlain = false ∨ b.isPlain = false) :
    applyBinary op a b = match op.kind with
      | .equalEqual => pure (.bool (a.equals b))
      | .bangEqual => pure (.bool !(a.equals b))
      | .plus => raise op (.addition a.kind b.kind)
      | _ => raise op (.arithmetic op.lexeme a.kind b.kind) := by
  unfold applyBinary
  split
  · next kind => rw [kind]
  · next kind => rw [kind]
  · next kind => obtain h | h := h <;> cases h
  · next kind => obtain h | h := h <;> cases h
  · next kind _ _ => rw [kind]
  · obtain h | h := h <;> cases h
  · split <;> simp_all

end Lox.Run
