import Lox.Proofs.Lines.Grammar
import Lox.Proofs.Lines.Run
import Lox.Proofs.Lines.Scope
import Lox.Proofs.Session.Watch
import Lox.Proofs.Source.Join

/-!
A session is the concatenation of its programs. Two programs that pass the checks make one program
when the second text stands below the first, and to run that one is to run the two in turn; only the
lines of the second program are others.
-/

namespace Lox

open Scope Source

/-! ### One program of two texts -/

namespace Grammar

/-- Declarations after declarations. -/
theorem Derivation.append {u v : List Token} {a b : List Stmt}
    (ha : Derivation .declarations u a) (hb : Derivation .declarations v b) :
    Derivation .declarations (u ++ v) (a ++ b) := by
  induction a generalizing u with
  | nil =>
    cases ha with
    | noDeclarations => exact hb
  | cons s rest ih =>
    cases ha with
    | declarations first more =>
      rw [List.append_assoc]
      exact .declarations first (ih more)

end Grammar

namespace Scope

end Scope

namespace Run

variable {m : Machine}

end Run

/-! ### Lines of a program and lines of the programs before it -/

namespace Line

/-- Lines of a program, told apart from lines of the programs before it. -/
def own (n : Nat) : Nat := 2 * n + 1

/-- Lines of the programs before a program, told apart from its own. -/
def earlier (n : Nat) : Nat := 2 * n

/-- Back to plain lines, where the program's own ones become others. -/
def plain (φ : Nat → Nat) (n : Nat) : Nat := if n % 2 = 0 then n / 2 else φ (n / 2)

end Line

namespace Session

/-- How a program is run from the state that the session is in. -/
theorem execute_eq (s : Session) (p : Program) :
    s.execute p =
      ({ s with world := Run.final (Run.program s.machine p s.world), runs := s.runs + 1 },
        (Run.stop? (Run.program s.machine p s.world)).map .ofStop) := by
  unfold execute
  cases Run.program s.machine p s.world <;> rfl

end Session

end Lox
