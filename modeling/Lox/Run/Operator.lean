import Lox.Run.World

/-!
Operators on values.
-/

namespace Lox.Run

def applyUnary (op : Token) (v : Value) : Run Value :=
  match op.kind with
  | .bang => return .bool !v.isTruthy
  | .minus =>
    match v with
    | .number x => return .number (-x)
    | _ => raise op (.negation v.kind)
  | _ => raise op (.unknownUnary op.lexeme)

/-- Arithmetic and comparison; a division by zero is infinite or no number. -/
def arithmetic? (kind : Token.Kind) (x y : Float) : Option Value :=
  match kind with
  | .minus => some (.number (x - y))
  | .star => some (.number (x * y))
  | .slash => some (.number (x / y))
  | .greater => some (.bool (x > y))
  | .greaterEqual => some (.bool (x ≥ y))
  | .less => some (.bool (x < y))
  | .lessEqual => some (.bool (x ≤ y))
  | _ => none

def applyBinary (op : Token) (left right : Value) : Run Value :=
  match op.kind, left, right with
  | .equalEqual, _, _ => return .bool (left.equals right)
  | .bangEqual, _, _ => return .bool !(left.equals right)
  | .plus, .string a, .string b => return .string (a ++ b)
  | .plus, .number x, .number y => return .number (x + y)
  | .plus, _, _ => raise op (.addition left.kind right.kind)
  | kind, .number x, .number y =>
    match arithmetic? kind x y with
    | some v => return v
    | none => raise op (.unknownBinary op.lexeme)
  | _, _, _ => raise op (.arithmetic op.lexeme left.kind right.kind)

end Lox.Run
