import Lox.Native.Standard

/-!
Natives that a host may add to a session: they work on numbers, call back, and look at values.
-/

namespace Lox.Native

def twice : Native := { name := "twice", arity := 1 }
def apply : Native := { name := "apply", arity := 2 }
def arityOf : Native := { name := "arity", arity := 1 }
def kindOf : Native := { name := "kind", arity := 1 }
def void : Native := { name := "void", arity := 0 }

def host : List Native := [twice, apply, arityOf, kindOf, void]

def host? (name : String) : Option Native := host.find? (·.name = name)

def twiceReply : Appearance → Reply
  | .number x => .answer (.number (x * 2))
  | _ => .fail "twice expects a number"

/-- Calls the first argument with the second one, however many arguments it takes; what comes of
that is given after the arguments, and a problem is passed on. -/
def applyReply (callee : Appearance) (args : Nat) : Reply :=
  match callee.arity? with
  | some _ => .call (.given 0) [.given 1] fun
    | .ok _ => .answer (.given args)
    | .error _ => .pass 0
  | none => .fail ("apply: " ++ callee.kind.name ++ " is not callable")

def arityReply (v : Appearance) : Reply :=
  match v.arity? with
  | some n => .answer (.number (Float.ofNat n))
  | none => .answer .nil

/-- What the host's natives do, and behind them the standard ones. -/
def hostReplies (now : Float) : Natives := fun before name args =>
  let first := args.headD .absent
  if name = twice.name then twiceReply first
  else if name = apply.name then applyReply first args.length
  else if name = arityOf.name then arityReply first
  else if name = kindOf.name then .answer (.string first.kind.name)
  else if name = void.name then .answer .absent
  else standardReplies now before name args

end Lox.Native
