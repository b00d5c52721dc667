import Lox.Run.Fault
import Lox.Value.Appearance

/-!
What natives do. Settings turn on the natives of the library; a host may define more. A native works
through the hooks that it is given: its arguments, and a way to call back. It is shown its
arguments, and what comes of a call, be it a value or a problem; it may go on after either.
Functions, classes and instances it holds and hands on, and only the evaluation of a program makes
any: a native names what it was given by number.
-/

namespace Lox

/-- A fault, and the token it is at if a call has placed it. -/
structure Problem where
  token : Option Token
  fault : Fault

/-- The fault without the name of a variable, which belongs to the text of a program. -/
def Fault.shown : Fault → Fault
  | undefinedVariable _ => undefinedVariable ""
  | fault => fault

/-- What a native is shown of a problem: what is wrong, and whether it has a place. -/
structure Mishap where
  placed : Bool
  fault : Fault

def Problem.mishap (p : Problem) : Mishap := ⟨p.token.isSome, p.fault.shown⟩

/-- A value that a native speaks of. -/
inductive Datum where
  | absent
  | nil
  | bool (value : Bool)
  | number (value : Float)
  | string (value : String)
  | native (f : Native)
  /-- A value that the native was given: its arguments come first, then what its calls gave. -/
  | given (i : Nat)

/-- A number that nothing was given for stands for no value. -/
def Datum.value (given : List Value) : Datum → Value
  | absent => .absent
  | nil => .nil
  | bool b => .bool b
  | number x => .number x
  | string s => .string s
  | native f => .native f
  | .given i => given.getD i .absent

/-- What a native does: it answers, fails with a message of its own, passes on one of the problems
that it met, by number, or calls something and goes on by what comes of that. -/
inductive Reply where
  | answer (d : Datum)
  | fail (message : String)
  | pass (i : Nat)
  | call (callee : Datum) (args : List Datum) (resume : Except Mishap Appearance → Reply)

/-- What natives do, by how many were called before, by their names and by what they are shown of
their arguments. -/
abbrev Natives := Nat → String → List Appearance → Reply

end Lox
