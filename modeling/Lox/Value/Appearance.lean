import Lox.Value.Basic

/-!
How values look to a host: what they are, what they print and how they can be called. What a program
is made of, the names of parameters and the lines of tokens, does not show.
-/

namespace Lox

/-- What a host is shown of a value. Which function, class or instance it is shows as a number. -/
inductive Appearance where
  | absent
  | nil
  | bool (value : Bool)
  | number (value : Float)
  | string (value : String)
  | function (id : Nat) (name : String) (arity : Nat)
  | native (f : Native)
  | classObj (id : Nat) (name : String) (arity : Nat)
  | object (id class_ : Nat) (name : String)

def Value.appearance : Value → Appearance
  | absent => .absent
  | nil => .nil
  | bool b => .bool b
  | number x => .number x
  | string s => .string s
  | function f => .function f.id f.name (Callable.function f).arity
  | native f => .native f
  | classObj c => .classObj c.id c.name (Callable.classObj c).arity
  | object id c => .object id c.id c.name

namespace Appearance

def kind : Appearance → Value.Kind
  | absent => .absent
  | nil => .nil
  | bool _ => .bool
  | number _ => .number
  | string _ => .string
  | function .. => .function
  | native _ => .native
  | classObj .. => .classObj
  | object .. => .object

/-- How many arguments it takes, if it can be called. -/
def arity? : Appearance → Option Nat
  | function _ _ n | classObj _ _ n => some n
  | native f => some f.arity
  | _ => none

end Appearance

end Lox
