import Lox.Bindings
import Lox.Syntax.Basic
import Lox.Value.Kind

/-!
Values. Functions, classes and instances have an identity: two of them are equal only if they were
made at one moment. Frames and the fields of instances live outside, under their numbers.
-/

namespace Lox

/-- A function with the frame that it was made in. -/
structure Closure where
  id : Nat
  /-- Empty for a function without a name. -/
  name : String
  params : List Token
  body : List Stmt
  /-- The frame around the function's own. -/
  frame : Nat
  isInit : Bool

/-- A function of the host. -/
structure Native where
  name : String
  arity : Nat
deriving DecidableEq

/-- A class with its own methods; the rest is inherited. -/
structure Class where
  id : Nat
  name : String
  superclass : Option Class
  methods : Bindings Closure

inductive Value where
  /-- What a native gives that gives nothing. -/
  | absent
  | nil
  | bool (value : Bool)
  | number (value : Float)
  | string (value : String)
  | function (f : Closure)
  | native (f : Native)
  | classObj (c : Class)
  | object (id : Nat) (c : Class)

instance : Inhabited Value := ⟨.nil⟩

/-- What can be called. -/
inductive Callable where
  | function (f : Closure)
  | native (f : Native)
  | classObj (c : Class)

/-- The nearest method of a name, in the class itself or in those it inherits from. -/
def Class.method? (name : String) : Class → Option Closure
  | ⟨_, _, none, methods⟩ => Bindings.get? name methods
  | ⟨_, _, some c, methods⟩ =>
    match Bindings.get? name methods with
    | some f => some f
    | none => c.method? name

namespace Callable

/-- A class takes what its initializer takes. -/
def arity : Callable → Nat
  | function f => f.params.length
  | native f => f.arity
  | classObj c => ((c.method? initName).map (·.params.length)).getD 0

/-- How messages speak of what was called. -/
def description : Callable → String
  | function f =>
    if f.name = "" then "anonymous function" else "function '" ++ f.name ++ "'"
  | native f => "native function '" ++ f.name ++ "'"
  | classObj c => "class '" ++ c.name ++ "'"

end Callable

namespace Value

def kind : Value → Kind
  | absent => .absent
  | nil => .nil
  | bool _ => .bool
  | number _ => .number
  | string _ => .string
  | function _ => .function
  | native _ => .native
  | classObj _ => .classObj
  | object _ _ => .object

/-- Only `nil` and `false` do not count as true. -/
def isTruthy : Value → Bool
  | nil => false
  | bool b => b
  | _ => true

/-- Values of different kinds differ. A number that is none differs from itself. -/
def equals : Value → Value → Bool
  | absent, absent => true
  | nil, nil => true
  | bool a, bool b => a = b
  | number a, number b => a == b
  | string a, string b => a = b
  | function a, function b => a.id = b.id
  | native a, native b => a.name = b.name
  | classObj a, classObj b => a.id = b.id
  | object a _, object b _ => a = b
  | _, _ => false

/-- What `print` shows. -/
def text : Value → String
  | absent | nil => "nil"
  | bool b => if b then "true" else "false"
  | number x => Decimal.plain.number x
  | string s => s
  | function f => if f.name = "" then "<fn>" else "<fn " ++ f.name ++ ">"
  | native _ => "<native fn>"
  | classObj c => c.name
  | object _ c => "<" ++ c.name ++ " instance>"

def callable? : Value → Option Callable
  | function f => some (.function f)
  | native f => some (.native f)
  | classObj c => some (.classObj c)
  | _ => none

end Value

end Lox
