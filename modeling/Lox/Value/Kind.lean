/-!
The kinds of values.
-/

namespace Lox

namespace Value

inductive Kind where
  /-- What a native gives that gives nothing. -/
  | absent
  | nil
  | bool
  | number
  | string
  | function
  | native
  | classObj
  | object
deriving DecidableEq, Repr

namespace Kind

def name : Kind → String
  | absent => "absent"
  | nil => "nil"
  | bool => "boolean"
  | number => "number"
  | string => "string"
  | function => "function"
  | native => "native_function"
  | classObj => "class"
  | object => "instance"

/-- The kinds that have a number, in its order. -/
def numbered : List Kind :=
  [nil, bool, number, string, function, native, classObj, object]

/-- The name that goes with a number, also where no kind has it. -/
def nameOfIndex (i : Int) : String :=
  match if i < 0 then none else numbered[i.toNat]? with
  | some k => k.name
  | none => "unknown_kind_" ++ toString i

end Kind

end Value

end Lox
