import Lox.Value.Kind

/-!
Why a run stops.
-/

namespace Lox

inductive Fault where
  | undefinedVariable (name : String)
  | undefinedProperty (name : String)
  | negation (operand : Value.Kind)
  | addition (left right : Value.Kind)
  | arithmetic (op : String) (left right : Value.Kind)
  | unknownUnary (op : String)
  | unknownBinary (op : String)
  | notCallable (callee : Value.Kind)
  | arity (expected got : Nat) (callee : String)
  /-- A host called a function with the wrong number of arguments. -/
  | argumentCount (expected got : Nat)
  | stackOverflow
  | noProperties (owner : Value.Kind)
  | noFields (owner : Value.Kind)
  | superOutsideClass
  | superclassKind
  | superWithoutInstance
  /-- The output does not take a line. -/
  | output (reason : String)
  | native (message : String)
  | missingExpression
  | missingStatement
deriving DecidableEq

namespace Fault

def arguments (n : Nat) : String :=
  toString n ++ (if n = 1 then " argument" else " arguments")

def message : Fault → String
  | undefinedVariable name => "Undefined variable '" ++ name ++ "'."
  | undefinedProperty name => "Undefined property '" ++ name ++ "'."
  | negation operand => "Operand of '-' must be a number, got " ++ operand.name ++ "."
  | addition left right =>
    "Operands of '+' must be two numbers or two strings, got " ++ left.name ++ " and "
      ++ right.name ++ "."
  | arithmetic op left right =>
    "Operands of '" ++ op ++ "' must be numbers, got " ++ left.name ++ " and " ++ right.name ++ "."
  | unknownUnary op => "Unsupported unary operator '" ++ op ++ "'."
  | unknownBinary op => "Unsupported binary operator '" ++ op ++ "'."
  | notCallable callee => "Can only call functions and classes, got " ++ callee.name ++ "."
  | arity expected got callee =>
    "Expected " ++ arguments expected ++ " but got " ++ toString got ++ " for " ++ callee ++ "."
  | argumentCount expected got =>
    "Expected " ++ arguments expected ++ " but got " ++ toString got ++ "."
  | stackOverflow => "Stack overflow."
  | noProperties owner => "Only instances have properties, got " ++ owner.name ++ "."
  | noFields owner => "Only instances have fields, got " ++ owner.name ++ "."
  | superOutsideClass => "Can't use 'super' outside of a class."
  | superclassKind => "Superclass must be a class."
  | superWithoutInstance => "Can't use 'super' without an instance."
  | output reason => "print: " ++ reason
  | native text => text
  | missingExpression => "unsupported expression type: "
  | missingStatement => "unsupported statement type: "

end Fault

end Lox
