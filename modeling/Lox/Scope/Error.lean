import Lox.Token

/-!
What can be wrong with the names of a program.
-/

namespace Lox.Scope

inductive Complaint where
  | topLevelReturn
  | initializerReturn
  | selfInheritance
  | alreadyDeclared
  | ownInitializer
  | thisOutsideClass
  | superOutsideClass
  | superWithoutSuperclass
deriving DecidableEq

def Complaint.message : Complaint → String
  | .topLevelReturn => "Can't return from top-level code."
  | .initializerReturn => "Can't return a value from an initializer."
  | .selfInheritance => "A class can't inherit from itself."
  | .alreadyDeclared => "Already a variable with this name in this scope."
  | .ownInitializer => "Can't read local variable in its own initializer."
  | .thisOutsideClass => "Can't use 'this' outside of a class."
  | .superOutsideClass => "Can't use 'super' outside of a class."
  | .superWithoutSuperclass => "Can't use 'super' in a class with no superclass."

/-- A complaint about a token. -/
structure ScopeError where
  token : Token
  complaint : Complaint

namespace ScopeError

def message (e : ScopeError) : String := e.complaint.message

def description (e : ScopeError) : String :=
  "[line " ++ toString e.token.line ++ "] Error" ++ e.token.place ++ ": " ++ e.message

end ScopeError

end Lox.Scope
