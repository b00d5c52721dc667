import Lox.Grammar.Stmt

/-!
Whole programs. Constructs nest, and the depth of nesting is given from outside: every level takes
a token, so a program never nests deeper than it has tokens.
-/

namespace Lox.Grammar

open Lox.Grammar.Parser

mutual

/-- An expression that nests at most so deep. -/
def expressionAt : Nat → Parser Expr
  | 0, c => fail .nesting c
  | n + 1, c => assignment (expressionAt n) (block (declarationAt n)) c

def statementAt : Nat → Parser Stmt
  | 0, c => fail .nesting c
  | n + 1, c => anyStatement (expressionAt n) (statementAt n) (declarationAt n) c

/-- A declaration, or nothing where it had an error. -/
def declarationAt : Nat → Parser (Option Stmt)
  | 0, c => fail .nesting c
  | n + 1, c => recover (anyDeclaration (expressionAt n) (statementAt n) (declarationAt n)) c

end

/-- A declaration, a statement and an expression may start at one token, so three levels to a token
are enough. -/
def depthFor (tokens : List Token) : Nat := 3 * (tokens.length + 1)

/-- Declarations up to the end of the text. -/
def topLevel (depth : Nat) : Parser (List Stmt) := do
  let body ← repeatFrom (fun body => do
    if ← atEnd then return none
    else return some ((← declarationAt depth).toList ++ body)) []
  return body.reverse

/-- What parsing gives: with errors, the statements that had none. -/
structure Parsed where
  program : Program
  errors : List SyntaxError

def parse (tokens : List Token) : Parsed :=
  match topLevel (depthFor tokens) (.ofTokens tokens) with
  | .ok body c => { program := ⟨body⟩, errors := c.errors }
  | .error e c => { program := ⟨[]⟩, errors := c.errors ++ [e] }

end Lox.Grammar
