import Lox.Grammar.Expr

/-!
The grammar of statements and declarations. `expression`, `statement` and `declaration` stand for
what may be nested inside; a nested declaration recovers from its own errors and may give nothing.
-/

namespace Lox.Grammar

open Lox.Grammar.Parser

/-- Declarations up to the end of the text or a closing brace, which is left. -/
def declarations (declaration : Parser (Option Stmt)) : Parser (List Stmt) := do
  let body ← repeatFrom (fun body => do
    if (← isAt .rightBrace) || (← atEnd) then return none
    else return some ((← declaration).toList ++ body)) []
  return body.reverse

/-- The rest of a block, after its opening brace. -/
def block (declaration : Parser (Option Stmt)) : Parser (List Stmt) := do
  let body ← declarations declaration
  discard (expect .rightBrace .blockClosing)
  return body

def expressionStatement (expression : Parser Expr) : Parser Stmt := do
  let e ← expression
  discard (expect .semicolon .expressionEnd)
  return .expr e

def printStatement (expression : Parser Expr) : Parser Stmt := do
  let e ← expression
  discard (expect .semicolon .printEnd)
  return .print e

/-- An expression, unless `closing` is at hand. -/
def optionalUnless (closing : Token.Kind) (expression : Parser Expr) : Parser (Option Expr) := do
  if ← isAt closing then return none
  else return some (← expression)

def returnStatement (expression : Parser Expr) (keyword : Token) : Parser Stmt := do
  let value ← optionalUnless .semicolon expression
  discard (expect .semicolon .returnEnd)
  return .ret keyword value

def varDeclaration (expression : Parser Expr) : Parser Stmt := do
  let name ← expect .identifier .variableName
  let init ← match ← take? [.equal] with
    | none => pure none
    | some _ => some <$> expression
  discard (expect .semicolon .variableEnd)
  return .var name init

section

variable (expression : Parser Expr) (statement : Parser Stmt)

def whileStatement : Parser Stmt := do
  discard (expect .leftParen .whileParen)
  let test ← expression
  discard (expect .rightParen .conditionEnd)
  let body ← statement
  return .loop test body

def ifStatement : Parser Stmt := do
  discard (expect .leftParen .ifParen)
  let test ← expression
  discard (expect .rightParen .ifConditionEnd)
  let yes ← statement
  match ← take? [.elseKw] with
  | none => return .cond test yes none
  | some _ => return .cond test yes (some (← statement))

/-- The first clause of a `for`: nothing, a declaration or an expression. -/
def forInit : Parser (Option Stmt) := do
  match ← take? [.semicolon, .varKw] with
  | none => some <$> expressionStatement expression
  | some t =>
    if t.kind = .semicolon then return none
    else some <$> varDeclaration expression

/-- A `for` in terms of `while`: its body is followed by the step, and the whole is a block that
starts with the first clause. Without a condition it runs for ever. -/
def desugarFor (init : Option Stmt) (test step : Option Expr) (body : Stmt) : Stmt :=
  let body := match step with
    | none => body
    | some step => .block [body, .expr step]
  let loop := .loop (test.getD (.bool true)) body
  match init with
  | none => loop
  | some init => .block [init, loop]

def forStatement : Parser Stmt := do
  discard (expect .leftParen .forParen)
  let init ← forInit expression
  let test ← optionalUnless .semicolon expression
  discard (expect .semicolon .loopConditionEnd)
  let step ← optionalUnless .rightParen expression
  discard (expect .rightParen .forClausesEnd)
  let body ← statement
  return desugarFor init test step body

variable (declaration : Parser (Option Stmt))

/-- What tells a statement that is no expression. -/
def statementKinds : List Token.Kind :=
  [.forKw, .ifKw, .printKw, .returnKw, .whileKw, .leftBrace]

def anyStatement : Parser Stmt := do
  match ← take? statementKinds with
  | none => expressionStatement expression
  | some t =>
    match t.kind with
    | .forKw => forStatement expression statement
    | .ifKw => ifStatement expression statement
    | .printKw => printStatement expression
    | .returnKw => returnStatement expression t
    | .whileKw => whileStatement expression statement
    | _ => .block <$> block declaration

/-- A function from its name on. -/
def function (owner : Owner) : Parser Function := do
  let name ← expect .identifier (.ownerName owner)
  discard (expect .leftParen (.ownerParen owner))
  let (params, body) ← functionRest (block declaration) owner
  return { name, params, body }

/-- The superclass clause: a colon does as well as a `<`. -/
def superclassClause : Parser (Option Reference) := do
  match ← take? [.less, .colon] with
  | none => return none
  | some _ => return some { name := ← expect .identifier .superclassName }

def methods : Parser (List Function) := do
  let methods ← repeatFrom (fun methods => do
    if (← isAt .rightBrace) || (← atEnd) then return none
    else return some ((← function declaration .method) :: methods)) []
  return methods.reverse

def classDeclaration : Parser Stmt := do
  let name ← expect .identifier .className
  let superclass ← superclassClause
  discard (expect .leftBrace .classOpening)
  let methods ← methods declaration
  discard (expect .rightBrace .classClosing)
  return .classDecl name superclass methods

/-- `fun` starts a declaration only when a name follows; a lambda may start a statement too. -/
def anyDeclaration : Parser Stmt := do
  if ← areAt .funKw .identifier then
    discard (take? [.funKw])
    .function <$> function declaration .function
  else match ← take? [.classKw, .varKw] with
    | none => statement
    | some t =>
      if t.kind = .classKw then classDeclaration declaration else varDeclaration expression

end

end Lox.Grammar
