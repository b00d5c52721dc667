import Lox.Grammar.Parser
import Lox.Syntax.Basic

/-!
The grammar of expressions. `expression` and `block` stand for what may be nested inside.
-/

namespace Lox.Grammar

open Lox.Grammar.Parser

/-- Parameters up to their closing parenthesis, then a body in braces. -/
def functionRest (block : Parser (List Stmt)) (owner : Owner) :
    Parser (List Token × List Stmt) := do
  let params ← separated .rightParen (expect .identifier .parameterName)
  discard (expect .rightParen .parametersEnd)
  discard (expect .leftBrace (.bodyOpening owner))
  let body ← block
  return (params, body)

section

variable (expression : Parser Expr) (block : Parser (List Stmt))

/-- The value of a number token that has none is zero. -/
def numberOf (t : Token) : Float :=
  match t.literal with
  | .number x => x
  | _ => 0

/-- The value of a string token that has none is empty. -/
def stringOf (t : Token) : String :=
  match t.literal with
  | .string s => s
  | _ => ""

/-- `super` goes with the name of a method. -/
def superMethod (keyword : Token) : Parser Expr := do
  discard (expect .dot .superDot)
  let method ← expect .identifier .superMethod
  return .super { name := keyword } method

def lambda (keyword : Token) : Parser Expr := do
  discard (expect .leftParen .lambdaParen)
  let (params, body) ← functionRest block .function
  return .lambda keyword params body

def group : Parser Expr := do
  let inner ← expression
  discard (expect .rightParen .groupEnd)
  return .group inner

/-- What an expression may start with. -/
def primaryKinds : List Token.Kind :=
  [.falseKw, .trueKw, .nilKw, .number, .string, .thisKw, .superKw, .identifier, .funKw, .leftParen]

def primary : Parser Expr := do
  match ← take? primaryKinds with
  | none => fail .expression
  | some t =>
    match t.kind with
    | .falseKw => return .bool false
    | .trueKw => return .bool true
    | .nilKw => return .nil
    | .number => return .number (numberOf t)
    | .string => return .string (stringOf t)
    | .thisKw => return .this { name := t }
    | .superKw => superMethod t
    | .funKw => lambda block t
    | .leftParen => group expression
    | _ => return .variable { name := t }

/-- One call or property access after `e`, if there is one. -/
def suffix? (e : Expr) : Parser (Option Expr) := do
  match ← take? [.leftParen, .dot] with
  | none => return none
  | some t =>
    if t.kind = .leftParen then
      let args ← separated .rightParen expression
      let paren ← expect .rightParen .argumentsEnd
      return some (.call e paren args)
    else
      let name ← expect .identifier .propertyName
      return some (.get e name)

def call : Parser Expr := do
  let e ← primary expression block
  repeatFrom (suffix? expression) e

/-- The operators in front of an operand, the innermost first. -/
def prefixes : Parser (List Token) :=
  repeatFrom (fun ops => return (← take? [.bang, .minus]).map (· :: ops)) []

def unary : Parser Expr := do
  let ops ← prefixes
  let e ← call expression block
  return ops.foldl (fun e op => .unary op e) e

end

/-- Operands with operators between them, grouped from the left. -/
def leftAssoc (kinds : List Token.Kind) (make : Token → Expr → Expr → Expr)
    (operand : Parser Expr) : Parser Expr := do
  let first ← operand
  repeatFrom (fun left => do
    match ← take? kinds with
    | none => return none
    | some op => return some (make op left (← operand))) first

section

variable (expression : Parser Expr) (block : Parser (List Stmt))

def factor : Parser Expr := leftAssoc [.slash, .star] .binary (unary expression block)

def term : Parser Expr := leftAssoc [.minus, .plus] .binary (factor expression block)

def comparison : Parser Expr :=
  leftAssoc [.greater, .greaterEqual, .less, .lessEqual] .binary (term expression block)

def equality : Parser Expr :=
  leftAssoc [.bangEqual, .equalEqual] .binary (comparison expression block)

def conjunction : Parser Expr := leftAssoc [.andKw] .logical (equality expression block)

def disjunction : Parser Expr := leftAssoc [.orKw] .logical (conjunction expression block)

/-- The assignment to `target`. What cannot be assigned stays as it is, without the value. -/
def assignTo (equals : Token) (target value : Expr) : Parser Expr :=
  match target with
  | .variable ref => return .assign ref value
  | .get object name => return .set object name value
  | _ => do
    report ⟨equals, .assignmentTarget⟩
    return target

def assignment : Parser Expr := do
  let target ← disjunction expression block
  match ← take? [.equal] with
  | none => return target
  | some equals =>
    let value ← expression
    assignTo equals target value

end

end Lox.Grammar
