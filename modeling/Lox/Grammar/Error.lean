import Lox.Token

/-!
What can be wrong with a sequence of tokens.
-/

namespace Lox.Grammar

/-- What a body belongs to; messages name it. -/
inductive Owner where
  | function
  | method

def Owner.name : Owner → String
  | .function => "function"
  | .method => "method"

/-- What was expected where something else stood, or an assignment to what cannot be assigned. -/
inductive Complaint where
  | className
  | superclassName
  | classOpening
  | classClosing
  | ownerName (owner : Owner)
  | ownerParen (owner : Owner)
  | parameterName
  | parametersEnd
  | bodyOpening (owner : Owner)
  | variableName
  | variableEnd
  | blockClosing
  | forParen
  | loopConditionEnd
  | forClausesEnd
  | ifParen
  | ifConditionEnd
  | whileParen
  | conditionEnd
  | printEnd
  | returnEnd
  | expressionEnd
  | propertyName
  | argumentsEnd
  | superDot
  | superMethod
  | groupEnd
  | lambdaParen
  | expression
  | assignmentTarget
  /-- More nesting than there are tokens, which no program has. -/
  | nesting

def Complaint.message : Complaint → String
  | .className => "Expect class name."
  | .superclassName => "Expect superclass name."
  | .classOpening => "Expect '\x7b' before class body."
  | .classClosing => "Expect '\x7d' after class body."
  | .ownerName owner => "Expect " ++ owner.name ++ " name."
  | .ownerParen owner => "Expect '(' after " ++ owner.name ++ " name."
  | .parameterName => "Expect parameter name."
  | .parametersEnd => "Expect ')' after parameters."
  | .bodyOpening owner => "Expect '\x7b' before " ++ owner.name ++ " body."
  | .variableName => "Expect variable name."
  | .variableEnd => "Expect ';' after variable declaration."
  | .blockClosing => "Expect '\x7d' after block."
  | .forParen => "Expect '(' after 'for'."
  | .loopConditionEnd => "Expect ';' after loop condition."
  | .forClausesEnd => "Expect ')' after for clauses."
  | .ifParen => "Expect '(' after 'if'."
  | .ifConditionEnd => "Expect ')' after if condition."
  | .whileParen => "Expect '(' after 'while'."
  | .conditionEnd => "Expect ')' after condition."
  | .printEnd => "Expect ';' after value."
  | .returnEnd => "Expect ';' after return value."
  | .expressionEnd => "Expect ';' after expression."
  | .propertyName => "Expect property name after '.'."
  | .argumentsEnd => "Expect ')' after arguments."
  | .superDot => "Expect '.' after 'super'."
  | .superMethod => "Expect superclass method name."
  | .groupEnd => "Expect ')' after expression."
  | .lambdaParen => "Expect '(' after 'fun'."
  | .expression => "Expect expression."
  | .assignmentTarget => "Invalid assignment target."
  | .nesting => "Expect less nesting."

/-- A complaint about a token. -/
structure SyntaxError where
  token : Token
  complaint : Complaint

namespace SyntaxError

def message (e : SyntaxError) : String := e.complaint.message

def description (e : SyntaxError) : String :=
  "[line " ++ toString e.token.line ++ "] Error" ++ e.token.place ++ ": " ++ e.message

end SyntaxError

end Lox.Grammar
