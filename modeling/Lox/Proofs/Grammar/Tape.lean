import Lox.Grammar.Program

/-!
The grammar read by position. A tape is a row of tokens with the number of the token at hand, and
every look at a token goes by its number: one that no token has stops the reading, and so does a
loop that is not over when its rounds are spent. The productions are those of the grammar of
cursors.
-/

namespace Lox.Grammar

structure Tape where
  tokens : List Token
  /-- The number of the token at hand. -/
  current : Nat := 0
  errors : List SyntaxError := []
  /-- The numbers of the tokens that were looked at. -/
  reads : List Int := []

/-- Why reading stops. -/
inductive Halt where
  | wrong (e : SyntaxError)
  /-- A look at a number that no token has. -/
  | outside (i : Int)
  /-- A loop or the nesting is not over in the rounds it was given. -/
  | spent

/-- A reader of tokens by their numbers. -/
abbrev Reader := EStateM Halt Tape

namespace Tape

/-- A row ends with the end of the text. One that does not gets an end on the line of its last
token. -/
def ofTokens (tokens : List Token) : Tape where
  tokens :=
    if tokens.getLast?.any (·.kind = .eof) then tokens
    else tokens ++ [.endAt ((tokens.getLast?.map Token.line).getD 1)]

def halt {α : Type} (h : Halt) : Reader α := fun t => .error h t

/-! ### Tokens by number -/

def tokenAt (i : Int) : Reader Token := fun t =>
  match if 0 ≤ i then t.tokens[i.toNat]? else none with
  | some u => .ok u { t with reads := t.reads ++ [i] }
  | none => .error (.outside i) t

/-- The token at hand. -/
def peek : Reader Token := fun t => tokenAt t.current t

/-- The token before the one at hand. -/
def previous : Reader Token := fun t => tokenAt (t.current - 1) t

def atEnd : Reader Bool := do
  let t ← peek
  return t.kind = .eof

/-- Whether the token at hand is of a kind; the end of the text is of none. -/
def check (kind : Token.Kind) : Reader Bool := do
  if ← atEnd then return false
  let t ← peek
  return t.kind = kind

/-- Whether the token behind the one at hand is of a kind. -/
def checkNext (kind : Token.Kind) : Reader Bool := fun t =>
  if t.current + 1 < t.tokens.length then (do
    let u ← tokenAt (t.current + 1)
    return u.kind = kind : Reader Bool) t
  else .ok false t

/-- Goes on by one token, but never past the end, and gives the token that was passed. -/
def advance : Reader Token := do
  if !(← atEnd) then modify fun t => { t with current := t.current + 1 }
  previous

/-- Takes the token at hand if it is of one of the kinds, which are tried in turn. -/
def take? : List Token.Kind → Reader (Option Token)
  | [] => return none
  | kind :: rest => do
    if ← check kind then return some (← advance)
    take? rest

def fail {α : Type} (complaint : Complaint) : Reader α := do
  let t ← peek
  halt (.wrong ⟨t, complaint⟩)

def expect (kind : Token.Kind) (complaint : Complaint) : Reader Token := do
  if ← check kind then advance else fail complaint

def report (e : SyntaxError) : Reader Unit :=
  modify fun t => { t with errors := t.errors ++ [e] }

/-- Repeats a step until it has nothing to add. -/
def loop {α : Type} (step : α → Reader (Option α)) : Nat → α → Reader α
  | 0, _ => halt .spent
  | fuel + 1, a => do
    match ← step a with
    | none => return a
    | some b => loop step fuel b

/-- Skips the token at hand, unless a statement may start here. -/
def skipOne : Reader (Option Unit) := do
  if ← atEnd then return none
  if (← previous).kind = .semicolon then return none
  if Parser.startsStatement (← peek).kind then return none
  discard advance
  return some ()

section

variable (fuel : Nat)

/-- Skips the token at hand, and on to where a statement may start. -/
def synchronize : Reader Unit := do
  discard advance
  loop (fun _ => skipOne) fuel ()

/-- Notes what is wrong and skips past it. -/
def recover {α : Type} (m : Reader α) : Reader (Option α) := fun t =>
  match m t with
  | .ok a t => .ok (some a) t
  | .error (.wrong e) t => (do report e; synchronize fuel; return none : Reader (Option α)) t
  | .error h t => .error h t

/-- Items with commas between them, none at all where `closing` is at hand. -/
def separated {α : Type} (closing : Token.Kind) (item : Reader α) : Reader (List α) := do
  if ← check closing then return []
  let first ← item
  let items ← loop (fun items => do
    match ← take? [.comma] with
    | none => return none
    | some _ => return some ((← item) :: items)) fuel [first]
  return items.reverse

/-! ### Expressions -/

def functionRest (block : Reader (List Stmt)) (owner : Owner) :
    Reader (List Token × List Stmt) := do
  let params ← separated fuel .rightParen (expect .identifier .parameterName)
  discard (expect .rightParen .parametersEnd)
  discard (expect .leftBrace (.bodyOpening owner))
  let body ← block
  return (params, body)

section

variable (expression : Reader Expr) (block : Reader (List Stmt))

def superMethod (keyword : Token) : Reader Expr := do
  discard (expect .dot .superDot)
  let method ← expect .identifier .superMethod
  return .super { name := keyword } method

def lambda (keyword : Token) : Reader Expr := do
  discard (expect .leftParen .lambdaParen)
  let (params, body) ← functionRest fuel block .function
  return .lambda keyword params body

def group : Reader Expr := do
  let inner ← expression
  discard (expect .rightParen .groupEnd)
  return .group inner

def primary : Reader Expr := do
  match ← take? primaryKinds with
  | none => fail .expression
  | some t =>
    match t.kind with
    | .falseKw => return .bool false
    | .trueKw => return .bool true
    | .nilKw => return .nil
    | .number => return .number (numberOf t)
    | .string => return .string (stringOf t)
    | .thisKw => return .this { name := t }
    | .superKw => superMethod t
    | .funKw => lambda fuel block t
    | .leftParen => group expression
    | _ => return .variable { name := t }

def suffix? (e : Expr) : Reader (Option Expr) := do
  match ← take? [.leftParen, .dot] with
  | none => return none
  | some t =>
    if t.kind = .leftParen then
      let args ← separated fuel .rightParen expression
      let paren ← expect .rightParen .argumentsEnd
      return some (.call e paren args)
    else
      let name ← expect .identifier .propertyName
      return some (.get e name)

def call : Reader Expr := do
  let e ← primary fuel expression block
  loop (suffix? fuel expression) fuel e

/-- An operator in front of an operand, which may have one in front itself. -/
def unary : Nat → Reader Expr
  | 0 => halt .spent
  | rounds + 1 => do
    match ← take? [.bang, .minus] with
    | none => call fuel expression block
    | some op => return .unary op (← unary rounds)

def leftAssoc (kinds : List Token.Kind) (make : Token → Expr → Expr → Expr)
    (operand : Reader Expr) : Reader Expr := do
  let first ← operand
  loop (fun left => do
    match ← take? kinds with
    | none => return none
    | some op => return some (make op left (← operand))) fuel first

def factor : Reader Expr :=
  leftAssoc fuel [.slash, .star] .binary (unary fuel expression block fuel)

def term : Reader Expr := leftAssoc fuel [.minus, .plus] .binary (factor fuel expression block)

def comparison : Reader Expr :=
  leftAssoc fuel [.greater, .greaterEqual, .less, .lessEqual] .binary (term fuel expression block)

def equality : Reader Expr :=
  leftAssoc fuel [.bangEqual, .equalEqual] .binary (comparison fuel expression block)

def conjunction : Reader Expr := leftAssoc fuel [.andKw] .logical (equality fuel expression block)

def disjunction : Reader Expr := leftAssoc fuel [.orKw] .logical (conjunction fuel expression block)

def assignTo (equals : Token) (target value : Expr) : Reader Expr :=
  match target with
  | .variable ref => return .assign ref value
  | .get object name => return .set object name value
  | _ => do
    report ⟨equals, .assignmentTarget⟩
    return target

def assignment : Reader Expr := do
  let target ← disjunction fuel expression block
  match ← take? [.equal] with
  | none => return target
  | some equals =>
    let value ← expression
    assignTo equals target value

end

/-! ### Statements -/

section

variable (expression : Reader Expr) (statement : Reader Stmt) (declaration : Reader (Option Stmt))

def declarations : Reader (List Stmt) := do
  let body ← loop (fun body => do
    if ← check .rightBrace then return none
    if ← atEnd then return none
    return some ((← declaration).toList ++ body)) fuel []
  return body.reverse

def block : Reader (List Stmt) := do
  let body ← declarations fuel declaration
  discard (expect .rightBrace .blockClosing)
  return body

def expressionStatement : Reader Stmt := do
  let e ← expression
  discard (expect .semicolon .expressionEnd)
  return .expr e

def printStatement : Reader Stmt := do
  let e ← expression
  discard (expect .semicolon .printEnd)
  return .print e

def optionalUnless (closing : Token.Kind) : Reader (Option Expr) := do
  if ← check closing then return none
  else return some (← expression)

def returnStatement (keyword : Token) : Reader Stmt := do
  let value ← optionalUnless expression .semicolon
  discard (expect .semicolon .returnEnd)
  return .ret keyword value

def varDeclaration : Reader Stmt := do
  let name ← expect .identifier .variableName
  let init ← match ← take? [.equal] with
    | none => pure none
    | some _ => some <$> expression
  discard (expect .semicolon .variableEnd)
  return .var name init

def whileStatement : Reader Stmt := do
  discard (expect .leftParen .whileParen)
  let test ← expression
  discard (expect .rightParen .conditionEnd)
  let body ← statement
  return .loop test body

def ifStatement : Reader Stmt := do
  discard (expect .leftParen .ifParen)
  let test ← expression
  discard (expect .rightParen .ifConditionEnd)
  let yes ← statement
  match ← take? [.elseKw] with
  | none => return .cond test yes none
  | some _ => return .cond test yes (some (← statement))

def forInit : Reader (Option Stmt) := do
  match ← take? [.semicolon, .varKw] with
  | none => some <$> expressionStatement expression
  | some t =>
    if t.kind = .semicolon then return none
    else some <$> varDeclaration expression

def forStatement : Reader Stmt := do
  discard (expect .leftParen .forParen)
  let init ← forInit expression
  let test ← optionalUnless expression .semicolon
  discard (expect .semicolon .loopConditionEnd)
  let step ← optionalUnless expression .rightParen
  discard (expect .rightParen .forClausesEnd)
  let body ← statement
  return desugarFor init test step body

def anyStatement : Reader Stmt := do
  match ← take? statementKinds with
  | none => expressionStatement expression
  | some t =>
    match t.kind with
    | .forKw => forStatement expression statement
    | .ifKw => ifStatement expression statement
    | .printKw => printStatement expression
    | .returnKw => returnStatement expression t
    | .whileKw => whileStatement expression statement
    | _ => .block <$> block fuel declaration

/-! ### Declarations -/

def function (owner : Owner) : Reader Function := do
  let name ← expect .identifier (.ownerName owner)
  discard (expect .leftParen (.ownerParen owner))
  let (params, body) ← functionRest fuel (block fuel declaration) owner
  return { name, params, body }

def superclassClause : Reader (Option Reference) := do
  match ← take? [.less, .colon] with
  | none => return none
  | some _ => return some { name := ← expect .identifier .superclassName }

def methods : Reader (List Function) := do
  let methods ← loop (fun methods => do
    if ← check .rightBrace then return none
    if ← atEnd then return none
    return some ((← function fuel declaration .method) :: methods)) fuel []
  return methods.reverse

def classDeclaration : Reader Stmt := do
  let name ← expect .identifier .className
  let superclass ← superclassClause
  discard (expect .leftBrace .classOpening)
  let methods ← methods fuel declaration
  discard (expect .rightBrace .classClosing)
  return .classDecl name superclass methods

/-- Whether a function with a name comes next. -/
def atFunction : Reader Bool := do
  if ← check .funKw then checkNext .identifier else return false

def anyDeclaration : Reader Stmt := do
  match ← take? [.classKw] with
  | some _ => classDeclaration fuel declaration
  | none =>
    if ← atFunction then
      discard advance
      .function <$> function fuel declaration .function
    else match ← take? [.varKw] with
      | some _ => varDeclaration expression
      | none => statement

end

end

/-! ### Programs -/

mutual

/-- An expression, its nesting and its loops within so many rounds. -/
def expressionAt : Nat → Reader Expr
  | 0 => halt .spent
  | n + 1 => assignment (n + 1) (expressionAt n) (block (n + 1) (declarationAt n))

def statementAt : Nat → Reader Stmt
  | 0 => halt .spent
  | n + 1 => anyStatement (n + 1) (expressionAt n) (statementAt n) (declarationAt n)

/-- A declaration, or nothing where it had an error. -/
def declarationAt : Nat → Reader (Option Stmt)
  | 0 => halt .spent
  | n + 1 => recover (n + 1)
      (anyDeclaration (n + 1) (expressionAt n) (statementAt n) (declarationAt n))

end

/-- Declarations up to the end of the text. -/
def topLevel (fuel : Nat) : Reader (List Stmt) := do
  let body ← loop (fun body => do
    if ← atEnd then return none
    return some ((← declarationAt fuel).toList ++ body)) fuel []
  return body.reverse

end Tape

end Lox.Grammar
