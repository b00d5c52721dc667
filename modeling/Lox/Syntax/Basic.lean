import Lox.Token

/-!
The syntax tree of a program. A tree built by hand may lack a child where a parsed one never does;
`gap` stands there.
-/

namespace Lox

/-- A use of a name. `hops` is the number of scopes between the use and its binding; without it the
name is global, or nobody has looked yet. A negative number means the innermost scope. -/
structure Reference where
  name : Token
  hops : Option Int := none
deriving Inhabited

mutual

inductive Expr where
  | number (value : Float)
  | string (value : String)
  | bool (value : Bool)
  | nil
  | variable (ref : Reference)
  | assign (ref : Reference) (value : Expr)
  | unary (op : Token) (operand : Expr)
  | binary (op : Token) (left right : Expr)
  /-- Evaluates its right operand only if the left one does not decide. -/
  | logical (op : Token) (left right : Expr)
  | group (inner : Expr)
  | call (callee : Expr) (paren : Token) (args : List Expr)
  | get (object : Expr) (name : Token)
  | set (object : Expr) (name : Token) (value : Expr)
  | this (ref : Reference)
  | super (ref : Reference) (method : Token)
  | lambda (keyword : Token) (params : List Token) (body : List Stmt)
  | gap

inductive Stmt where
  | expr (e : Expr)
  | print (e : Expr)
  | var (name : Token) (init : Option Expr)
  | block (body : List Stmt)
  | cond (test : Expr) (yes : Stmt) (no : Option Stmt)
  | loop (test : Expr) (body : Stmt)
  | function (decl : Function)
  | ret (keyword : Token) (value : Option Expr)
  | classDecl (name : Token) (superclass : Option Reference) (methods : List Function)
  | gap

/-- A named function, or a method. -/
structure Function where
  name : Token
  params : List Token
  body : List Stmt

end

instance : Inhabited Expr := ⟨.gap⟩
instance : Inhabited Stmt := ⟨.gap⟩
instance : Inhabited Function := ⟨⟨default, [], []⟩⟩

structure Program where
  body : List Stmt
deriving Inhabited

/-- Any part of a tree, or none. -/
inductive Node where
  | expr (e : Expr)
  | stmt (s : Stmt)
  | program (p : Program)
  | missing

/-- The method that runs when an instance is made. -/
def initName : String := "init"

def Function.isInit (f : Function) : Bool := f.name.lexeme = initName

/-! ### Names of forms -/

def Expr.form : Expr → String
  | .number _ => "NumberLiteral"
  | .string _ => "StringLiteral"
  | .bool _ => "BooleanLiteral"
  | .nil => "NilLiteral"
  | .variable _ => "Variable"
  | .assign .. => "AssignmentExpression"
  | .unary .. => "UnaryExpression"
  | .binary .. => "BinaryExpression"
  | .logical .. => "LogicalExpression"
  | .group _ => "GroupingExpression"
  | .call .. => "FunctionCall"
  | .get .. => "GetExpression"
  | .set .. => "SetExpression"
  | .this _ => "ThisExpression"
  | .super .. => "SuperExpression"
  | .lambda .. => "LambdaExpression"
  | .gap => ""

def Stmt.form : Stmt → String
  | .expr _ => "ExpressionStatement"
  | .print _ => "PrintStatement"
  | .var .. => "VarDeclaration"
  | .block _ => "BlockStatement"
  | .cond .. => "IfStatement"
  | .loop .. => "WhileLoop"
  | .function _ => "FunctionDeclaration"
  | .ret .. => "ReturnStatement"
  | .classDecl .. => "ClassDeclaration"
  | .gap => ""

def Node.form : Node → String
  | .expr e => e.form
  | .stmt s => s.form
  | .program _ => "Program"
  | .missing => ""

/-! ### Operators -/

namespace Token

/-- The operators of expressions by their spelling. -/
def operators : List Kind :=
  [.minus, .plus, .slash, .star, .bang, .bangEqual, .equalEqual,
   .greater, .greaterEqual, .less, .lessEqual, .andKw, .orKw]

/-- An operator made up without a source. -/
def operator? (lexeme : String) : Option Token :=
  (operators.find? (·.name = lexeme)).map ({ kind := ·, lexeme, line := 0 })

end Token

end Lox
