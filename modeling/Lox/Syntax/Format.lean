import Lox.Syntax.Sexpr

/-!
A tree as source text. Grouping keeps its parentheses, so the text of a parsed program parses to
the same tree.
-/

namespace Lox

/-- The start of a line at a given depth. -/
def newLine (depth : Nat) : String :=
  "\n" ++ String.join (List.replicate depth "  ")

/-- Braces around lines one deeper than the closing one. -/
def braces (depth : Nat) (lines : List String) : String :=
  "\x7b" ++ String.join (lines.map (newLine (depth + 1) ++ ·)) ++ newLine depth ++ "\x7d"

def paramText (params : List Token) : String :=
  "(" ++ String.intercalate ", " (params.map Token.lexeme) ++ ")"

mutual

/-- The text of an expression inside a statement at `depth`. -/
def Expr.format (depth : Nat) : Expr → String
  | .number x => treeNumber.number x
  | .string s => stringText s
  | .bool b => boolText b
  | .nil => "nil"
  | .variable ref => ref.name.lexeme
  | .assign ref value => ref.name.lexeme ++ " = " ++ value.format depth
  | .unary op operand => op.lexeme ++ operand.format depth
  | .binary op left right => left.format depth ++ " " ++ op.lexeme ++ " " ++ right.format depth
  | .logical op left right => left.format depth ++ " " ++ op.lexeme ++ " " ++ right.format depth
  | .group inner => "(" ++ inner.format depth ++ ")"
  | .call callee _ args =>
    callee.format depth ++ "(" ++ String.intercalate ", " (Expr.formats depth args) ++ ")"
  | .get object name => object.format depth ++ "." ++ name.lexeme
  | .set object name value =>
    object.format depth ++ "." ++ name.lexeme ++ " = " ++ value.format depth
  | .this _ => "this"
  | .super _ method => "super." ++ method.lexeme
  | .lambda _ params body =>
    "fun " ++ paramText params ++ " " ++ braces depth (Stmt.formats (depth + 1) body)
  | .gap => ""

def Expr.formats (depth : Nat) : List Expr → List String
  | [] => []
  | e :: rest => e.format depth :: Expr.formats depth rest

def Stmt.format (depth : Nat) : Stmt → String
  | .expr e => e.format depth ++ ";"
  | .print e => "print " ++ e.format depth ++ ";"
  | .var name none => "var " ++ name.lexeme ++ ";"
  | .var name (some init) => "var " ++ name.lexeme ++ " = " ++ init.format depth ++ ";"
  | .block body => braces depth (Stmt.formats (depth + 1) body)
  | .cond test yes none => "if (" ++ test.format depth ++ ") " ++ yes.format depth
  | .cond test yes (some no) =>
    "if (" ++ test.format depth ++ ") " ++ yes.format depth ++ " else " ++ no.format depth
  | .loop test body => "while (" ++ test.format depth ++ ") " ++ body.format depth
  | .function decl => "fun " ++ decl.format depth
  | .ret _ none => "return;"
  | .ret _ (some value) => "return " ++ value.format depth ++ ";"
  | .classDecl name none methods =>
    "class " ++ name.lexeme ++ " " ++ braces depth (Function.formats (depth + 1) methods)
  | .classDecl name (some superclass) methods =>
    "class " ++ name.lexeme ++ " < " ++ superclass.name.lexeme ++ " "
      ++ braces depth (Function.formats (depth + 1) methods)
  | .gap => ""

def Stmt.formats (depth : Nat) : List Stmt → List String
  | [] => []
  | s :: rest => s.format depth :: Stmt.formats depth rest

/-- A function without its keyword, as methods are written. -/
def Function.format (depth : Nat) : Function → String
  | ⟨name, params, body⟩ =>
    name.lexeme ++ paramText params ++ " " ++ braces depth (Stmt.formats (depth + 1) body)

def Function.formats (depth : Nat) : List Function → List String
  | [] => []
  | f :: rest => f.format depth :: Function.formats depth rest

end

def Program.format (p : Program) : String :=
  String.join (p.body.map (·.format 0 ++ "\n"))

def Node.format : Node → String
  | .expr e => e.format 0
  | .stmt s => s.format 0
  | .program p => p.format
  | .missing => ""

end Lox
