import Lox.Syntax.Basic

/-!
A tree as parenthesised prefix text, one statement of a program to a line. A gap leaves nothing
between its blanks.
-/

namespace Lox

/-- `(head part …)`. -/
def sexprForm (head : String) (parts : List String) : String :=
  "(" ++ head ++ String.join (parts.map (" " ++ ·)) ++ ")"

/-- How trees show numbers: all digits, and infinity with its sign. -/
def treeNumber : Decimal.Layout :=
  { Decimal.plain with nan := "NaN", infinity := "+Inf", negativeInfinity := "-Inf" }

def sexprParams (params : List Token) : String :=
  "(" ++ String.intercalate " " (params.map Token.lexeme) ++ ")"

/-- A string as it stands in the source: there are no escapes. -/
def stringText (s : String) : String := "\"" ++ s ++ "\""

def boolText (b : Bool) : String := if b then "true" else "false"

mutual

def Expr.sexpr : Expr → String
  | .number x => treeNumber.number x
  | .string s => stringText s
  | .bool b => boolText b
  | .nil => "nil"
  | .variable ref => ref.name.lexeme
  | .assign ref value => sexprForm "=" [ref.name.lexeme, value.sexpr]
  | .unary op operand => sexprForm op.lexeme [operand.sexpr]
  | .binary op left right => sexprForm op.lexeme [left.sexpr, right.sexpr]
  | .logical op left right => sexprForm op.lexeme [left.sexpr, right.sexpr]
  | .group inner => sexprForm "group" [inner.sexpr]
  | .call callee _ args => sexprForm "call" (callee.sexpr :: Expr.sexprs args)
  | .get object name => sexprForm "." [object.sexpr, name.lexeme]
  | .set object name value => sexprForm "set" [object.sexpr, name.lexeme, value.sexpr]
  | .this _ => "this"
  | .super _ method => sexprForm "super" [method.lexeme]
  | .lambda _ params body => sexprForm "fun" (sexprParams params :: Stmt.sexprs body)
  | .gap => ""

def Expr.sexprs : List Expr → List String
  | [] => []
  | e :: rest => e.sexpr :: Expr.sexprs rest

def Stmt.sexpr : Stmt → String
  | .expr e => sexprForm ";" [e.sexpr]
  | .print e => sexprForm "print" [e.sexpr]
  | .var name none => sexprForm "var" [name.lexeme]
  | .var name (some init) => sexprForm "var" [name.lexeme, init.sexpr]
  | .block body => sexprForm "block" (Stmt.sexprs body)
  | .cond test yes none => sexprForm "if" [test.sexpr, yes.sexpr]
  | .cond test yes (some no) => sexprForm "if-else" [test.sexpr, yes.sexpr, no.sexpr]
  | .loop test body => sexprForm "while" [test.sexpr, body.sexpr]
  | .function decl => decl.sexpr
  | .ret _ none => sexprForm "return" []
  | .ret _ (some value) => sexprForm "return" [value.sexpr]
  | .classDecl name none methods => sexprForm "class" (name.lexeme :: Function.sexprs methods)
  | .classDecl name (some superclass) methods =>
    sexprForm "class"
      (name.lexeme :: "<" :: superclass.name.lexeme :: Function.sexprs methods)
  | .gap => ""

def Stmt.sexprs : List Stmt → List String
  | [] => []
  | s :: rest => s.sexpr :: Stmt.sexprs rest

def Function.sexpr : Function → String
  | ⟨name, params, body⟩ =>
    sexprForm "fun" (name.lexeme :: sexprParams params :: Stmt.sexprs body)

def Function.sexprs : List Function → List String
  | [] => []
  | f :: rest => f.sexpr :: Function.sexprs rest

end

/-- Where nothing surrounds a gap, it is shown. -/
def missingText : String := "<nil>"

/-- A statement on a line of its own. -/
def Stmt.sexprLine : Stmt → String
  | .gap => missingText
  | s => s.sexpr

def Program.sexpr (p : Program) : String :=
  String.intercalate "\n" (p.body.map Stmt.sexprLine)

def Node.sexpr : Node → String
  | .expr e => e.sexpr
  | .stmt s => s.sexpr
  | .program p => p.sexpr
  | .missing => missingText

end Lox
