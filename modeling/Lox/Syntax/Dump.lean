import Lox.Json
import Lox.Syntax.Basic

/-!
A tree as data: every node with its form first, optional children only where they are.
-/

namespace Lox

def Token.dump (t : Token) : Json :=
  .object [("type", .string t.kind.name), ("lexeme", .string t.lexeme), ("line", .int t.line)]

def dumpNode (form : String) (members : List (String × Json)) : Json :=
  .object (("type", .string form) :: members)

/-- A name where an expression is expected. -/
def Reference.dump (r : Reference) : Json := dumpNode "Variable" [("name", r.name.dump)]

mutual

def Expr.dump : Expr → Json
  | .number x => dumpNode "NumberLiteral" [("value", .number x)]
  | .string s => dumpNode "StringLiteral" [("value", .string s)]
  | .bool b => dumpNode "BooleanLiteral" [("value", .bool b)]
  | .nil => dumpNode "NilLiteral" []
  | .variable ref => ref.dump
  | .assign ref value =>
    dumpNode "AssignmentExpression" [("name", ref.name.dump), ("value", value.dump)]
  | .unary op operand =>
    dumpNode "UnaryExpression" [("operator", op.dump), ("operand", operand.dump)]
  | .binary op left right =>
    dumpNode "BinaryExpression"
      [("operator", op.dump), ("left", left.dump), ("right", right.dump)]
  | .logical op left right =>
    dumpNode "LogicalExpression"
      [("operator", op.dump), ("left", left.dump), ("right", right.dump)]
  | .group inner => dumpNode "GroupingExpression" [("expression", inner.dump)]
  | .call callee paren args =>
    dumpNode "FunctionCall"
      [("callee", callee.dump), ("paren", paren.dump), ("arguments", .array (Expr.dumps args))]
  | .get object name => dumpNode "GetExpression" [("object", object.dump), ("name", name.dump)]
  | .set object name value =>
    dumpNode "SetExpression"
      [("object", object.dump), ("name", name.dump), ("value", value.dump)]
  | .this ref => dumpNode "ThisExpression" [("keyword", ref.name.dump)]
  | .super ref method =>
    dumpNode "SuperExpression" [("keyword", ref.name.dump), ("method", method.dump)]
  | .lambda keyword params body =>
    dumpNode "LambdaExpression"
      [("keyword", keyword.dump), ("params", .array (params.map Token.dump)),
       ("body", .array (Stmt.dumps body))]
  | .gap => .null

def Expr.dumps : List Expr → List Json
  | [] => []
  | e :: rest => e.dump :: Expr.dumps rest

def Stmt.dump : Stmt → Json
  | .expr e => dumpNode "ExpressionStatement" [("expression", e.dump)]
  | .print e => dumpNode "PrintStatement" [("expression", e.dump)]
  | .var name none => dumpNode "VarDeclaration" [("name", name.dump)]
  | .var name (some init) =>
    dumpNode "VarDeclaration" [("name", name.dump), ("initializer", init.dump)]
  | .block body => dumpNode "BlockStatement" [("body", .array (Stmt.dumps body))]
  | .cond test yes none =>
    dumpNode "IfStatement" [("condition", test.dump), ("then", yes.dump)]
  | .cond test yes (some no) =>
    dumpNode "IfStatement" [("condition", test.dump), ("then", yes.dump), ("else", no.dump)]
  | .loop test body => dumpNode "WhileLoop" [("condition", test.dump), ("body", body.dump)]
  | .function decl => decl.dump
  | .ret keyword none => dumpNode "ReturnStatement" [("keyword", keyword.dump)]
  | .ret keyword (some value) =>
    dumpNode "ReturnStatement" [("keyword", keyword.dump), ("value", value.dump)]
  | .classDecl name none methods =>
    dumpNode "ClassDeclaration"
      [("name", name.dump), ("methods", .array (Function.dumps methods))]
  | .classDecl name (some superclass) methods =>
    dumpNode "ClassDeclaration"
      [("name", name.dump), ("superclass", superclass.dump),
       ("methods", .array (Function.dumps methods))]
  | .gap => .null

def Stmt.dumps : List Stmt → List Json
  | [] => []
  | s :: rest => s.dump :: Stmt.dumps rest

def Function.dump : Function → Json
  | ⟨name, params, body⟩ =>
    dumpNode "FunctionDeclaration"
      [("name", name.dump), ("params", .array (params.map Token.dump)),
       ("body", .array (Stmt.dumps body))]

def Function.dumps : List Function → List Json
  | [] => []
  | f :: rest => f.dump :: Function.dumps rest

end

def Program.dump (p : Program) : Json :=
  dumpNode "Program" [("body", .array (Stmt.dumps p.body))]

def Node.dump : Node → Json
  | .expr e => e.dump
  | .stmt s => s.dump
  | .program p => p.dump
  | .missing => .null

end Lox
