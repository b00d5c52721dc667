import Lox.Syntax.Basic

/-!
Trees made without a source. Their tokens stand on line zero, and a word that is reserved keeps the
kind of its keyword.
-/

namespace Lox.Build

/-- An operator that no expression has. -/
structure UnknownOperator where
  lexeme : String

def UnknownOperator.message (e : UnknownOperator) : String := "ast: unknown operator " ++ e.lexeme

def operator (lexeme : String) : Except UnknownOperator Token :=
  match Token.operator? lexeme with
  | some op => .ok op
  | none => .error ⟨lexeme⟩

def reference (name : String) : Reference := { name := .ofWord name }

def named (name : String) : Expr := .variable (reference name)

def assign (name : String) (value : Expr) : Expr := .assign (reference name) value

def unary (op : String) (operand : Expr) : Except UnknownOperator Expr :=
  (operator op).map (.unary · operand)

def binary (op : String) (left right : Expr) : Except UnknownOperator Expr :=
  (operator op).map (.binary · left right)

def logical (op : String) (left right : Expr) : Except UnknownOperator Expr :=
  (operator op).map (.logical · left right)

def call (callee : Expr) (args : List Expr) : Expr :=
  .call callee { kind := .rightParen, lexeme := ")", line := 0 } args

def get (object : Expr) (name : String) : Expr := .get object (.ofWord name)

def set (object : Expr) (name : String) (value : Expr) : Expr := .set object (.ofWord name) value

def this : Expr := .this (reference "this")

def super (method : String) : Expr := .super (reference "super") (.ofWord method)

def lambda (params : List String) (body : List Stmt) : Expr :=
  .lambda (.ofWord "fun") (params.map .ofWord) body

def var (name : String) (init : Option Expr) : Stmt := .var (.ofWord name) init

def ret (value : Option Expr) : Stmt := .ret (.ofWord "return") value

def function (name : String) (params : List String) (body : List Stmt) : Function :=
  { name := .ofWord name, params := params.map .ofWord, body }

/-- A class; an empty name of a superclass stands for none. -/
def classDecl (name superclass : String) (methods : List Function) : Stmt :=
  .classDecl (.ofWord name) (if superclass = "" then none else some (reference superclass)) methods

end Lox.Build
