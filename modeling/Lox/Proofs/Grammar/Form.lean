import Lox.Token

/-!
The grammar of programs, written down as data: a form for every syntactic category, and what it
means for a sequence of tokens to be of a form. Nothing here knows how programs are parsed. Where
the forms are ambiguous (an `else` after two `if`s) all readings count.
-/

namespace Lox.Grammar

/-- The syntactic categories. -/
inductive Symbol where
  | program | declaration | classDecl | method | params | varDecl | block | statement
  | forStmt | ifStmt | printStmt | returnStmt | whileStmt
  | expression | disjunction | conjunction | equality | comparison | term | factor
  | unary | call | primary | arguments

/-- What a sequence of tokens may look like. -/
inductive Form where
  /-- One token of one of the kinds. -/
  | token (kinds : List Token.Kind)
  | symbol (s : Symbol)
  | seq (first second : Form)
  | either (first second : Form)
  | optional (inner : Form)
  | many (inner : Form)

namespace Form

instance : Append Form := ⟨seq⟩

instance : Coe Symbol Form := ⟨symbol⟩

/-- One token of one kind. -/
def kind (k : Token.Kind) : Form := token [k]

/-- A form, and more of it after each of the operators. -/
def chain (operators : List Token.Kind) (operand : Form) : Form :=
  operand ++ many (token operators ++ operand)

/-- Some of a form with commas between them, or none. -/
def commas (item : Form) : Form := optional (chain [.comma] item)

end Form

open Form

/-- The form of each category. -/
def Symbol.form : Symbol → Form
  | program => many declaration ++ kind .eof
  | declaration =>
    either classDecl
      (either (kind .funKw ++ kind .identifier ++ kind .leftParen ++ params ++ kind .rightParen
          ++ block)
        (either varDecl statement))
  | classDecl =>
    kind .classKw ++ kind .identifier ++ optional (token [.less, .colon] ++ kind .identifier)
      ++ kind .leftBrace ++ many method ++ kind .rightBrace
  | method => kind .identifier ++ kind .leftParen ++ params ++ kind .rightParen ++ block
  | params => commas (kind .identifier)
  | varDecl =>
    kind .varKw ++ kind .identifier ++ optional (kind .equal ++ expression) ++ kind .semicolon
  | block => kind .leftBrace ++ many declaration ++ kind .rightBrace
  | statement =>
    either forStmt (either ifStmt (either printStmt (either returnStmt (either whileStmt
      (either block (expression ++ kind .semicolon))))))
  | forStmt =>
    kind .forKw ++ kind .leftParen
      ++ either (kind .semicolon) (either varDecl (expression ++ kind .semicolon))
      ++ optional expression ++ kind .semicolon ++ optional expression ++ kind .rightParen
      ++ statement
  | ifStmt =>
    kind .ifKw ++ kind .leftParen ++ expression ++ kind .rightParen ++ statement
      ++ optional (kind .elseKw ++ statement)
  | printStmt => kind .printKw ++ expression ++ kind .semicolon
  | returnStmt => kind .returnKw ++ optional expression ++ kind .semicolon
  | whileStmt => kind .whileKw ++ kind .leftParen ++ expression ++ kind .rightParen ++ statement
  | expression =>
    either (optional (call ++ kind .dot) ++ kind .identifier ++ kind .equal ++ expression)
      disjunction
  | disjunction => chain [.orKw] conjunction
  | conjunction => chain [.andKw] equality
  | equality => chain [.bangEqual, .equalEqual] comparison
  | comparison => chain [.greater, .greaterEqual, .less, .lessEqual] term
  | term => chain [.minus, .plus] factor
  | factor => chain [.slash, .star] unary
  | unary => either (token [.bang, .minus] ++ unary) call
  | call =>
    primary ++ many (either (kind .leftParen ++ arguments ++ kind .rightParen)
      (kind .dot ++ kind .identifier))
  | arguments => commas expression
  | primary =>
    either (token [.falseKw, .trueKw, .nilKw, .number, .string, .thisKw, .identifier])
      (either (kind .superKw ++ kind .dot ++ kind .identifier)
        (either (kind .leftParen ++ expression ++ kind .rightParen)
          (kind .funKw ++ kind .leftParen ++ params ++ kind .rightParen ++ block)))

/-- The tokens are of the form. -/
inductive Derives : Form → List Token → Prop where
  | token {kinds : List Token.Kind} {t : Token} : t.kind ∈ kinds → Derives (.token kinds) [t]
  | symbol {s : Symbol} {u : List Token} : Derives s.form u → Derives (.symbol s) u
  | seq {a b : Form} {u v : List Token} :
      Derives a u → Derives b v → Derives (.seq a b) (u ++ v)
  | left {a b : Form} {u : List Token} : Derives a u → Derives (.either a b) u
  | right {a b : Form} {u : List Token} : Derives b u → Derives (.either a b) u
  | none {a : Form} : Derives (.optional a) []
  | some {a : Form} {u : List Token} : Derives a u → Derives (.optional a) u
  | nil {a : Form} : Derives (.many a) []
  | cons {a : Form} {u v : List Token} :
      Derives a u → Derives (.many a) v → Derives (.many a) (u ++ v)

end Lox.Grammar
