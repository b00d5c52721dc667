import Lox.Decimal.Layout

/-!
Tokens: what the text of a program consists of once blanks and comments are left out.
-/

namespace Lox

namespace Token

/-- The lexical category of a token. -/
inductive Kind where
  | leftParen | rightParen | leftBrace | rightBrace
  | comma | dot | minus | plus | semicolon | colon | slash | star
  | bang | bangEqual | equal | equalEqual | greater | greaterEqual | less | lessEqual
  | identifier | string | number
  | andKw | classKw | elseKw | falseKw | funKw | forKw | ifKw | nilKw
  | orKw | printKw | returnKw | superKw | thisKw | trueKw | varKw | whileKw
  | eof
deriving DecidableEq, Repr, Inhabited

namespace Kind

/-- How messages and dumps name a kind: symbols and keywords by their spelling. -/
def name : Kind → String
  | leftParen => "("
  | rightParen => ")"
  | leftBrace => "\x7b"
  | rightBrace => "\x7d"
  | comma => ","
  | dot => "."
  | minus => "-"
  | plus => "+"
  | semicolon => ";"
  | colon => ":"
  | slash => "/"
  | star => "*"
  | bang => "!"
  | bangEqual => "!="
  | equal => "="
  | equalEqual => "=="
  | greater => ">"
  | greaterEqual => ">="
  | less => "<"
  | lessEqual => "<="
  | identifier => "identifier"
  | string => "string"
  | number => "number"
  | andKw => "and"
  | classKw => "class"
  | elseKw => "else"
  | falseKw => "false"
  | funKw => "fun"
  | forKw => "for"
  | ifKw => "if"
  | nilKw => "nil"
  | orKw => "or"
  | printKw => "print"
  | returnKw => "return"
  | superKw => "super"
  | thisKw => "this"
  | trueKw => "true"
  | varKw => "var"
  | whileKw => "while"
  | eof => "EOF"

/-- The reserved words, in the order of their numbers. -/
def keywords : List Kind :=
  [andKw, classKw, elseKw, falseKw, funKw, forKw, ifKw, nilKw,
   orKw, printKw, returnKw, superKw, thisKw, trueKw, varKw, whileKw]

/-- Every kind, in the order of its number. -/
def all : List Kind :=
  [leftParen, rightParen, leftBrace, rightBrace,
   comma, dot, minus, plus, semicolon, colon, slash, star,
   bang, bangEqual, equal, equalEqual, greater, greaterEqual, less, lessEqual,
   identifier, string, number] ++ keywords ++ [eof]

def isKeyword (k : Kind) : Bool := keywords.contains k

def toIndex (k : Kind) : Nat := all.idxOf k

def ofIndex? (i : Int) : Option Kind :=
  if i < 0 then none else all[i.toNat]?

/-- The name that goes with a number, also where no kind has it. -/
def nameOfIndex (i : Int) : String :=
  match ofIndex? i with
  | some k => k.name
  | none => "token(" ++ toString i ++ ")"

def ofName? (s : String) : Option Kind := all.find? (·.name = s)

/-- A reserved word has its own kind, any other word is an identifier. -/
def ofWord (s : String) : Kind :=
  (keywords.find? (·.name = s)).getD identifier

end Kind

/-- The value that a token carries, if any. -/
inductive Literal where
  | none
  | number (value : Float)
  | string (value : String)
deriving Inhabited

/-- Numbers in the description of a token take an exponent where they are very large or small. -/
def numberLayout : Decimal.Layout :=
  { least := -4, limit := 6, width := 2
    nan := "NaN", infinity := "+Inf", negativeInfinity := "-Inf" }

end Token

/-- A lexeme with its kind, its value and the line on which it ends. -/
structure Token where
  kind : Token.Kind
  lexeme : String
  literal : Token.Literal := .none
  line : Nat
deriving Inhabited

namespace Token

/-- The end of the text, on line `line`. -/
def endAt (line : Nat) : Token := { kind := .eof, lexeme := "", line }

/-- A token made up without a source: its word decides its kind, and it stands on line zero. -/
def ofWord (word : String) : Token := { kind := .ofWord word, lexeme := word, line := 0 }

def description (t : Token) : String :=
  let head := t.kind.name ++ " " ++ t.lexeme
  match t.literal with
  | .none => head
  | .number x => head ++ " " ++ numberLayout.number x
  | .string s => head ++ " " ++ s

/-- Where a message says that a problem lies. -/
def place (t : Token) : String :=
  if t.kind = .eof then " at end" else " at '" ++ t.lexeme ++ "'"

end Token

end Lox
