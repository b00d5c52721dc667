import Lox.Source.Piece
import Lox.Text.Normal

/-!
The tokens of a program's text, and what in it is no token. Scanning goes on past a fault, so one
pass finds them all.
-/

namespace Lox.Source

/-- A fault with the line on which it ends. -/
structure ScanError where
  line : Nat
  fault : Fault

namespace ScanError

def message (e : ScanError) : String := e.fault.message

def description (e : ScanError) : String :=
  "[line " ++ toString e.line ++ "] Error: " ++ e.message

end ScanError

def lineEnds (text : List Char) : Nat := text.count '\n'

/-- Two spellings of one word have one lexeme. -/
def wordLexeme (text : List Char) : String := String.ofList (Text.normalize text)

/-- A string's value: what stands between its quotes. -/
def unquote (text : List Char) : String := String.ofList (text.drop 1).dropLast

/-- The token of a piece that ends on line `line`. -/
def Piece.token? (line : Nat) : Piece → Option Token
  | .blank _ | .comment _ | .bad _ _ => none
  | .symbol kind text => some { kind, lexeme := String.ofList text, line }
  | .number value text =>
    some { kind := .number, lexeme := String.ofList text, literal := .number value, line }
  | .string text =>
    some { kind := .string, lexeme := String.ofList text, literal := .string (unquote text), line }
  | .word text => some { kind := .ofWord (wordLexeme text), lexeme := wordLexeme text, line }

def Piece.error? (line : Nat) : Piece → Option ScanError
  | .bad fault _ => some { line, fault }
  | _ => none

/-- The tokens of `pieces`, which start on line `line`, and the end of the text. -/
def tokensFrom (line : Nat) : List Piece → List Token
  | [] => [.endAt line]
  | p :: rest =>
    let line := line + lineEnds p.text
    match p.token? line with
    | some t => t :: tokensFrom line rest
    | none => tokensFrom line rest

def errorsFrom (line : Nat) : List Piece → List ScanError
  | [] => []
  | p :: rest =>
    let line := line + lineEnds p.text
    match p.error? line with
    | some e => e :: errorsFrom line rest
    | none => errorsFrom line rest

/-- What scanning a text gives. -/
structure Scanned where
  tokens : List Token
  errors : List ScanError

def scan (text : String) : Scanned :=
  let pieces := cut text.toList
  { tokens := tokensFrom 1 pieces, errors := errorsFrom 1 pieces }

end Lox.Source
