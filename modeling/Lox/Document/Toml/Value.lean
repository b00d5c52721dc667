import Lox.Document.Basic
import Lox.Document.Quoted

/-!
Values in TOML: texts in four kinds of quotes, integers in four bases, and lists of both. Other
kinds of values have no use in settings and are not read.
-/

namespace Lox.Document.Toml

/-! ### Blanks and comments -/

def isSpace (c : Char) : Bool := c = ' ' || c = '\t'

def skipSpace (cs : List Char) : List Char := cs.dropWhile isSpace

/-- A character that may stand in a text or a comment: no control character but the tab. -/
def isPlain (c : Char) : Bool := c = '\t' || (0x20 ≤ c.toNat && c.toNat ≠ 0x7F)

/-- The end of a comment's line. -/
def commentEnd? : List Char → Option (List Char)
  | [] => some []
  | '\n' :: rest => some ('\n' :: rest)
  | '\r' :: '\n' :: rest => some ('\n' :: rest)
  | c :: rest => if isPlain c then commentEnd? rest else none

def skipComment? : List Char → Option (List Char)
  | '#' :: rest => commentEnd? rest
  | cs => some cs

/-- Skips blanks, line ends and comments; `inComment` says whether a comment is at hand. -/
def skipFrom? (inComment : Bool) : List Char → Option (List Char)
  | [] => some []
  | '\r' :: '\n' :: rest | '\n' :: rest => skipFrom? false rest
  | c :: rest =>
    if inComment then if isPlain c then skipFrom? true rest else none
    else if c = '#' then skipFrom? true rest
    else if isSpace c then skipFrom? false rest
    else some (c :: rest)

/-- Skips to the next thing that says something. -/
def skip? (cs : List Char) : Option (List Char) := skipFrom? false cs

/-- What is left after a line's end, if nothing else stands before it. -/
def lineEnd? (cs : List Char) : Option (List Char) :=
  match skipComment? (skipSpace cs) with
  | some [] => some []
  | some ('\r' :: '\n' :: rest) | some ('\n' :: rest) => some rest
  | _ => none

/-! ### Texts -/

/-- What follows a backslash, and in how many characters. -/
def escape? : List Char → Option (Char × Nat)
  | 'b' :: _ => some ('\x08', 1)
  | 't' :: _ => some ('\t', 1)
  | 'n' :: _ => some ('\n', 1)
  | 'f' :: _ => some ('\x0c', 1)
  | 'r' :: _ => some ('\r', 1)
  | 'e' :: _ => some ('\x1b', 1)
  | '"' :: _ => some ('"', 1)
  | '\\' :: _ => some ('\\', 1)
  | 'u' :: rest => (hexChar? 4 rest).map (·, 5)
  | 'U' :: rest => (hexChar? 8 rest).map (·, 9)
  | _ => none

/-- A text in double quotes, which stays on its line. -/
def basic : List Char → Quotation
  | [] => none
  | '"' :: rest => some ([], rest)
  | '\\' :: rest =>
    match escape? rest with
    | some (c, n) => cons c (basic (rest.drop n))
    | none => none
  | c :: rest => if isPlain c then cons c (basic rest) else none
termination_by cs => cs.length
decreasing_by all_goals (simp only [List.length_cons, List.length_drop]; omega)

/-- A text in single quotes, which stays on its line and has no escapes. -/
def literal : List Char → Quotation
  | [] => none
  | '\'' :: rest => some ([], rest)
  | c :: rest => if isPlain c then cons c (literal rest) else none

/-- The end of a text in three quotes, of which the third was just read. Up to two more of them
belong to the text. -/
def closing (quote : Char) (cs : List Char) : Quotation :=
  let more := cs.takeWhile (· = quote)
  if more.length ≤ 2 then some (more, cs.dropWhile (· = quote)) else none

/-- Whether a line ends here, blanks apart. -/
def endsLine (cs : List Char) : Bool :=
  match skipSpace cs with
  | '\n' :: _ | '\r' :: '\n' :: _ => true
  | _ => false

/-- A text in three double quotes. A backslash at the end of a line takes away the blanks and line
ends after it, which is what `trim` is for. -/
def longBasic (trim : Bool) : List Char → Quotation
  | [] => none
  | '"' :: '"' :: '"' :: rest => closing '"' rest
  | '\r' :: '\n' :: rest =>
    if trim then longBasic true rest else cons '\r' (cons '\n' (longBasic false rest))
  | '\n' :: rest => if trim then longBasic true rest else cons '\n' (longBasic false rest)
  | '\\' :: rest =>
    if endsLine rest then longBasic true rest
    else
      match escape? rest with
      | some (c, n) => cons c (longBasic false (rest.drop n))
      | none => none
  | c :: rest =>
    if trim && isSpace c then longBasic true rest
    else if isPlain c then cons c (longBasic false rest)
    else none
termination_by cs => cs.length
decreasing_by all_goals (simp only [List.length_cons, List.length_drop]; omega)

/-- A text in three single quotes. -/
def longLiteral : List Char → Quotation
  | [] => none
  | '\'' :: '\'' :: '\'' :: rest => closing '\'' rest
  | '\r' :: '\n' :: rest => cons '\r' (cons '\n' (longLiteral rest))
  | '\n' :: rest => cons '\n' (longLiteral rest)
  | c :: rest => if isPlain c then cons c (longLiteral rest) else none

/-- A text that starts with a line end does not count it. -/
def afterLineEnd : List Char → List Char
  | '\n' :: rest | '\r' :: '\n' :: rest => rest
  | cs => cs

/-- A text on one line. -/
def shortText? : List Char → Quotation
  | '"' :: rest => basic rest
  | '\'' :: rest => literal rest
  | _ => none

def text? : List Char → Quotation
  | '"' :: '"' :: '"' :: rest => longBasic false (afterLineEnd rest)
  | '\'' :: '\'' :: '\'' :: rest => longLiteral (afterLineEnd rest)
  | cs => shortText? cs

/-! ### Integers -/

/-- A number without the underscores between its digits; they stand nowhere else. -/
def withoutUnderscores? : List Char → Option (List Char)
  | [] => some []
  | c :: '_' :: d :: rest =>
    if c = '_' || d = '_' then none else (withoutUnderscores? (d :: rest)).map (c :: ·)
  | c :: rest => if c = '_' then none else (withoutUnderscores? rest).map (c :: ·)

/-- Digits of a base with underscores between them. -/
def grouped? (base : Nat) (cs : List Char) : Option Nat :=
  (withoutUnderscores? cs).bind (digits? base)

/-- Whether a decimal starts with a zero that says nothing. -/
def hasLeadingZero : List Char → Bool
  | '0' :: _ :: _ => true
  | _ => false

def decimal? (cs : List Char) : Option Int :=
  let (negative, cs) := cutSign cs
  if hasLeadingZero cs then none
  else (grouped? 10 cs).map fun n => if negative then -(n : Int) else n

/-- A sign goes with base ten only. -/
def ofDigits? : List Char → Option Int
  | '0' :: 'x' :: rest => (grouped? 16 rest).map Int.ofNat
  | '0' :: 'o' :: rest => (grouped? 8 rest).map Int.ofNat
  | '0' :: 'b' :: rest => (grouped? 2 rest).map Int.ofNat
  | cs => decimal? cs

def isNumberChar (c : Char) : Bool := c.isAlphanum || c = '_' || c = '-' || c = '+'

def int? (cs : List Char) : Option (Int × List Char) :=
  ((ofDigits? (cs.takeWhile isNumberChar)).filter inRange).map (·, cs.dropWhile isNumberChar)

/-! ### Values -/

def scalar? (cs : List Char) : Option (Document × List Char) :=
  match text? cs with
  | some (s, rest) => some (.text (String.ofList s), rest)
  | none => (int? cs).map fun (n, rest) => (.int n, rest)

/-- The items of a list, after its opening bracket. -/
def items? : Nat → List Char → Option (List Document × List Char)
  | 0, _ => none
  | n + 1, cs =>
    match skip? cs with
    | none => none
    | some (']' :: rest) => some ([], rest)
    | some cs =>
      match scalar? cs with
      | none => none
      | some (item, rest) =>
        match skip? rest with
        | some (',' :: rest) => (items? n rest).map fun (items, rest) => (item :: items, rest)
        | some (']' :: rest) => some ([item], rest)
        | _ => none

def value? (cs : List Char) : Option (Document × List Char) :=
  match cs with
  | '[' :: rest => (items? (rest.length + 1) rest).map fun (items, rest) => (.list items, rest)
  | _ => scalar? cs

end Lox.Document.Toml
