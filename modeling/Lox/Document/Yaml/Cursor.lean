/-!
Places in the text of a YAML document. Line ends are brought to one form beforehand, apart from the
line and paragraph separators of Unicode, which stay as they are when they get into a text.
-/

namespace Lox.Document.Yaml

/-! ### Characters -/

def isSpace (c : Char) : Bool := c = ' ' || c = '\t'

/-- A line end, once line ends are brought to one form. -/
def isBreak (c : Char) : Bool := c = '\n' || c = '\u2028' || c = '\u2029'

/-- Whether nothing, a blank or a line end comes next. -/
def atGap (cs : List Char) : Bool := cs.head?.all fun c => isSpace c || isBreak c

/-- A character of a name. -/
def isNameChar (c : Char) : Bool := c.isAlphanum || c = '_' || c = '-'

/-- Brings line ends to one form. -/
def unifyBreaks : List Char → List Char
  | '\r' :: '\n' :: rest | '\r' :: rest | '\u0085' :: rest => '\n' :: unifyBreaks rest
  | c :: rest => c :: unifyBreaks rest
  | [] => []

/-- Whether a line starts or ends a document. -/
def isMarker (cs : List Char) : Bool :=
  (cs.take 3 = ['-', '-', '-'] || cs.take 3 = ['.', '.', '.']) && atGap (cs.drop 3)

/-! ### Places -/

/-- What is still to be read, and where it starts. -/
structure Cursor where
  rest : List Char
  /-- How many characters come before. -/
  index : Nat := 0
  line : Nat := 0
  column : Nat := 0

namespace Cursor

/-- The place after the next character. -/
def next (p : Cursor) : Cursor :=
  match p.rest with
  | [] => p
  | c :: rest =>
    if isBreak c then ⟨rest, p.index + 1, p.line + 1, 0⟩
    else ⟨rest, p.index + 1, p.line, p.column + 1⟩

/-- The place `n` characters on in the same line. -/
def skip (p : Cursor) (n : Nat) : Cursor :=
  ⟨p.rest.drop n, p.index + n, p.line, p.column + n⟩

/-- The place after all that satisfies `f`, line ends apart. -/
def skipWhile (p : Cursor) (f : Char → Bool) : Cursor :=
  p.skip (p.rest.takeWhile fun c => f c && !isBreak c).length

/-- The end of the line. -/
def lineEnd (p : Cursor) : Cursor := p.skipWhile fun _ => true

/-- Whether a line that starts or ends a document is next. -/
def atMarker (p : Cursor) : Bool := p.column = 0 && isMarker p.rest

/-- The end of the line, if only blanks and a comment come before it. -/
def idle? (p : Cursor) : Option Cursor :=
  let q := p.skipWhile isSpace
  match q.rest with
  | [] => some q
  | c :: _ => if c = '#' then some q.lineEnd else if isBreak c then some q else none

/-- Skips a comment that follows something on its line. -/
def afterComment (p : Cursor) : Cursor :=
  let q := p.skipWhile isSpace
  if q.rest.head? = some '#' then q.lineEnd else p

end Cursor

/-- Whether a comment comes next, blanks and empty lines apart. -/
def leadsToComment (cs : List Char) : Bool :=
  (cs.dropWhile fun c => isSpace c || c = '\n').head? = some '#'

/-- Skips blanks, comments and line ends up to the next token; also gives whether a key may start
there. Keys may start after a line end outside brackets. A tab is skipped where no key may start,
and in front of a comment that follows another. -/
def skipIdleFrom (inFlow keyAllowed tabs inComment : Bool) (index line column : Nat) :
    List Char → Cursor × Bool
  | [] => (⟨[], index, line, column⟩, keyAllowed)
  | c :: rest =>
    if isBreak c then
      let tabs := if inComment then c = '\n' && leadsToComment rest else tabs
      skipIdleFrom inFlow (keyAllowed || !inFlow) tabs false (index + 1) (line + 1) 0 rest
    else if inComment || c = '#' then
      skipIdleFrom inFlow keyAllowed tabs true (index + 1) line (column + 1) rest
    else if c = ' ' || (c = '\t' && (inFlow || !keyAllowed || tabs)) then
      skipIdleFrom inFlow keyAllowed tabs false (index + 1) line (column + 1) rest
    else (⟨c :: rest, index, line, column⟩, keyAllowed)

def Cursor.skipIdle (p : Cursor) (inFlow keyAllowed : Bool) : Cursor × Bool :=
  skipIdleFrom inFlow keyAllowed false false p.index p.line p.column p.rest

end Lox.Document.Yaml
