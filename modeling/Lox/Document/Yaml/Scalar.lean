import Lox.Document.Basic
import Lox.Document.Quoted
import Lox.Document.Yaml.Cursor

/-!
Texts in YAML: words, quoted texts, and blocks of lines. A line end inside a word or a quoted text
counts as a space, and more of them count as one less.
-/

namespace Lox.Document.Yaml

/-- A text and the place after it. -/
abbrev Reading := Except Error (List Char × Cursor)

/-! ### Folding -/

/-- Blanks and line ends inside a text, as far as they are read. -/
inductive Gap where
  /-- Blanks on one line, latest first. -/
  | blanks (cs : List Char)
  /-- The first line end, unless it does not count, and those after it, latest first. -/
  | breaks (first : Option Char) (more : List Char)

namespace Gap

def none : Gap := .blanks []

def isEmpty : Gap → Bool
  | .blanks cs => cs.isEmpty
  | .breaks _ _ => false

/-- Whether the gap goes over a line end. -/
def isBroken : Gap → Bool
  | .blanks _ => false
  | .breaks _ _ => true

/-- Takes in one more character. Blanks around line ends do not count. -/
def add (c : Char) : Gap → Gap
  | .blanks cs => if isBreak c then .breaks (some c) [] else .blanks (c :: cs)
  | .breaks first more => if isBreak c then .breaks first (c :: more) else .breaks first more

/-- What the gap puts into the text, latest first. -/
def fold : Gap → List Char
  | .blanks cs => cs
  | .breaks (some '\n') [] => [' ']
  | .breaks (some '\n') more | .breaks Option.none more => more
  | .breaks (some c) more => more ++ [c]

end Gap

/-! ### Words -/

/-- Characters that end a word in brackets. -/
def endsFlowWord (c : Char) : Bool := [',', '?', '[', ']', '\x7b', '\x7d'].contains c

/-- Whether a word ends before `c`, which stands in column `column` and is followed by `rest`. -/
def endsWord (inFlow : Bool) (least : Nat) (gap : Gap) (column : Nat) (c : Char)
    (rest : List Char) : Bool :=
  (c = ':' && atGap rest) || (inFlow && endsFlowWord c)
    || (!gap.isEmpty
      && (c = '#' || (!inFlow && column < least) || (column = 0 && isMarker (c :: rest))))

/-- A word, of which `done` is read, latest first. Lines that go on with it are indented by at
least `least` outside brackets. Also gives whether a line end follows. -/
def wordFrom (inFlow : Bool) (least : Nat) (done : List Char) (gap : Gap)
    (index line column : Nat) : List Char → Except Error (List Char × Bool × Cursor)
  | [] => .ok (done.reverse, gap.isBroken, ⟨[], index, line, column⟩)
  | c :: rest =>
    if isBreak c then wordFrom inFlow least done (gap.add c) (index + 1) (line + 1) 0 rest
    else if isSpace c then
      if c = '\t' && gap.isBroken && column < least then .error .malformed
      else wordFrom inFlow least done (gap.add c) (index + 1) line (column + 1) rest
    else if endsWord inFlow least gap column c rest then
      .ok (done.reverse, gap.isBroken, ⟨c :: rest, index, line, column⟩)
    else
      wordFrom inFlow least (c :: (gap.fold ++ done)) .none (index + 1) line (column + 1) rest

def wordAt (inFlow : Bool) (least : Nat) (p : Cursor) :
    Except Error (List Char × Bool × Cursor) :=
  wordFrom inFlow least [] .none p.index p.line p.column p.rest

/-! ### Quoted texts -/

/-- What follows a backslash, and in how many characters. -/
def escape? : List Char → Option (Char × Nat)
  | 'x' :: rest => (hexChar? 2 rest).map (·, 3)
  | 'u' :: rest => (hexChar? 4 rest).map (·, 5)
  | 'U' :: rest => (hexChar? 8 rest).map (·, 9)
  | c :: _ => (simple? c).map (·, 1)
  | [] => none
where
  simple? : Char → Option Char
    | '0' => some '\x00'
    | 'a' => some '\x07'
    | 'b' => some '\x08'
    | 't' | '\t' => some '\t'
    | 'n' => some '\n'
    | 'v' => some '\x0b'
    | 'f' => some '\x0c'
    | 'r' => some '\r'
    | 'e' => some '\x1b'
    | ' ' => some ' '
    | '"' => some '"'
    | '\'' => some '\''
    | '\\' => some '\\'
    | 'N' => some '\u0085'
    | '_' => some '\u00a0'
    | 'L' => some '\u2028'
    | 'P' => some '\u2029'
    | _ => none

/-- A text in single quotes after the opening one, of which `done` is read, latest first. Two
quotes stand for one. -/
def singleFrom (done : List Char) (gap : Gap) (index line column : Nat) : List Char → Reading
  | [] => .error .malformed
  | '\'' :: '\'' :: rest =>
    singleFrom ('\'' :: (gap.fold ++ done)) .none (index + 2) line (column + 2) rest
  | '\'' :: rest => .ok ((gap.fold ++ done).reverse, ⟨rest, index + 1, line, column + 1⟩)
  | c :: rest =>
    if isBreak c then singleFrom done (gap.add c) (index + 1) (line + 1) 0 rest
    else if isSpace c then singleFrom done (gap.add c) (index + 1) line (column + 1) rest
    else if column = 0 && isMarker (c :: rest) then .error .malformed
    else singleFrom (c :: (gap.fold ++ done)) .none (index + 1) line (column + 1) rest

/-- A text in double quotes after the opening one, of which `done` is read, latest first. A
backslash at the end of a line joins it with the next. -/
def doubleFrom (done : List Char) (gap : Gap) (index line column : Nat) : List Char → Reading
  | [] => .error .malformed
  | '"' :: rest => .ok ((gap.fold ++ done).reverse, ⟨rest, index + 1, line, column + 1⟩)
  | '\\' :: rest =>
    if rest.head?.any isBreak then
      doubleFrom (gap.fold ++ done) (.breaks none []) (index + 2) (line + 1) 0 rest.tail
    else
      match escape? rest with
      | some (c, n) =>
        doubleFrom (c :: (gap.fold ++ done)) .none (index + 1 + n) line (column + 1 + n)
          (rest.drop n)
      | none => .error .malformed
  | c :: rest =>
    if isBreak c then doubleFrom done (gap.add c) (index + 1) (line + 1) 0 rest
    else if isSpace c then doubleFrom done (gap.add c) (index + 1) line (column + 1) rest
    else if column = 0 && isMarker (c :: rest) then .error .malformed
    else doubleFrom (c :: (gap.fold ++ done)) .none (index + 1) line (column + 1) rest
termination_by cs => cs.length
decreasing_by
  all_goals (simp only [List.length_cons, List.length_drop, List.length_tail]; omega)

/-- A quoted text from its opening quote on. -/
def quotedAt (single : Bool) (p : Cursor) : Reading :=
  let p := p.next
  if single then singleFrom [] .none p.index p.line p.column p.rest
  else doubleFrom [] .none p.index p.line p.column p.rest

/-! ### Blocks -/

/-- What becomes of the line ends after a block. -/
inductive Ending where
  | one
  | none
  | all
deriving DecidableEq

/-- How a block is read. -/
structure BlockStyle where
  /-- Whether lines are joined by spaces. -/
  folded : Bool
  ending : Ending := .one
  /-- How much further in than what is around it the block is, if that is said. -/
  increment : Option Nat := Option.none

def ending? : Char → Option Ending
  | '+' => some .all
  | '-' => some .none
  | _ => none

def increment? (c : Char) : Option Nat := (digit? 10 c).filter (0 < ·)

/-- The marks after the sign of a block, in either order, and how many there are. -/
def blockMarks (folded : Bool) : List Char → BlockStyle × Nat
  | a :: b :: _ =>
    match ending? a, increment? a, ending? b, increment? b with
    | some e, _, _, some n => ({ folded, ending := e, increment := some n }, 2)
    | _, some n, some e, _ => ({ folded, ending := e, increment := some n }, 2)
    | some e, _, _, _ => ({ folded, ending := e }, 1)
    | _, some n, _, _ => ({ folded, increment := some n }, 1)
    | _, _, _, _ => ({ folded }, 0)
  | [a] =>
    match ending? a, increment? a with
    | some e, _ => ({ folded, ending := e }, 1)
    | _, some n => ({ folded, increment := some n }, 1)
    | _, _ => ({ folded }, 0)
  | [] => ({ folded }, 0)

/-- Skips indentation and empty lines: the line ends, latest first, and the widest column that the
indentation came to. Without a `width` yet, all spaces are indentation. -/
def marginFrom (width : Option Nat) (widest : Nat) (breaks : List Char)
    (index line column : Nat) : List Char → Except Error (List Char × Nat × Cursor)
  | [] => .ok (breaks, max widest column, ⟨[], index, line, column⟩)
  | c :: rest =>
    let inside := width.all (column < ·)
    if c = ' ' && inside then
      marginFrom width (max widest column) breaks (index + 1) line (column + 1) rest
    else if c = '\t' && inside then .error .malformed
    else if isBreak c then
      marginFrom width (max widest column) (c :: breaks) (index + 1) (line + 1) 0 rest
    else .ok (breaks, max widest column, ⟨c :: rest, index, line, column⟩)

def Cursor.margin (p : Cursor) (width : Option Nat) :
    Except Error (List Char × Nat × Cursor) :=
  marginFrom width 0 [] p.index p.line p.column p.rest

/-- What has been read of a block. -/
structure Block where
  /-- Latest first. -/
  done : List Char := []
  /-- The end of the last line with something on it. -/
  lineEnd : Option Char := none
  /-- The ends of empty lines after that, latest first. -/
  emptyLines : List Char := []
  /-- Whether the last line started with a blank. -/
  blank : Bool := false

namespace Block

/-- Takes in a line that starts with a blank if `blank` says so. Line ends between lines that do
not start with blanks are folded. -/
def addLine (b : Block) (folded blank : Bool) (line : List Char) : Block :=
  let joint :=
    if folded && !b.blank && !blank && b.lineEnd = some '\n' then
      if b.emptyLines.isEmpty then [' '] else []
    else b.lineEnd.toList
  { b with
    done := line.reverse ++ (b.emptyLines ++ (joint ++ b.done)), blank
    lineEnd := none, emptyLines := [] }

/-- The text of the whole block. -/
def close (b : Block) : Ending → List Char
  | .none => b.done.reverse
  | .one => (b.lineEnd.toList ++ b.done).reverse
  | .all => (b.emptyLines ++ (b.lineEnd.toList ++ b.done)).reverse

end Block

/-- The lines of a block that are indented by `width`; there are no more of them than `n`. -/
def blockLines (style : BlockStyle) (width : Nat) : Nat → Block → Cursor → Reading
  | 0, b, p => .ok (b.close style.ending, p)
  | n + 1, b, p =>
    if p.column ≠ width || p.rest.isEmpty then .ok (b.close style.ending, p)
    else do
      let q := p.lineEnd
      let line := p.rest.take (q.index - p.index)
      let b := b.addLine style.folded (p.rest.head?.any isSpace) line
      let (emptyLines, _, r) ← q.next.margin (some width)
      blockLines style width n { b with lineEnd := q.rest.head?, emptyLines } r

/-- A block of lines from its sign on, inside something whose parts are indented by at least
`least`. -/
def blockAt (least : Nat) (folded : Bool) (p : Cursor) : Reading := do
  let (style, marks) := blockMarks folded p.next.rest
  match (p.next.skip marks).idle? with
  | none => .error .malformed
  | some q =>
    let width := style.increment.map fun n => if least = 0 then n else least - 1 + n
    let (emptyLines, widest, r) ← q.next.margin width
    blockLines style (width.getD (max (max widest least) 1)) (r.rest.length + 1)
      { emptyLines } r

end Lox.Document.Yaml
