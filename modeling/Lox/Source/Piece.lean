import Lox.Decimal.Read
import Lox.Text.Letter
import Lox.Text.Mark
import Lox.Token

/-!
The text of a program cut into pieces. Pieces lie side by side and together make up the whole text:
every character belongs to a blank, a comment, a lexeme or a stretch that is no lexeme.
-/

namespace Lox.Source

/-- Why a stretch of text is no lexeme. -/
inductive Fault where
  | unexpectedCharacter (c : Char)
  | unterminatedString
  | invalidNumber (spelling : String)

def Fault.message : Fault → String
  | .unexpectedCharacter c => "Unexpected character '" ++ c.toString ++ "'."
  | .unterminatedString => "Unterminated string."
  | .invalidNumber spelling => "Invalid number '" ++ spelling ++ "'."

inductive Piece where
  | blank (c : Char)
  /-- From two slashes up to the end of the line. -/
  | comment (text : List Char)
  | symbol (kind : Token.Kind) (text : List Char)
  | number (value : Float) (text : List Char)
  /-- A string with its two quotes. -/
  | string (text : List Char)
  /-- An identifier or a keyword. -/
  | word (text : List Char)
  | bad (fault : Fault) (text : List Char)

/-- The stretch that a piece covers. -/
def Piece.text : Piece → List Char
  | .blank c => [c]
  | .comment text | .symbol _ text | .number _ text | .string text | .word text | .bad _ text =>
    text

/-! ### Character classes -/

def isDigit (c : Char) : Bool := '0' ≤ c && c ≤ '9'

/-- The letters of ASCII need no table. -/
def isLetter (c : Char) : Bool :=
  if c.toNat < 128 then c.isAlpha else Text.letters.contains c

/-- A mark that takes no room of its own; ASCII has none. -/
def isMark (c : Char) : Bool := 128 ≤ c.toNat && Text.nonspacingMarks.contains c

/-- What an identifier starts with. -/
def isWordStart (c : Char) : Bool := c = '_' || isLetter c

/-- What an identifier goes on with. -/
def isWordPart (c : Char) : Bool := isWordStart c || isDigit c || isMark c

/-- The blanks; only the last of them ends a line. -/
def isBlank (c : Char) : Bool := c = ' ' || c = '\r' || c = '\t' || c = '\n'

/-- Symbols that are never the start of a longer one. -/
def single? : Char → Option Token.Kind
  | '(' => some .leftParen
  | ')' => some .rightParen
  | '\x7b' => some .leftBrace
  | '\x7d' => some .rightBrace
  | ',' => some .comma
  | '.' => some .dot
  | '-' => some .minus
  | '+' => some .plus
  | ';' => some .semicolon
  | ':' => some .colon
  | '*' => some .star
  | _ => none

/-- Symbols that `=` makes longer: the kind without it and the kind with it. -/
def extensible? : Char → Option (Token.Kind × Token.Kind)
  | '!' => some (.bang, .bangEqual)
  | '=' => some (.equal, .equalEqual)
  | '<' => some (.less, .lessEqual)
  | '>' => some (.greater, .greaterEqual)
  | _ => none

/-! ### Cutting

Each function cuts the piece that starts with a given character and returns it with the text after
it. -/

def cutExtensible (c : Char) (alone extended : Token.Kind) : List Char → Piece × List Char
  | '=' :: rest => (.symbol extended [c, '='], rest)
  | rest => (.symbol alone [c], rest)

/-- A comment, or a slash on its own. -/
def cutSlash (c : Char) (rest : List Char) : Piece × List Char :=
  if rest.head? = some '/' then
    (.comment (c :: rest.takeWhile (· ≠ '\n')), rest.dropWhile (· ≠ '\n'))
  else (.symbol .slash [c], rest)

/-- A string up to the next quote, over line ends if need be. -/
def cutString (c : Char) (rest : List Char) : Piece × List Char :=
  let body := rest.takeWhile (· ≠ '"')
  match rest.dropWhile (· ≠ '"') with
  | [] => (.bad .unterminatedString (c :: body), [])
  | quote :: rest => (.string (c :: (body ++ [quote])), rest)

/-- The fraction of a number: a point and at least one digit. -/
def cutFraction : List Char → List Char × List Char
  | '.' :: d :: rest =>
    if isDigit d then ('.' :: d :: rest.takeWhile isDigit, rest.dropWhile isDigit)
    else ([], '.' :: d :: rest)
  | rest => ([], rest)

def cutNumber (c : Char) (rest : List Char) : Piece × List Char :=
  let fraction := cutFraction (rest.dropWhile isDigit)
  let text := c :: (rest.takeWhile isDigit ++ fraction.1)
  match Decimal.read? text with
  | some value => (.number value text, fraction.2)
  | none => (.bad (.invalidNumber (String.ofList text)) text, fraction.2)

def cutWord (c : Char) (rest : List Char) : Piece × List Char :=
  (.word (c :: rest.takeWhile isWordPart), rest.dropWhile isWordPart)

def cutFirst (c : Char) (rest : List Char) : Piece × List Char :=
  match single? c, extensible? c with
  | some kind, _ => (.symbol kind [c], rest)
  | none, some (alone, extended) => cutExtensible c alone extended rest
  | none, none =>
    if c = '/' then cutSlash c rest
    else if isBlank c then (.blank c, rest)
    else if c = '"' then cutString c rest
    else if isDigit c then cutNumber c rest
    else if isWordStart c then cutWord c rest
    else (.bad (.unexpectedCharacter c) [c], rest)

/-! ### Nothing is lost -/

/-- `cut` is a piece that starts with `c` and the text after it, taken from `c :: rest`. -/
def Covers (c : Char) (rest : List Char) (cut : Piece × List Char) : Prop :=
  ∃ tail, cut.1.text = c :: tail ∧ tail ++ cut.2 = rest

theorem covers_cutExtensible (c : Char) (k l : Token.Kind) (rest : List Char) :
    Covers c rest (cutExtensible c k l rest) := by
  unfold cutExtensible
  split
  · exact ⟨['='], rfl, rfl⟩
  · exact ⟨[], rfl, rfl⟩

theorem covers_cutSlash (c : Char) (rest : List Char) : Covers c rest (cutSlash c rest) := by
  unfold cutSlash
  split
  · exact ⟨_, rfl, List.takeWhile_append_dropWhile⟩
  · exact ⟨[], rfl, rfl⟩

theorem covers_cutString (c : Char) (rest : List Char) : Covers c rest (cutString c rest) := by
  have whole : rest.takeWhile (· ≠ '"') ++ rest.dropWhile (· ≠ '"') = rest :=
    List.takeWhile_append_dropWhile
  unfold cutString
  split
  · next h =>
    rw [h] at whole
    exact ⟨_, rfl, whole⟩
  · next h =>
    rw [h] at whole
    exact ⟨_, rfl, by rw [List.append_assoc]; exact whole⟩

theorem cutFraction_append (rest : List Char) :
    (cutFraction rest).1 ++ (cutFraction rest).2 = rest := by
  unfold cutFraction
  split
  · split
    · exact congrArg ('.' :: _ :: ·) List.takeWhile_append_dropWhile
    · rfl
  · rfl

theorem covers_cutNumber (c : Char) (rest : List Char) : Covers c rest (cutNumber c rest) := by
  have whole : rest.takeWhile isDigit ++ (cutFraction (rest.dropWhile isDigit)).1
      ++ (cutFraction (rest.dropWhile isDigit)).2 = rest := by
    rw [List.append_assoc, cutFraction_append, List.takeWhile_append_dropWhile]
  unfold cutNumber
  dsimp only
  split <;> exact ⟨_, rfl, whole⟩

theorem covers_cutWord (c : Char) (rest : List Char) : Covers c rest (cutWord c rest) :=
  ⟨_, rfl, List.takeWhile_append_dropWhile⟩

/-- Cutting loses no character: the piece and the rest make up the text. -/
theorem covers_cutFirst (c : Char) (rest : List Char) : Covers c rest (cutFirst c rest) := by
  unfold cutFirst
  split
  · exact ⟨[], rfl, rfl⟩
  · exact covers_cutExtensible ..
  · split
    · exact covers_cutSlash c rest
    split
    · exact ⟨[], rfl, rfl⟩
    split
    · exact covers_cutString c rest
    split
    · exact covers_cutNumber c rest
    split
    · exact covers_cutWord c rest
    · exact ⟨[], rfl, rfl⟩

/-- What is left is shorter, so cutting ends. -/
theorem length_cutFirst (c : Char) (rest : List Char) :
    (cutFirst c rest).2.length < (c :: rest).length := by
  obtain ⟨tail, _, whole⟩ := covers_cutFirst c rest
  have := congrArg List.length whole
  rw [List.length_append] at this
  rw [List.length_cons]
  omega

/-- The pieces of a text, from left to right. -/
def cut : List Char → List Piece
  | [] => []
  | c :: rest =>
    let first := cutFirst c rest
    first.1 :: cut first.2
termination_by text => text.length
decreasing_by exact length_cutFirst c rest

end Lox.Source
