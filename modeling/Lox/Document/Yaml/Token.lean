import Lox.Document.Yaml.Scalar

/-!
The tokens of a YAML document. Indentation becomes tokens of its own, and so do keys: only the
colon after it tells that something was a key, and then a token is put in front of it.
-/

namespace Lox.Document.Yaml

inductive Token where
  /-- A line about the version of the notation, and whether it is the one known here. -/
  | version (known : Bool)
  /-- A line that makes a handle stand for the start of tags. -/
  | handle (name start : String)
  | documentStart
  | documentEnd
  | blockSequence
  | blockMapping
  | blockEnd
  | flowSequence
  | flowSequenceEnd
  | flowMapping
  | flowMappingEnd
  | dash
  | comma
  | key
  | value
  | anchor (name : String)
  | alias (name : String)
  | tag (handle suffix : String)
  | scalar (plain : Bool) (content : String)
  /-- The end of the text. -/
  | finish
  /-- What cannot be read. -/
  | fault
deriving DecidableEq

/-- Something that a colon would make a key. -/
structure Candidate where
  /-- How many tokens come before it. -/
  position : Nat
  /-- Whether nothing but a key can stand there. -/
  required : Bool
  index : Nat
  line : Nat
  column : Nat

/-- How far from its start the colon after a key may be. -/
def maxKeyLength : Nat := 1024

/-- Whether a colon at `p` would still make the candidate a key. -/
def Candidate.isAlive (k : Candidate) (p : Cursor) : Bool :=
  k.line = p.line && p.index ≤ k.index + maxKeyLength

/-- What has been read, and what may come. -/
structure Scanner where
  cursor : Cursor
  /-- Latest first. -/
  tokens : List Token := []
  count : Nat := 0
  /-- The columns of the records and lists around, innermost first. -/
  columns : List Nat := []
  /-- What may become a key, outside brackets. -/
  candidate : Option Candidate := none
  /-- For each bracket around, innermost first, what may become a key in there. -/
  inner : List (Option Candidate) := []
  /-- Whether a key may start here. -/
  keyAllowed : Bool := true

namespace Scanner

def inFlow (s : Scanner) : Bool := !s.inner.isEmpty

/-- What goes on with something is at least this far in. -/
def least (s : Scanner) : Nat :=
  match s.columns with
  | [] => 0
  | column :: _ => column + 1

def push (s : Scanner) (t : Token) : Scanner :=
  { s with tokens := t :: s.tokens, count := s.count + 1 }

def pushAll (s : Scanner) (ts : List Token) : Scanner := ts.foldl push s

/-- Puts a token after the first `position`. -/
def insert (s : Scanner) (position : Nat) (t : Token) : Scanner :=
  let after := s.count - position
  { s with tokens := s.tokens.take after ++ t :: s.tokens.drop after, count := s.count + 1 }

/-! ### Indentation -/

/-- Closes what is at least `least` far in. -/
def unroll (s : Scanner) (least : Nat) : Scanner :=
  if s.inFlow then s
  else
    let closed := s.columns.takeWhile (least ≤ ·)
    { s with columns := s.columns.drop closed.length }.pushAll (closed.map fun _ => .blockEnd)

/-- Opens a record or list in a column, unless it is open; its token goes to a position. -/
def roll (s : Scanner) (column position : Nat) (t : Token) : Scanner :=
  if s.inFlow || column < s.least then s
  else { s with columns := column :: s.columns }.insert position t

/-! ### Candidates for keys -/

def current (s : Scanner) : Option Candidate :=
  match s.inner with
  | [] => s.candidate
  | k :: _ => k

def setCurrent (s : Scanner) (k : Option Candidate) : Scanner :=
  match s.inner with
  | [] => { s with candidate := k }
  | _ :: outer => { s with inner := k :: outer }

/-- Gives up the candidate at hand, which no colon followed. -/
def dismiss (s : Scanner) : Except Error Scanner :=
  if s.current.any (·.required) then .error .malformed else .ok (s.setCurrent none)

/-- Notes that what starts here may be a key. -/
def propose (s : Scanner) : Except Error Scanner :=
  if s.keyAllowed then do
    let required := !s.inFlow && s.columns.head? = some s.cursor.column
    let k : Candidate :=
      ⟨s.count, required, s.cursor.index, s.cursor.line, s.cursor.column⟩
    return (← s.dismiss).setCurrent (some k)
  else return s

/-! ### Tokens one by one -/

/-- Takes `n` characters for a token. -/
def take (s : Scanner) (n : Nat) (t : Token) (keyAllowed : Bool) : Scanner :=
  { s.push t with cursor := s.cursor.skip n, keyAllowed }

def finish (s : Scanner) : Except Error Scanner := do
  return { (← (s.unroll 0).dismiss).push .finish with keyAllowed := false }

def marker (s : Scanner) (t : Token) : Except Error Scanner := do
  return (← (s.unroll 0).dismiss).take 3 t false

def openFlow (s : Scanner) (t : Token) : Except Error Scanner := do
  let s := (← s.propose).take 1 t true
  return { s with inner := none :: s.inner }

def closeFlow (s : Scanner) (t : Token) : Except Error Scanner := do
  let s := (← s.dismiss).take 1 t false
  return { s with inner := s.inner.tail }

def separate (s : Scanner) : Except Error Scanner := do
  return (← s.dismiss).take 1 .comma true

/-- A dash outside brackets starts a list, unless it goes on with one. -/
def startItem (s : Scanner) : Except Error Scanner := do
  if s.inFlow then return (← s.dismiss).take 1 .dash true
  else if s.keyAllowed then
    let s := s.roll s.cursor.column s.count .blockSequence
    return (← s.dismiss).take 1 .dash true
  else .error .malformed

/-- A question mark starts a key of any form. -/
def startKey (s : Scanner) : Except Error Scanner := do
  if s.inFlow then return (← s.dismiss).take 1 .key false
  else if s.keyAllowed then
    let s := s.roll s.cursor.column s.count .blockMapping
    return (← s.dismiss).take 1 .key true
  else .error .malformed

/-- A colon makes the candidate a key, or ends a key that a question mark started. -/
def startValue (s : Scanner) : Except Error Scanner :=
  match s.current with
  | some k =>
    if k.isAlive s.cursor then
      let s := (s.insert k.position .key).roll k.column k.position .blockMapping
      .ok ((s.setCurrent none).take 1 .value false)
    else if k.required then .error .malformed
    else complex (s.setCurrent none)
  | none => complex s
where
  complex (s : Scanner) : Except Error Scanner :=
    if s.inFlow then .ok (s.take 1 .value false)
    else if s.keyAllowed then
      .ok ((s.roll s.cursor.column s.count .blockMapping).take 1 .value true)
    else .error .malformed

/-- What a name in front of something may be followed by. -/
def endsName (cs : List Char) : Bool :=
  atGap cs || cs.head?.any (['?', ':', ',', ']', '\x7d', '%', '@', '\x60'].contains ·)

/-- The name of an anchor, after its sign. -/
def named (s : Scanner) (t : String → Token) : Except Error Scanner := do
  let s ← s.propose
  let name := s.cursor.rest.tail.takeWhile isNameChar
  if name.isEmpty || !endsName (s.cursor.rest.drop (name.length + 1)) then .error .malformed
  else return s.take (name.length + 1) (t (String.ofList name)) false

/-- A character of a tag; escaped ones are not read. -/
def isTagChar (c : Char) : Bool := isNameChar c || ";/?:@&=+$.,!~*'()[]".toList.contains c

/-- A tag in angle brackets, of a handle, or alone, and its length. -/
def tag? (cs : List Char) : Option (Token × Nat) :=
  match cs with
  | '!' :: '<' :: rest =>
    let uri := rest.takeWhile isTagChar
    if uri.isEmpty || rest[uri.length]? ≠ some '>' then none
    else some (.tag "" (String.ofList uri), uri.length + 3)
  | '!' :: rest =>
    let name := rest.takeWhile isNameChar
    let more := rest.drop name.length
    match more with
    | '!' :: more =>
      let suffix := more.takeWhile isTagChar
      if suffix.isEmpty then none
      else some (.tag (String.ofList ('!' :: name ++ ['!'])) (String.ofList suffix),
        name.length + 2 + suffix.length)
    | _ =>
      let suffix := rest.takeWhile isTagChar
      some (if suffix.isEmpty then .tag "" "!" else .tag "!" (String.ofList suffix),
        suffix.length + 1)
  | _ => none

def tagged (s : Scanner) : Except Error Scanner := do
  let s ← s.propose
  match tag? s.cursor.rest with
  | some (t, n) =>
    if atGap (s.cursor.rest.drop n) then return s.take n t false else .error .malformed
  | none => .error .malformed

def block (s : Scanner) (folded : Bool) : Except Error Scanner := do
  let s ← s.dismiss
  let (content, cursor) ← blockAt s.least folded s.cursor
  return { s.push (.scalar false (String.ofList content)) with cursor, keyAllowed := true }

def quote (s : Scanner) (single : Bool) : Except Error Scanner := do
  let s ← s.propose
  let (content, cursor) ← quotedAt single s.cursor
  return { s.push (.scalar false (String.ofList content)) with cursor, keyAllowed := false }

/-- A word; also gives whether a line end follows, after which a key may start. -/
def plain (s : Scanner) : Except Error (Scanner × Bool) := do
  let s ← s.propose
  let (content, broken, cursor) ← wordAt s.inFlow s.least s.cursor
  return ({ s.push (.scalar true (String.ofList content)) with cursor, keyAllowed := broken },
    broken)

/-! ### Directives -/

/-- Two numbers of at most two digits with a point between them. -/
def isVersion (cs : List Char) : Bool :=
  let major := cs.takeWhile isDigit
  let minor := (cs.drop (major.length + 1)).takeWhile isDigit
  cs[major.length]? = some '.' && cs.length = major.length + 1 + minor.length
    && [major, minor].all fun n => !n.isEmpty && n.length ≤ 2

/-- A handle stands between exclamation marks, or is a single one. -/
def isHandle (cs : List Char) : Bool :=
  cs = ['!'] || (cs.head? = some '!' && cs.length ≠ 1 && cs.getLast? = some '!'
    && (cs.drop 1).dropLast.all isNameChar)

/-- What a directive says, by its words. -/
def directive? (words : List (List Char)) : Option Token :=
  match words with
  | [['Y', 'A', 'M', 'L'], number] =>
    if isVersion number then some (.version (number = ['1', '.', '1'])) else none
  | [['T', 'A', 'G'], name, start] =>
    if isHandle name && start.all isTagChar then
      some (.handle (String.ofList name) (String.ofList start))
    else none
  | _ => none

/-- The words of a line up to its comment. -/
def wordsFrom (word : List Char) : List Char → List (List Char)
  | [] => if word.isEmpty then [] else [word.reverse]
  | c :: rest =>
    if isSpace c then
      if word.isEmpty then wordsFrom [] rest else word.reverse :: wordsFrom [] rest
    else if c = '#' && word.isEmpty then []
    else wordsFrom (c :: word) rest

def directive (s : Scanner) : Except Error Scanner := do
  let s ← (s.unroll 0).dismiss
  let line := s.cursor.lineEnd
  let words := wordsFrom [] (s.cursor.rest.tail.take (line.index - s.cursor.index - 1))
  match directive? words with
  | some t => return { s.push t with cursor := line.next, keyAllowed := false }
  | none => .error .malformed

/-! ### The next token -/

/-- Characters that no word starts with. -/
def indicators : List Char :=
  ['-', '?', ':', ',', '[', ']', '\x7b', '\x7d', '#', '&', '*', '!', '|', '>', '\'', '"', '%',
   '@', '\x60', '\t']

/-- Skips a comment on the line of the last token. -/
def skipComment (s : Scanner) : Scanner := { s with cursor := s.cursor.afterComment }

/-- Reads what starts with `c`, which is no line of its own. -/
def content (s : Scanner) (c : Char) (rest : List Char) : Except Error Scanner :=
  match c with
  | '[' => (s.openFlow .flowSequence).map skipComment
  | '\x7b' => (s.openFlow .flowMapping).map skipComment
  | ']' => (s.closeFlow .flowSequenceEnd).map skipComment
  | '\x7d' => (s.closeFlow .flowMappingEnd).map skipComment
  | ',' => s.separate.map skipComment
  | '*' => (s.named .alias).map skipComment
  | '&' => (s.named .anchor).map skipComment
  | '!' => s.tagged.map skipComment
  | '\'' => (s.quote true).map skipComment
  | '"' => (s.quote false).map skipComment
  | _ =>
    if c = '-' && atGap rest then s.startItem
    else if c = '?' && (s.inFlow || atGap rest) then s.startKey.map skipComment
    else if c = ':' && (s.inFlow || atGap rest) then s.startValue.map skipComment
    else if (c = '|' || c = '>') && !s.inFlow then s.block (c = '>')
    else if !indicators.contains c || c = '-' || (!s.inFlow && (c = '?' || c = ':')) then
      s.plain.map fun (s, broken) => if broken then s else s.skipComment
    else .error .malformed

/-- Reads the next token, and those that go with it. -/
def step (s : Scanner) : Except Error Scanner :=
  let (cursor, keyAllowed) := s.cursor.skipIdle s.inFlow s.keyAllowed
  let s := { s with cursor, keyAllowed }.unroll (cursor.column + 1)
  match cursor.rest with
  | [] => s.finish
  | c :: rest =>
    if cursor.column = 0 && c = '%' then s.directive
    else if cursor.atMarker then
      s.marker (if c = '-' then .documentStart else .documentEnd)
    else s.content c rest

/-- The tokens before something that cannot be read. Two tokens have to follow for one to count,
and what may still become a key has to be settled. -/
def cut (s : Scanner) : List Token :=
  let open? := (s.candidate :: s.inner).filterMap fun k =>
    k.bind fun k => if k.isAlive s.cursor then some k.position else none
  s.tokens.reverse.take (open?.foldl min (s.count - 2)) ++ [.fault]

/-- Reads tokens, at most `n`, up to the end. -/
def run : Nat → Scanner → List Token
  | 0, s => s.cut
  | n + 1, s =>
    match s.step with
    | .error _ => s.cut
    | .ok s => if s.tokens.head? = some .finish then s.tokens.reverse else s.run n

end Scanner

/-- The tokens of a text. Every step but the last takes a character. -/
def tokensOf (cs : List Char) : List Token :=
  Scanner.run (cs.length + 1) { cursor := { rest := cs } }

end Lox.Document.Yaml
