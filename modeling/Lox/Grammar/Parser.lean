import Lox.Grammar.Error

/-!
Parsers: they take tokens from a cursor, and fail at the token that does not fit. A failure leaves
the cursor where it is, so that parsing can go on from there.
-/

namespace Lox.Grammar

/-- The tokens still to come, the end that stands after them, and the errors so far. -/
structure Cursor where
  rest : List Token
  eof : Token
  errors : List SyntaxError := []

namespace Cursor

/-- Reads up to the first end. A sequence without one ends on the line of its last token. -/
def ofTokens (tokens : List Token) : Cursor where
  rest := tokens.takeWhile (·.kind ≠ .eof)
  eof := (tokens.find? (·.kind = .eof)).getD (.endAt ((tokens.getLast?.map Token.line).getD 1))

/-- The token at hand. -/
def next (c : Cursor) : Token := c.rest.headD c.eof

end Cursor

abbrev Parser := EStateM SyntaxError Cursor

namespace Parser

def atEnd : Parser Bool := fun c => .ok c.rest.isEmpty c

/-- Whether the token at hand is of a kind. -/
def isAt (kind : Token.Kind) : Parser Bool :=
  fun c => .ok (c.rest.head?.any (·.kind = kind)) c

/-- Whether the two tokens at hand are of two kinds. -/
def areAt (first second : Token.Kind) : Parser Bool :=
  fun c => .ok
    (match c.rest with
     | t :: u :: _ => t.kind = first && u.kind = second
     | _ => false) c

/-- Takes the token at hand if it is of one of the kinds. -/
def take? (kinds : List Token.Kind) : Parser (Option Token) := fun c =>
  match c.rest with
  | t :: rest => if kinds.contains t.kind then .ok (some t) { c with rest } else .ok none c
  | [] => .ok none c

def fail {α : Type} (complaint : Complaint) : Parser α :=
  fun c => .error ⟨c.next, complaint⟩ c

/-- Takes a token of a kind, or complains about the one at hand. -/
def expect (kind : Token.Kind) (complaint : Complaint) : Parser Token := do
  match ← take? [kind] with
  | some t => return t
  | none => fail complaint

/-- Notes an error and goes on. -/
def report (e : SyntaxError) : Parser Unit :=
  fun c => .ok () { c with errors := c.errors ++ [e] }

/-- Repeats a step until it has nothing to add, at most once for each token of a list. -/
def iterate {α : Type} (step : α → Parser (Option α)) : List Token → α → Parser α
  | [], a => pure a
  | _ :: rounds, a => do
    match ← step a with
    | none => return a
    | some b => iterate step rounds b

/-- Repeats a step until it has nothing to add. A step that adds something takes a token, so there
are no more rounds than tokens. -/
def repeatFrom {α : Type} (step : α → Parser (Option α)) (a : α) : Parser α :=
  fun c => iterate step (c.eof :: c.rest) a c

/-- Items with commas between them, none at all where `closing` is at hand. -/
def separated {α : Type} (closing : Token.Kind) (item : Parser α) : Parser (List α) := do
  if ← isAt closing then return []
  let first ← item
  let items ← repeatFrom (fun items => do
    match ← take? [.comma] with
    | none => return none
    | some _ => return some ((← item) :: items)) [first]
  return items.reverse

/-! ### Recovery -/

/-- Keywords that start a statement. -/
def startsStatement (kind : Token.Kind) : Bool :=
  [.classKw, .funKw, .varKw, .forKw, .ifKw, .whileKw, .printKw, .returnKw].contains kind

/-- Skips to where a statement may start: after a semicolon, or at a keyword. -/
def skipFrom (previous : Token) : List Token → List Token
  | [] => []
  | t :: rest =>
    if previous.kind = .semicolon || startsStatement t.kind then t :: rest
    else skipFrom t rest

/-- Skips the token at hand, and on to where a statement may start. -/
def skip : List Token → List Token
  | [] => []
  | t :: rest => skipFrom t rest

/-- Notes a failure and skips past it. -/
def recover {α : Type} (p : Parser α) : Parser (Option α) := fun c =>
  match p c with
  | .ok a c => .ok (some a) c
  | .error e c => .ok none { c with rest := skip c.rest, errors := c.errors ++ [e] }

end Parser

end Lox.Grammar
