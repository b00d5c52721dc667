import Lox.Document.Toml.Value
import Lox.Text.Lower
import Lox.Text.Utf8

/-!
Settings in TOML: keys with values, one to a line, and sections. The fields that there can be are
known beforehand, and no field has members; so a section names a field and says no more than that
the field is there.
-/

namespace Lox.Document

/-- What a field holds. -/
inductive Shape where
  | text
  | integer
  | texts
deriving DecidableEq

namespace Toml

/-! ### Lines -/

/-- What a line says. -/
inductive Entry where
  | member (key : String) (value : Document)
  /-- A section of its own. -/
  | heading (key : String)
  /-- One more section of a list. -/
  | listed (key : String)

def Entry.key : Entry → String
  | .member key _ | .heading key | .listed key => key

def isBareChar (c : Char) : Bool := c.isAlphanum || c = '_' || c = '-'

def key? (cs : List Char) : Option (String × List Char) :=
  match shortText? cs with
  | some (key, rest) => some (String.ofList key, rest)
  | none =>
    match cs.takeWhile isBareChar with
    | [] => none
    | bare => some (String.ofList bare, cs.dropWhile isBareChar)

/-- A key and its value. -/
def member? (cs : List Char) : Option (Entry × List Char) :=
  match key? cs with
  | none => none
  | some (key, rest) =>
    match skipSpace rest with
    | '=' :: rest => (value? (skipSpace rest)).map fun (value, rest) => (.member key value, rest)
    | _ => none

/-- The header of a section, after its first bracket. -/
def header? (cs : List Char) : Option (Entry × List Char) :=
  let twice := cs.head? = some '['
  match key? (skipSpace (if twice then cs.tail else cs)) with
  | none => none
  | some (key, rest) =>
    match skipSpace rest with
    | ']' :: rest =>
      if twice then
        match rest with
        | ']' :: rest => some (.listed key, rest)
        | _ => none
      else some (.heading key, rest)
    | _ => none

def entry? (cs : List Char) : Option (Entry × List Char) :=
  match cs with
  | '[' :: rest => header? rest
  | _ => member? cs

/-- All entries; each of them takes up at least one character. -/
def entriesFrom : Nat → List Char → Option (List Entry)
  | 0, _ => none
  | n + 1, cs =>
    match skip? cs with
    | none => none
    | some [] => some []
    | some cs =>
      match entry? cs with
      | none => none
      | some (e, rest) => (lineEnd? rest).bind fun rest => (entriesFrom n rest).map (e :: ·)

/-! ### Fields -/

/-- Whether a key was given before in a way that does not allow for this. Keys that differ in case
differ here. -/
def Entry.repeats (before : List Entry) : Entry → Bool
  | .listed key =>
    before.any fun e => e.key = key && !(e matches .listed _)
  | e => before.any (·.key = e.key)

/-- The field that a key means, in whatever case it is written. -/
def fieldOf? (shapes : List (String × Shape)) (key : String) : Option (String × Shape) :=
  shapes.find? fun (name, _) => name = Text.lower key

/-- Whether a value is of a field's shape. -/
def fits : Shape → Document → Bool
  | .text, .text _ | .integer, .int _ => true
  | .texts, .list items => items.all (· matches .text _)
  | _, _ => false

/-- A field that is there and empty, unless it has been given something. -/
def present (shape : Shape) (given : Option Document) : Except Error Document :=
  match shape, given with
  | .texts, some (.list items) =>
    if items.isEmpty then .error .malformed else .ok (.list items)
  | .texts, _ => .error .malformed
  | _, some d => .ok d
  | .text, none => .ok (.text "")
  | .integer, none => .ok (.int 0)

/-- A list with one more item, which is empty. -/
def extended (shape : Shape) (given : Option Document) : Except Error Document :=
  match shape, given with
  | .texts, none => .ok (.list [.text ""])
  | .texts, some (.list items) => .ok (.list (items ++ [.text ""]))
  | _, _ => .error .notList

/-- What a field holds after an entry, when it held `given` before. -/
def Entry.apply (shape : Shape) (given : Option Document) : Entry → Except Error Document
  | .member _ value => if fits shape value then .ok value else .error .malformed
  | .heading _ => present shape given
  | .listed _ => extended shape given

/-- Reads the entries one by one into the fields; the last one given for a field counts. Nothing
can stand in a section. -/
def readFrom (shapes : List (String × Shape)) (fields : Bindings Document) (before : List Entry) :
    List Entry → Except Error (Bindings Document)
  | [] => .ok fields
  | e :: rest =>
    match fieldOf? shapes e.key with
    | none => .error (.unknownKey e.key)
    | some (name, shape) =>
      if e.repeats before then .error (.repeatedKey e.key)
      else if (e matches .member _ _) && !before.all (· matches .member _ _) then
        .error .malformed
      else do
        let value ← e.apply shape (Bindings.get? name fields)
        readFrom shapes (Bindings.insert name value fields) (e :: before) rest

def ofText (shapes : List (String × Shape)) (cs : List Char) : Except Error Document :=
  match entriesFrom (cs.length + 1) cs with
  | none => .error .malformed
  | some entries => (readFrom shapes [] [] entries).map .record

def ofBytes (shapes : List (String × Shape)) (bytes : ByteArray) : Except Error Document :=
  if Text.isWellFormed bytes.toList then ofText shapes (Text.decode bytes.toList)
  else .error .encoding

end Toml

end Lox.Document
