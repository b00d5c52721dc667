import Lox.Bindings
import Lox.Document.Number

/-!
Documents: what a file of settings says, whichever notation it is written in.
-/

namespace Lox

inductive Document where
  /-- A value left out. -/
  | null
  /-- A word without quotes, which the field it stands in gives a meaning. -/
  | word (text : String)
  | text (value : String)
  | int (value : Int)
  | list (items : List Document)
  | record (members : List (String × Document))

namespace Document

/-- What is wrong with a document. -/
inductive Error where
  /-- There is nothing but blanks and comments. -/
  | empty
  | malformed
  | encoding
  | repeatedKey (key : String)
  | unknownKey (key : String)
  | notRecord
  | notText
  | notInteger
  | notList
  /-- The file could not be read to its end. -/
  | unreadable (reason : String)
deriving DecidableEq

def Error.message : Error → String
  | empty => "empty document"
  | malformed => "malformed document"
  | encoding => "the document is no text"
  | repeatedKey key => "key " ++ key ++ " is given more than once"
  | unknownKey key => "key " ++ key ++ " is not known"
  | notRecord => "a record is expected"
  | notText => "a text is expected"
  | notInteger => "an integer is expected"
  | notList => "a list is expected"
  | unreadable reason => reason

/-! ### Fields -/

/-- The members of a record, all of them among the known ones. A value left out is an empty
record. -/
def members (known : List String) : Document → Except Error (Bindings Document)
  | null => .ok []
  | record ms =>
    match ms.find? fun (key, _) => !known.contains key with
    | some (key, _) => .error (.unknownKey key)
    | none => .ok ms
  | _ => .error .notRecord

def asText : Document → Except Error (Option String)
  | null => .ok none
  | word s | text s => .ok (some s)
  | _ => .error .notText

def asInt : Document → Except Error (Option Int)
  | null => .ok none
  | int n => .ok (some n)
  | word s =>
    match integerOfWord? s.toList with
    | some n => .ok (some n)
    | none => .error .notInteger
  | _ => .error .notInteger

/-- The items of a list, read one by one; those left out do not count. -/
def asList {α : Type} (item : Document → Except Error (Option α)) :
    Document → Except Error (Option (List α))
  | null => .ok none
  | list items => (items.mapM item).map fun read => some (read.filterMap id)
  | _ => .error .notList

/-- Reads a member, if it is there. -/
def field {α : Type} (ms : Bindings Document) (key : String)
    (read : Document → Except Error (Option α)) : Except Error (Option α) :=
  read ((Bindings.get? key ms).getD .null)

/-- The members of what has to be a record. -/
def recordMembers : Document → Except Error (List (String × Document))
  | record ms => .ok ms
  | _ => .error .notRecord

/-- The first key that comes again. -/
def repeated? : List String → Option String
  | [] => none
  | key :: rest => if rest.contains key then some key else repeated? rest

end Document

end Lox
