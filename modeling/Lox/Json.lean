import Lox.Decimal.Layout
import Lox.Text.Quoted

/-!
Data in a notation for exchange, members of an object in a given order.
-/

namespace Lox

inductive Json where
  | null
  | bool (value : Bool)
  | int (value : Int)
  | number (value : Float)
  | string (value : String)
  | array (items : List Json)
  | object (members : List (String × Json))

namespace Json

/-- Numbers take an exponent where they are very large or small. What is no finite number has no
notation. -/
def numberLayout : Decimal.Layout :=
  { least := -6, limit := 21, width := 1
    nan := "null", infinity := "null", negativeInfinity := "null" }

/-- Characters that could end the text around the notation are escaped as well. -/
def escapedChar (c : Char) : String :=
  match c with
  | '"' => "\\\""
  | '\\' => "\\\\"
  | '\x08' => "\\b"
  | '\x0c' => "\\f"
  | '\n' => "\\n"
  | '\r' => "\\r"
  | '\t' => "\\t"
  | _ =>
    if c.toNat < 0x20 ∨ c = '<' ∨ c = '>' ∨ c = '&' ∨ c = '\u2028' ∨ c = '\u2029' then
      "\\u" ++ Text.hexDigits 4 c.toNat
    else c.toString

def stringText (s : String) : String :=
  "\"" ++ String.join (s.toList.map escapedChar) ++ "\""

mutual

/-- Without blanks. -/
def compact : Json → String
  | null => "null"
  | bool value => if value then "true" else "false"
  | int value => toString value
  | number value => numberLayout.number value
  | string value => stringText value
  | array items => "[" ++ String.intercalate "," (compactItems items) ++ "]"
  | object members => "\x7b" ++ String.intercalate "," (compactMembers members) ++ "\x7d"

def compactItems : List Json → List String
  | [] => []
  | item :: rest => item.compact :: compactItems rest

def compactMembers : List (String × Json) → List String
  | [] => []
  | (name, value) :: rest => (stringText name ++ ":" ++ value.compact) :: compactMembers rest

end

/-- The start of a line at a given depth. -/
def newLine (depth : Nat) : String :=
  "\n" ++ String.join (List.replicate depth "  ")

/-- Lines between brackets; nothing at all between the brackets of an empty list. -/
def enclosed (opening closing : String) (depth : Nat) : List String → String
  | [] => opening ++ closing
  | lines =>
    opening ++ String.intercalate "," (lines.map (newLine (depth + 1) ++ ·))
      ++ newLine depth ++ closing

mutual

/-- One item or member to a line. -/
def indented (depth : Nat) : Json → String
  | array items => enclosed "[" "]" depth (indentedItems (depth + 1) items)
  | object members => enclosed "\x7b" "\x7d" depth (indentedMembers (depth + 1) members)
  | value => value.compact

def indentedItems (depth : Nat) : List Json → List String
  | [] => []
  | item :: rest => item.indented depth :: indentedItems depth rest

def indentedMembers (depth : Nat) : List (String × Json) → List String
  | [] => []
  | (name, value) :: rest =>
    (stringText name ++ ": " ++ value.indented depth) :: indentedMembers depth rest

end

end Json

end Lox
