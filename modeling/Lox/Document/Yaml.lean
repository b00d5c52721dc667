import Lox.Document.Yaml.Node
import Lox.Text.Utf16
import Lox.Text.Utf8

/-!
Settings in YAML: the first document of a text, as the fields that will read it see it.
-/

namespace Lox.Document.Yaml

/-! ### Texts -/

/-- Words that stand for nothing. -/
def nulls : List String := ["", "~", "null", "Null", "NULL"]

/-- Words for what is so, and what is not. -/
def truths : List String := ["true", "True", "TRUE", "false", "False", "FALSE"]

/-- A word means what the field it stands in makes of it. -/
def ofWord (s : String) : Document := if nulls.contains s then .null else .word s

/-- A text with a tag has to be what the tag says. Tags that are not of the notation itself say
nothing. -/
def ofTagged (tag s : String) : Except Error Document :=
  if tag = "!!null" then if nulls.contains s then .ok .null else .error .malformed
  else if tag = "!!bool" then if truths.contains s then .ok (.text s) else .error .malformed
  else if tag = "!!int" then
    if isIntegerWord s.toList then .ok (.word s) else .error .malformed
  else if tag = "!!float" then
    if isNumberWord s.toList then .ok (.word s) else .error .malformed
  else if tag = "!!timestamp" || tag = "!!binary" then .error .malformed
  else .ok (.text s)

def ofScalar (plain : Bool) (tag : Option String) (s : String) : Except Error Document :=
  match tag with
  | some tag => ofTagged tag s
  | none => .ok (if plain then ofWord s else .text s)

/-! ### Records -/

/-- What tells two keys apart; two lists count as one key, and so do two records. -/
inductive KeyForm where
  | scalar (content : String)
  | sequence
  | mapping
deriving DecidableEq

def KeyForm.ofNode : Node → KeyForm
  | .scalar _ _ content => .scalar content
  | .sequence _ => .sequence
  | .mapping _ => .mapping

/-- Whether some key comes twice. -/
def hasRepeated : List KeyForm → Bool
  | [] => false
  | k :: rest => rest.contains k || hasRepeated rest

/-- Whether a key asks for the members of other records. -/
def isMerge : Node → Bool
  | .scalar plain tag content => content = "<<" && (tag = some "!!merge" || (tag.isNone && plain))
  | _ => false

/-- A key as text; nothing for a key that stands for nothing. -/
def keyOf? : Node → Except Error (Option String)
  | .scalar plain tag content => do (← ofScalar plain tag content).asText
  | _ => .error .notText

/-- Adds members, except those that are there already. -/
def addMissing (members more : List (String × Document)) : List (String × Document) :=
  members ++ more.filter fun (key, _) => !(members.map (·.1)).contains key

/-- The members of several records, those of earlier ones first. -/
def mergedAll : List Document → Except Error (List (String × Document))
  | [] => .ok []
  | d :: rest => do
    let first ← d.recordMembers
    return addMissing first (← mergedAll rest)

/-- The members that a record gets from others: from one, or from a list of them. -/
def merged : Document → Except Error (List (String × Document))
  | .list items => mergedAll items
  | d => d.recordMembers

/-- What is said under one key: a member, or the records that more members come from. -/
inductive Part where
  | member (name : String) (value : Document)
  | source (others : Document)

/-- A record of some parts. -/
def ofParts (parts : List Part) : Except Error Document := do
  let own := parts.filterMap fun
    | .member name value => some (name, value)
    | .source _ => none
  match repeated? (own.map (·.1)) with
  | some key => .error (.repeatedKey key)
  | none =>
    let others ← (parts.filterMap fun
      | .member _ _ => none
      | .source others => some others).mapM merged
    return .record (others.foldl addMissing own)

mutual

/-- What a part of a tree says. -/
def ofNode : Node → Except Error Document
  | .scalar plain tag content => ofScalar plain tag content
  | .sequence items => do return .list (← ofItems items)
  | .mapping members => do
    if hasRepeated (members.map fun (key, _) => .ofNode key) then .error .malformed
    else ofParts (← ofMembers members)

def ofItems : List Node → Except Error (List Document)
  | [] => .ok []
  | item :: rest => do
    let d ← ofNode item
    return d :: (← ofItems rest)

/-- The parts of a record. What a key for nothing stands before is not looked at. -/
def ofMembers : List (Node × Node) → Except Error (List Part)
  | [] => .ok []
  | (key, value) :: rest => do
    if isMerge key then
      let d ← ofNode value
      return .source d :: (← ofMembers rest)
    else
      match ← keyOf? key with
      | none => ofMembers rest
      | some name =>
        let d ← ofNode value
        return .member name d :: (← ofMembers rest)

end

/-! ### Texts as bytes -/

/-- The characters that a document may hold. -/
def isAllowed (c : Char) : Bool :=
  let n := c.toNat
  c = '\t' || c = '\n' || c = '\r' || (0x20 ≤ n && n ≤ 0x7E) || n = 0x85
    || (0xA0 ≤ n && n ≠ 0xFFFE && n ≠ 0xFFFF)

/-- Bytes as text. A mark of the byte order may come first, and tells the size of the units. -/
def charsOf? : List UInt8 → Option (List Char)
  | 0xFF :: 0xFE :: rest => (Text.units? false rest).bind Text.ofUnits?
  | 0xFE :: 0xFF :: rest => (Text.units? true rest).bind Text.ofUnits?
  | 0xEF :: 0xBB :: 0xBF :: rest => wellFormed? rest
  | bytes => wellFormed? bytes
where
  wellFormed? (bytes : List UInt8) : Option (List Char) :=
    if Text.isWellFormed bytes then some (Text.decode bytes) else none

/-- Reads the first document of a text. -/
def ofText (cs : List Char) : Except Error Document :=
  if cs.all isAllowed then do
    match ← firstNode (tokensOf (unifyBreaks cs)) with
    | none => .error .empty
    | some found => ofNode found
  else .error .malformed

def ofBytes (bytes : ByteArray) : Except Error Document :=
  match charsOf? bytes.toList with
  | some cs => ofText cs
  | none => .error .encoding

end Lox.Document.Yaml
