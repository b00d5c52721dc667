import Lox.Document.Yaml.Token

/-!
The tree of a YAML document, from its tokens. Names given to parts of it are followed right away,
so that the tree holds what they stand for.
-/

namespace Lox.Document.Yaml

inductive Node where
  /-- A text; `plain` if it was a word, and with its tag if it has one. -/
  | scalar (plain : Bool) (tag : Option String) (content : String)
  | sequence (items : List Node)
  | mapping (members : List (Node × Node))

namespace Node

/-- Nothing at all where something could be. -/
def absent : Node := .scalar true none ""

end Node

/-! ### Tags -/

/-- What the tags of the notation itself start with. -/
def standardStart : String := "tag:yaml.org,2002:"

/-- Handles that always stand for something. -/
def standardHandles : List (String × String) := [("!", "!"), ("!!", standardStart)]

/-- A tag in its short form; an exclamation mark alone says nothing. -/
def shortTag (full : String) : Option String :=
  let start := standardStart.toList
  if full = "!" then none
  else if start.isPrefixOf full.toList then
    some (String.ofList ('!' :: '!' :: full.toList.drop start.length))
  else some full

/-! ### Reading -/

/-- How far a tree is read. -/
structure Progress where
  tokens : List Token
  handles : List (String × String) := standardHandles
  /-- What names stand for, latest first; nothing yet for what is still being read. -/
  anchors : List (String × Option Node) := []

abbrev Build := StateT Progress (Except Error)

namespace Build

def fail {α : Type} : Build α := fun _ => .error .malformed

/-- The token at hand. -/
def peek? : Build (Option Token) := return (← get).tokens.head?

def skip : Build Unit := modify fun s => { s with tokens := s.tokens.tail }

/-- Whether the token at hand is among some. -/
def isAt (among : Token → Bool) : Build Bool := return (← peek?).any among

/-- Notes what a name stands for, from here on. -/
def name (anchor : Option String) (found : Option Node) : Build Unit :=
  match anchor with
  | none => pure ()
  | some a => modify fun s => { s with anchors := (a, found) :: s.anchors }

/-- What a name stands for. -/
def named (a : String) : Build Node := do
  match (← get).anchors.find? (·.1 = a) with
  | some (_, some found) => return found
  | _ => fail

end Build

/-- A name and a tag in front of something. -/
structure Properties where
  anchor : Option String := none
  tag : Option (String × String) := none

/-- Properties stand in either order. -/
def propertiesOf : List Token → Properties × List Token
  | .anchor a :: .tag h s :: rest | .tag h s :: .anchor a :: rest => (⟨some a, some (h, s)⟩, rest)
  | .anchor a :: rest => (⟨some a, none⟩, rest)
  | .tag h s :: rest => (⟨none, some (h, s)⟩, rest)
  | rest => ({}, rest)

/-- The tag that a handle and a suffix make. -/
def Properties.tag? (p : Properties) (handles : List (String × String)) :
    Except Error (Option String) :=
  match p.tag with
  | none => .ok none
  | some ("", suffix) => .ok (shortTag suffix)
  | some (handle, suffix) =>
    match handles.find? (·.1 = handle) with
    | some (_, start) => .ok (shortTag (start ++ suffix))
    | none => .error .malformed

/-- The properties at hand, with their tag in short form. -/
def properties : Build (Properties × Option String) := do
  let s ← get
  let (props, tokens) := propertiesOf s.tokens
  let tag ← props.tag? s.handles
  set { s with tokens }
  return (props, tag)

/-! ### Parts -/

/-- What ends a part of a record by indentation. -/
def endsMember : Token → Bool
  | .key | .value | .blockEnd => true
  | _ => false

/-- What ends an item of a list by indentation. -/
def endsItem : Token → Bool
  | .dash | .blockEnd => true
  | _ => false

/-- Whether `close` is not yet at hand; a comma comes first, except before the first part. -/
def goesOn (close : Token) (isFirst : Bool) : Build Bool := do
  if ← Build.isAt (· = close) then return false
  else if isFirst then return true
  else if ← Build.isAt (· = .comma) then
    Build.skip
    return !(← Build.isAt (· = close))
  else Build.fail

mutual

/-- Any part of a document. Lists and records by indentation stand only where `isBlock` says so,
and a list that is no further in than its record where `isFlush` does. -/
def node : Nat → Bool → Bool → Build Node
  | 0, _, _ => Build.fail
  | n + 1, isBlock, isFlush => do
    match ← Build.peek? with
    | some (.alias a) =>
      Build.skip
      Build.named a
    | _ =>
      let (props, tag) ← properties
      match ← Build.peek? with
      | some (.scalar isPlain content) =>
        Build.skip
        let found := Node.scalar isPlain tag content
        Build.name props.anchor (some found)
        return found
      | first =>
        if (first.any fun t => t = .flowSequence || t = .flowMapping)
            || (isBlock && first.any fun t => t = .blockSequence || t = .blockMapping)
            || (isFlush && first = some .dash) then
          Build.name props.anchor none
          let found ← collection n
          Build.name props.anchor (some found)
          return found
        else if props.anchor.isSome || props.tag.isSome then
          let found := Node.scalar true tag ""
          Build.name props.anchor (some found)
          return found
        else Build.fail

/-- A list or record. -/
def collection : Nat → Build Node
  | 0 => Build.fail
  | n + 1 => do
    let first ← Build.peek?
    if first = some .dash then return .sequence (← flushItems n)
    else
      Build.skip
      match first with
      | some .flowSequence => return .sequence (← flowItems n true)
      | some .flowMapping => return .mapping (← flowMembers n true)
      | some .blockSequence => return .sequence (← blockItems n)
      | some .blockMapping => return .mapping (← blockMembers n)
      | _ => Build.fail

/-- A part, unless it is left out. -/
def optional : Nat → (Token → Bool) → Bool → Bool → Build Node
  | 0, _, _, _ => Build.fail
  | n + 1, ends, isBlock, isFlush => do
    if ← Build.isAt ends then return .absent else node n isBlock isFlush

/-- The items of a list by indentation. -/
def blockItems : Nat → Build (List Node)
  | 0 => Build.fail
  | n + 1 => do
    match ← Build.peek? with
    | some .blockEnd =>
      Build.skip
      return []
    | some .dash =>
      Build.skip
      let item ← optional n endsItem true false
      return item :: (← blockItems n)
    | _ => Build.fail

/-- The items of a list that is no further in than its record. -/
def flushItems : Nat → Build (List Node)
  | 0 => Build.fail
  | n + 1 => do
    if ← Build.isAt (· = .dash) then
      Build.skip
      let item ← optional n (fun t => endsItem t || endsMember t) true false
      return item :: (← flushItems n)
    else return []

/-- The members of a record by indentation. -/
def blockMembers : Nat → Build (List (Node × Node))
  | 0 => Build.fail
  | n + 1 => do
    match ← Build.peek? with
    | some .blockEnd =>
      Build.skip
      return []
    | some .key =>
      Build.skip
      let key ← optional n endsMember true true
      let value ← memberValue n endsMember true
      return (key, value) :: (← blockMembers n)
    | _ => Build.fail

/-- The value of a key, which may be left out together with its colon. -/
def memberValue : Nat → (Token → Bool) → Bool → Build Node
  | 0, _, _ => Build.fail
  | n + 1, ends, isBlock => do
    if ← Build.isAt (· = .value) then
      Build.skip
      optional n ends isBlock isBlock
    else return .absent

/-- The items of a list in brackets. -/
def flowItems : Nat → Bool → Build (List Node)
  | 0, _ => Build.fail
  | n + 1, isFirst => do
    if ← goesOn .flowSequenceEnd isFirst then
      let item ← if ← Build.isAt (· = .key) then flowPair n else node n false false
      return item :: (← flowItems n false)
    else
      Build.skip
      return []

/-- A key in a list in brackets makes a record of one member. Where the key is left out, what
follows its mark counts for it. -/
def flowPair : Nat → Build Node
  | 0 => Build.fail
  | n + 1 => do
    Build.skip
    let leftOut ← Build.isAt fun t => t = .value || t = .comma || t = .flowSequenceEnd
    if leftOut then Build.skip
    let key ← if leftOut then pure .absent else node n false false
    let value ← memberValue n (fun t => t = .comma || t = .flowSequenceEnd) false
    return .mapping [(key, value)]

/-- The members of a record in braces; values may be left out. -/
def flowMembers : Nat → Bool → Build (List (Node × Node))
  | 0, _ => Build.fail
  | n + 1, isFirst => do
    let ends := fun t : Token => t = .comma || t = .flowMappingEnd
    if ← goesOn .flowMappingEnd isFirst then
      if ← Build.isAt (· = .key) then
        Build.skip
        let key ← optional n (fun t => t = .value || ends t) false false
        let value ← memberValue n ends false
        return (key, value) :: (← flowMembers n false)
      else
        let key ← node n false false
        return (key, .absent) :: (← flowMembers n false)
    else
      Build.skip
      return []

end

/-! ### Documents -/

/-- The handles that the directives before a document set up; no directive comes twice. -/
def directives (hasVersion : Bool) (handles : List (String × String)) :
    List Token → Except Error (List (String × String) × List Token)
  | .version known :: rest =>
    if known && !hasVersion then directives true handles rest else .error .malformed
  | .handle name start :: rest =>
    if handles.any (·.1 = name) then .error .malformed
    else directives hasVersion ((name, start) :: handles) rest
  | tokens => .ok (handles, tokens)

/-- Whether a document ends, or another one starts. -/
def endsDocument : Token → Bool
  | .version _ | .handle _ _ | .documentStart | .documentEnd | .finish => true
  | _ => false

/-- No part is deeper than this: no four steps in a row leave the token at hand where it is. -/
def maxDepth (tokens : List Token) : Nat := 4 * tokens.length + 4

/-- A document that starts with `first`; what follows it has to be readable. -/
def document (first : Build Node) (start : Progress) : Except Error Node := do
  let (found, after) ← first start
  if after.tokens.head?.all (· = .fault) then .error .malformed else return found

/-- The tree of the first document; nothing for a text without any. -/
def firstNode (tokens : List Token) : Except Error (Option Node) :=
  match tokens with
  | .finish :: _ => .ok none
  | .version _ :: _ | .handle _ _ :: _ | .documentStart :: _ => do
    let (handles, rest) ← directives false [] tokens
    match rest with
    | .documentStart :: tokens =>
      let first := optional (maxDepth tokens) endsDocument true false
      return some (← document first { tokens, handles := handles ++ standardHandles })
    | _ => .error .malformed
  | _ => do
    return some (← document (node (maxDepth tokens) true false) { tokens })

end Lox.Document.Yaml
