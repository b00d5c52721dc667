import Lox.Disk.Basic
import Lox.Text.Split

/-!
A disk in memory.
-/

namespace Lox

inductive FileTree where
  | file (content : ByteArray)
  | dir (entries : List (String × FileTree))

namespace FileTree

instance : Inhabited FileTree := ⟨.dir []⟩

/-- What is at a name inside a directory. -/
def child? (name : String) : FileTree → Except DiskError FileTree
  | file _ => .error .notDirectory
  | dir entries =>
    match entries.lookup name with
    | some t => .ok t
    | none => .error .notFound

/-- What is at the end of a chain of names. -/
def at? (t : FileTree) : List String → Except DiskError FileTree
  | [] => .ok t
  | name :: rest =>
    match t.child? name with
    | .ok t => t.at? rest
    | .error e => .error e

def isDirectory : FileTree → Bool
  | file _ => false
  | dir _ => true

/-- The parts of a path as they stand. -/
def parts (path : String) : List String := (Text.splitOn '/' path.toList).map String.ofList

/-- How many bytes a name may have. -/
def maxName : Nat := 255

/-- How many bytes a path may have. -/
def maxPath : Nat := 4095

/-- Follows a path part by part, from `here` on, which is the chain of names so far, last first.
Every part but a last name needs a directory to stand in. -/
def follow (root : FileTree) : List String → List String → Except DiskError FileTree
  | here, [] => root.at? here.reverse
  | here, part :: rest =>
    match root.at? here.reverse with
    | .error e => .error e
    | .ok t =>
      if !t.isDirectory then .error .notDirectory
      else if part = "" ∨ part = "." then root.follow here rest
      else if part = ".." then root.follow here.tail rest
      else if maxName < part.utf8ByteSize then .error .nameTooLong
      else root.follow (part :: here) rest

/-- What a path names, where relative paths start from `cwd`. -/
def find (root : FileTree) (cwd path : String) : Except DiskError FileTree :=
  if path = "" then .error .notFound
  else if path.toList.contains '\x00' then .error .invalidPath
  else if maxPath < path.utf8ByteSize then .error .nameTooLong
  else if path.toList.head? = some '/' then root.follow [] (parts path)
  else root.follow [] (parts cwd ++ parts path)

/-- Puts something at the end of a chain of names, with directories around it as needed. -/
def put (new : FileTree) : List String → FileTree → FileTree
  | [], _ => new
  | name :: rest, t =>
    let entries := match t with
      | file _ => []
      | dir entries => entries
    let inner := put new rest ((entries.lookup name).getD (.dir []))
    .dir ((entries.filter (·.1 ≠ name)) ++ [(name, inner)])

/-- Puts a directory where nothing is yet. -/
def makeDir (names : List String) (t : FileTree) : FileTree :=
  match t.at? names with
  | .ok _ => t
  | .error _ => put (.dir []) names t

/-- The tree as a disk. -/
def disk (root : FileTree) (cwd : String) : Disk Id where
  cwd := cwd
  isDir path := (root.find cwd path).map isDirectory
  read path :=
    match root.find cwd path with
    | .ok (.file content) => .ok content
    | .ok (.dir _) => .error .isDirectory
    | .error e => .error e
  list path :=
    match root.find cwd path with
    | .ok (.file _) => .error .notDirectory
    | .ok (.dir entries) => .ok (entries.map fun (name, t) => (name, t.isDirectory))
    | .error e => .error e

end FileTree

end Lox
