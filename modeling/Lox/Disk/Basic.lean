/-!
What the library asks of a disk. The functions that use it work in any monad, so that they run on a
real disk as well as on a tree of files in memory.
-/

namespace Lox

inductive DiskError where
  | notFound
  | notDirectory
  | isDirectory
  /-- The path is longer than a disk allows, or a name in it is. -/
  | nameTooLong
  /-- The path holds a character that no path can. -/
  | invalidPath
  | other (reason : String)
deriving DecidableEq

namespace DiskError

def message : DiskError → String
  | notFound => "no such file or directory"
  | notDirectory => "not a directory"
  | isDirectory => "is a directory"
  | nameTooLong => "file name too long"
  | invalidPath => "invalid argument"
  | other reason => reason

/-- Opening a directory works, reading from it does not. -/
def reading (e : DiskError) (path : String) : String :=
  (if e = .isDirectory then "read " else "open ") ++ path ++ ": " ++ e.message

def looking (e : DiskError) (path : String) : String := "stat " ++ path ++ ": " ++ e.message

end DiskError

structure Disk (m : Type → Type) where
  /-- The directory that relative paths start from. -/
  cwd : m String
  /-- Whether a path names a directory. -/
  isDir : String → m (Except DiskError Bool)
  read : String → m (Except DiskError ByteArray)
  /-- The names in a directory, each with whether it is a directory too. -/
  list : String → m (Except DiskError (List (String × Bool)))

end Lox
