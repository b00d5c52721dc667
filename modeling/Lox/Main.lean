import Lox.Cli.Basic
import Std.Time.DateTime.Timestamp

/-!
The command line on the disk, the clock and the streams of the machine it runs on. The clock is
read once, when the command starts.
-/

namespace Lox.Main

/-- The system's number for "is a directory". -/
def isDirectoryCode : UInt32 := 21

/-- The system's number for "file name too long". -/
def nameTooLongCode : UInt32 := 36

def diskErrorOf : IO.Error → DiskError
  | .noFileOrDirectory _ _ _ => .notFound
  | .inappropriateType _ code _ => if code = isDirectoryCode then .isDirectory else .notDirectory
  | .invalidArgument _ code _ => if code = nameTooLongCode then .nameTooLong else .invalidPath
  | e => .other (toString e)

def readFile (path : String) : IO (Except DiskError ByteArray) := do
  try return .ok (← IO.FS.readBinFile path)
  catch e => return .error (diskErrorOf e)

/-- The names in a directory. -/
def entryNames (path : String) : IO (List String) := do
  return (← ((← IO.currentDir) / path).readDir).toList.map (·.fileName)

/-- A directory can be listed; of what cannot, a file can be read. -/
def isDir (path : String) : IO (Except DiskError Bool) := do
  if path = "" then return .error .notFound
  try
    discard (entryNames path)
    return .ok true
  catch _ => return (← readFile path).map fun _ => false

def listDir (path : String) : IO (Except DiskError (List (String × Bool))) := do
  match ← isDir path with
  | .error e => return .error e
  | .ok false => return .error .notDirectory
  | .ok true =>
    return .ok (← (← entryNames path).mapM fun name => do
      let inner ← isDir (path ++ "/" ++ name)
      return (name, inner matches .ok true))

def disk : Disk IO where
  cwd := return (← IO.currentDir).toString
  isDir := isDir
  read := readFile
  list := listDir

/-- The next line without its end, cut off once it is too long; nothing at the end of the input. -/
partial def nextLine (input : IO.FS.Stream) (line : Array UInt8) : IO (Option (List UInt8)) := do
  if Cli.maxLine < line.size then return some line.toList
  match (← input.read 1).toList with
  | [] => return if line.isEmpty then none else some line.toList
  | b :: _ => if b = 10 then return some line.toList else nextLine input (line.push b)

def say (stdout stderr : String) : IO Unit := do
  IO.print stdout
  (← IO.getStdout).flush
  IO.eprint stderr

def conclude (o : Cli.Outcome) : IO UInt32 := do
  say o.stdout o.stderr
  return o.exit.toUInt32

/-- Says what there is to say before each line is read. -/
partial def converse (d : Cli.Dialog) : IO UInt32 := do
  say d.stdout d.stderr
  let d := { d with stdout := "", stderr := "" }
  match ← nextLine (← IO.getStdin) #[] with
  | none => conclude (d.finish true)
  | some line =>
    if Cli.maxLine < line.length then conclude (d.finish false) else converse (d.answer line)

def now : IO Float := do
  let t ← Std.Time.Timestamp.now
  return Float.ofInt t.toNanosecondsSinceUnixEpoch.val / 1000000000

end Lox.Main

open Lox in
def main (args : List String) : IO UInt32 := do
  match ← Cli.plan Main.disk (Native.standardReplies (← Main.now)) args with
  | .done outcome => Main.conclude outcome
  | .dialog d => Main.converse d
