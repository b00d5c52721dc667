import Lox.Disk.Basic
import Lox.Document.Toml
import Lox.Document.Yaml
import Lox.Fixture
import Lox.Text.Lower

/-!
Projects on a disk: their settings, their fixtures, and how settings are found from inside.
-/

namespace Lox.Project

/-- The names of files with settings, the first of them preferred. -/
def configNames : List String := ["lox.yml", "lox.yaml", "lox.toml"]

/-- Why something could not be loaded. -/
inductive Error where
  | emptyPath
  | unreadable (path reason : String)
  | emptyFile (path : String)
  | badFile (path : String) (error : Document.Error)
  | unsupported (ext path : String)
  | invalid (issues : List Config.Issue)
  /-- There are no settings anywhere from here outward. -/
  | notFound (origin : String)
  | unknownState (path reason : String)
  | repository (dir reason : String)
  | fixtureUnreadable (path reason : String)
  | fixtureEmpty (path : String)
  | fixtureBad (path : String) (error : Document.Error)
  | fixtureInvalid (path : String) (issues : List String)
  | fixturesUnreadable (dir reason : String)

def Error.message : Error → String
  | emptyPath => "config: empty path"
  | unreadable path reason => "config: open " ++ path ++ ": " ++ reason
  | emptyFile path => "config: " ++ path ++ " is empty"
  | badFile path error => "config: parse " ++ path ++ ": " ++ error.message
  | unsupported ext path =>
    "config: unsupported file type " ++ Text.quoted ext ++ " for " ++ path
  | invalid issues => describeIssues (issues.map (·.message))
  | notFound origin =>
    "no " ++ String.intercalate "/" configNames ++ " found from " ++ origin
      ++ " upwards: config: project file not found"
  | unknownState path reason => "config: stat " ++ path ++ ": " ++ reason
  | repository dir reason => "config: open repository at " ++ dir ++ ": " ++ reason
  | fixtureUnreadable path reason => "fixture: open " ++ path ++ ": " ++ reason
  | fixtureEmpty path => "fixture: " ++ path ++ " is empty"
  | fixtureBad path error => "fixture: parse " ++ path ++ ": " ++ error.message
  | fixtureInvalid path issues => "fixture: " ++ path ++ ": " ++ describeIssues issues
  | fixturesUnreadable dir reason => "fixture: read " ++ dir ++ ": " ++ reason

/-! ### Settings from documents -/

/-- The fields of settings. -/
def configShapes : List (String × Document.Shape) :=
  [("name", .text), ("entry", .text), ("max_call_depth", .integer), ("natives", .texts),
   ("prompt", .text), ("fixtures", .text), ("parallelism", .integer)]

def configKeys : List String := configShapes.map (·.1)

/-- A text, unless it is blank. -/
def orElse (text : Option String) (default : String) : String :=
  let text := Text.trim (text.getD "")
  if text = "" then default else text

/-- What a file of settings says, field by field. -/
structure ConfigFile where
  name : Option String := none
  entry : Option String := none
  maxCallDepth : Option Int := none
  natives : Option (List String) := none
  prompt : Option String := none
  fixtures : Option String := none
  parallelism : Option Int := none

def configFileOf (d : Document) : Except Document.Error ConfigFile := do
  let ms ← d.members configKeys
  let name ← Document.field ms "name" Document.asText
  let entry ← Document.field ms "entry" Document.asText
  let maxCallDepth ← Document.field ms "max_call_depth" Document.asInt
  let natives ← Document.field ms "natives" (Document.asList Document.asText)
  let prompt ← Document.field ms "prompt" Document.asText
  let fixtures ← Document.field ms "fixtures" Document.asText
  let parallelism ← Document.field ms "parallelism" Document.asInt
  return { name, entry, maxCallDepth, natives, prompt, fixtures, parallelism }

/-- The settings that a file gives; what it leaves out stays as it is by default. -/
def ConfigFile.config (f : ConfigFile) (path : String) : Config :=
  let default : Config := {}
  { path
    name := orElse f.name (Path.base (Path.dir path))
    entry := Text.trim (f.entry.getD "")
    maxCallDepth := f.maxCallDepth.getD default.maxCallDepth
    natives := f.natives.getD default.natives
    prompt := f.prompt.getD default.prompt
    fixtures := orElse f.fixtures default.fixtures
    parallelism := f.parallelism.getD default.parallelism }

/-- The formats of settings. -/
inductive Format where
  | yaml
  | toml

def formatOf? (ext : String) : Option Format :=
  if ext = ".yml" ∨ ext = ".yaml" then some .yaml
  else if ext = ".toml" then some .toml
  else none

def Format.read : Format → ByteArray → Except Document.Error Document
  | .yaml => Document.Yaml.ofBytes
  | .toml => Document.Toml.ofBytes configShapes

/-- How the bytes of a file are read, in each format. -/
abbrev Reader := Format → ByteArray → Except Document.Error ConfigFile

def reader : Reader := fun format bytes => (format.read bytes).bind configFileOf

section

variable (read : Reader)

/-- The settings in a file's bytes. -/
def configOfBytes (format : Format) (path : String) (bytes : ByteArray) : Except Error Config :=
  match format, read format bytes with
  | .yaml, .error .empty => .error (.emptyFile path)
  | _, .error e => .error (.badFile path e)
  | _, .ok file =>
    let c := file.config path
    match c.validate with
    | .ok () => .ok c
    | .error issues => .error (.invalid issues)

/-- The settings in what came of reading a file. -/
def configOfRead (path : String) (content : Except DiskError ByteArray) : Except Error Config :=
  let ext := Text.lower (Path.ext path)
  match content, formatOf? ext with
  | .error .isDirectory, some _ =>
    .error (.badFile path (.unreadable (DiskError.isDirectory.reading path)))
  | .error .isDirectory, none => .error (.unsupported ext path)
  | .error e, _ => .error (.unreadable path (e.reading path))
  | .ok _, none => .error (.unsupported ext path)
  | .ok bytes, some format => configOfBytes read format path bytes

end

/-! ### Fixtures from documents -/

def diagnosticKeys : List String := ["stage", "line", "where", "message"]

def diagnosticOf : Document → Except Document.Error (Option Diagnostic)
  | .null => .ok none
  | d => do
    let ms ← d.members diagnosticKeys
    let stage ← Document.field ms "stage" Document.asText
    let line ← Document.field ms "line" Document.asInt
    let place ← Document.field ms "where" Document.asText
    let message ← Document.field ms "message" Document.asText
    return some {
      stage := .ofName (stage.getD ""), line := line.getD 0, place := place.getD ""
      message := message.getD "" }

def fixtureKeys : List String := ["name", "source", "stdout", "diagnostics", "max_call_depth"]

/-- The last part of a path without its suffix. -/
def stem (path : String) : String :=
  let base := Path.base path
  let ext := Path.ext path
  if ext.toList.isSuffixOf base.toList then
    String.ofList (base.toList.take (base.length - ext.length))
  else base

def fixtureOf (path : String) (d : Document) : Except Document.Error Fixture := do
  let ms ← d.members fixtureKeys
  let name ← Document.field ms "name" Document.asText
  let source ← Document.field ms "source" Document.asText
  let stdout ← Document.field ms "stdout" Document.asText
  let diagnostics ← Document.field ms "diagnostics" (Document.asList diagnosticOf)
  let depth ← Document.field ms "max_call_depth" Document.asInt
  let name := name.getD ""
  return {
    path
    name := if name = "" then stem path else name
    source := source.getD "", stdout := stdout.getD "", diagnostics := diagnostics.getD []
    maxCallDepth := depth.getD 0 }

def diagnosticIssues (i : Nat) : List Diagnostic → List String
  | [] => []
  | d :: rest =>
    (if Stage.known.contains d.stage then []
     else ["diagnostics[" ++ toString i ++ "]: unknown stage " ++ Text.quoted d.stage.name])
      ++ (if d.message = "" then ["diagnostics[" ++ toString i ++ "]: message must be provided"]
        else [])
      ++ diagnosticIssues (i + 1) rest

/-- What is wrong with a fixture. -/
def fixtureIssues (f : Fixture) : List String :=
  (if Text.isAllBlank f.source then ["source must be provided"] else [])
    ++ diagnosticIssues 0 f.diagnostics

def fixtureOfBytes (path : String) (bytes : ByteArray) : Except Error Fixture :=
  match (Document.Yaml.ofBytes bytes).bind (fixtureOf path) with
  | .error .empty => .error (.fixtureEmpty path)
  | .error e => .error (.fixtureBad path e)
  | .ok f =>
    if (fixtureIssues f).isEmpty then .ok f else .error (.fixtureInvalid path (fixtureIssues f))

def fixtureOfRead (path : String) : Except DiskError ByteArray → Except Error Fixture
  | .error .isDirectory =>
    .error (.fixtureBad path (.unreadable (DiskError.isDirectory.reading path)))
  | .error e => .error (.fixtureUnreadable path (e.reading path))
  | .ok bytes => fixtureOfBytes path bytes

/-- The files of a directory that hold fixtures, in order. -/
def fixturePaths (dir : String) (entries : List (String × Bool)) : List String :=
  let files := entries.filter fun (name, isDir) =>
    !isDir && (Path.ext name = ".yml" || Path.ext name = ".yaml")
  (files.map fun (name, _) => Path.join [dir, name]).mergeSort (· ≤ ·)

/-! ### On a disk -/

section

variable {m : Type → Type} [Monad m] (disk : Disk m)

/-- Loads settings from a file that `read` reads. -/
def loadConfigBy (read : Reader) (path : String) : m (Except Error Config) := do
  if path = "" then return .error .emptyPath
  let path := Path.absolute (← disk.cwd) path
  return configOfRead read path (← disk.read path)

/-- Loads settings from a file. -/
def loadConfig (path : String) : m (Except Error Config) := loadConfigBy disk reader path

/-- The name that marks the root of a working tree: a directory with the state of the repository,
or a file that says where this directory is. -/
def repositoryMark : String := ".git"

/-- How a file that says where the state of a repository is begins. -/
def repositoryLink : String := "gitdir: "

/-- Where the state of a repository is, by the file at a working tree's root. -/
def linkedState? (root : String) (bytes : ByteArray) : Option String :=
  let cs := (Text.ofBytes bytes).toList
  let link := repositoryLink.toList
  if link.isPrefixOf cs then
    let path := Text.trim (String.ofList ((cs.drop link.length).takeWhile (· ≠ '\n')))
    some (if Path.isAbsolute path then path else Path.join [root, path])
  else none

/-- Whether a directory holds the state of a repository, which always has a head. -/
def hasHead (state : String) : m Bool := do
  match ← disk.read (Path.join [state, "HEAD"]) with
  | .ok bytes => return !bytes.isEmpty
  | .error _ => return false

/-- Whether the file at a root leads to the state of a repository. -/
def leadsToState (root : String) (bytes : ByteArray) : m (Except String Bool) := do
  match linkedState? root bytes with
  | none =>
    return .error (repositoryMark ++ " file has no " ++ repositoryLink ++ " prefix")
  | some state =>
    match ← disk.isDir state with
    | .error .notFound => return .ok false
    | .error e => return .error (e.looking state)
    | .ok _ => return .ok (← hasHead disk state)

/-- The root of the working tree that some directories are in, going outward. Only the first mark
counts: if it marks no repository, there is no working tree. -/
def workingTree : List String → m (Except String (Option String))
  | [] => return .ok none
  | dir :: rest => do
    let mark := Path.join [dir, repositoryMark]
    match ← disk.isDir mark with
    | .error .notFound => workingTree rest
    | .error e => return .error (e.looking mark)
    | .ok true => return .ok (if ← hasHead disk mark then some dir else none)
    | .ok false =>
      match ← disk.read mark with
      | .error e => return .error (e.reading mark)
      | .ok bytes =>
        return (← leadsToState disk dir bytes).map fun leads => if leads then some dir else none

/-- The root of the working tree that a directory is in, if it is in one. -/
def worktreeRoot (dir : String) : m (Except Error (Option String)) := do
  match ← disk.isDir dir with
  | .error .notFound | .ok _ =>
    match ← workingTree disk (Path.outward dir) with
    | .error reason => return .error (.repository dir reason)
    | .ok root => return .ok root
  | .error e => return .error (.repository dir (e.looking dir))

/-- The first of some paths that names a file; what is not there or a directory is passed over. -/
def firstFile : List String → m (Except Error (Option String))
  | [] => return .ok none
  | path :: rest => do
    match ← disk.isDir path with
    | .ok false => return .ok (some path)
    | .ok true | .error .notFound => firstFile rest
    | .error e => return .error (.unknownState path (e.looking path))

/-- The files that may hold the settings of a directory, in the order of preference. -/
def candidates (dir : String) : List String := configNames.map fun name => Path.join [dir, name]

/-- The directory that a search starts from: of a file, the one around it. -/
def searchStart (start : String) : m String := do
  let dir := Path.absolute (← disk.cwd) start
  match ← disk.isDir dir with
  | .ok false => return Path.dir dir
  | _ => return dir

/-- Looks for settings in a directory and then in those around it. The last to be looked in is the
boundary, or the outermost directory, which is the one around itself. -/
def searchOutward (boundary : Option String) (origin dir : String) : m (Except Error String) := do
  match ← firstFile disk (candidates dir) with
  | .error e => return .error e
  | .ok (some path) => return .ok path
  | .ok none =>
    if boundary = some dir then return .error (.notFound origin)
    else if Path.dir dir = dir then return .error (.notFound origin)
    else searchOutward boundary origin (Path.dir dir)
termination_by Path.height dir
decreasing_by exact Path.height_dir_lt ‹_›

/-- Finds the nearest settings from a directory outward, but not outside the working tree whose root
is `detect`ed. -/
def findConfigBy (detect : String → m (Except Error (Option String))) (start : String) :
    m (Except Error String) := do
  let origin ← searchStart disk start
  match ← detect origin with
  | .error e => return .error e
  | .ok boundary => searchOutward disk boundary origin origin

/-- Finds the nearest settings from a directory outward, but not outside its working tree. -/
def findConfig (start : String) : m (Except Error String) :=
  findConfigBy disk (worktreeRoot disk) start

/-- The nearest settings that `read` reads, or the default where there are none. -/
def loadNearestConfigBy (read : Reader) (detect : String → m (Except Error (Option String)))
    (dir : String) : m (Except Error Config) := do
  match ← findConfigBy disk detect dir with
  | .ok path => loadConfigBy disk read path
  | .error (.notFound _) => return .ok {}
  | .error e => return .error e

/-- The nearest settings, or the default where there are none. -/
def loadNearestConfig (dir : String) : m (Except Error Config) :=
  loadNearestConfigBy disk reader (worktreeRoot disk) dir

def loadFixture (path : String) : m (Except Error Fixture) :=
  return fixtureOfRead path (← disk.read path)

/-- Loads fixtures up to the first that cannot be. -/
def loadEach : List String → m (Except Error (List Fixture))
  | [] => return .ok []
  | path :: rest => do
    match ← loadFixture disk path with
    | .error e => return .error e
    | .ok f => return (← loadEach rest).map (f :: ·)

/-- Loads the fixtures of a directory. -/
def loadFixtures (dir : String) : m (Except Error (List Fixture)) := do
  match ← disk.list dir with
  | .error e => return .error (.fixturesUnreadable dir (e.reading dir))
  | .ok entries => loadEach disk (fixturePaths dir entries)

/-- Runs the program in a file. -/
def runFile (s : Session) (path : String) : m (Session × Option Failure) := do
  match ← disk.read path with
  | .error e => return (s, some (.unreadable path (e.reading path)))
  | .ok bytes => return s.runNamed (Path.base path) (Text.ofBytes bytes)

end

end Lox.Project
