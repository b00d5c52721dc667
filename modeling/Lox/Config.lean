import Lox.Native.Standard
import Lox.Path
import Lox.Session
import Lox.Text.Blank
import Lox.Text.Quoted

/-!
The settings of a project.
-/

namespace Lox

structure Config where
  /-- The file that the settings come from, if there is one. -/
  path : String := ""
  name : String := "lox"
  entry : String := ""
  maxCallDepth : Int := defaultMaxDepth
  natives : List String := Native.standardNames
  prompt : String := "> "
  fixtures : String := "fixtures"
  parallelism : Int := 1

namespace Config

/-- The directory that other paths start from. -/
def dir (c : Config) : String := if c.path = "" then "." else Path.dir c.path

def entryPath (c : Config) : String :=
  if c.entry = "" ∨ Path.isAbsolute c.entry then c.entry else Path.join [c.dir, c.entry]

def fixturesPath (c : Config) : String :=
  if Path.isAbsolute c.fixtures then c.fixtures else Path.join [c.dir, c.fixtures]

/-- What can be wrong with settings. -/
inductive Issue where
  | noName
  | entrySuffix (entry : String)
  | callDepth (depth : Int)
  | unknownNative (name : String)
  | repeatedNative (name : String)
  | parallelism (n : Int)
deriving DecidableEq

def Issue.message : Issue → String
  | noName => "name must be provided"
  | entrySuffix entry => "entry " ++ Text.quoted entry ++ " must be a .lox file"
  | callDepth depth => "max_call_depth must be positive, got " ++ toString depth
  | unknownNative name =>
    "unknown native " ++ Text.quoted name ++ " (available: "
      ++ String.intercalate ", " Native.standardNames ++ ")"
  | repeatedNative name => "native " ++ Text.quoted name ++ " listed more than once"
  | parallelism n => "parallelism must be at least 1, got " ++ toString n

/-- The suffix of programs' files. -/
def scriptSuffix : List Char := ".lox".toList

def isScript (path : String) : Bool := scriptSuffix.isSuffixOf path.toList

/-- Issues of a list of natives, of which those in `seen` came before. -/
def nativeIssues (seen : List String) : List String → List Issue
  | [] => []
  | name :: rest =>
    let issue :=
      if ¬ Native.standardNames.contains name then [.unknownNative name]
      else if seen.contains name then [.repeatedNative name]
      else []
    issue ++ nativeIssues (name :: seen) rest

/-- All that is wrong, in the order of the fields. -/
def issues (c : Config) : List Issue :=
  (if Text.isAllBlank c.name then [.noName] else [])
    ++ (if c.entry ≠ "" ∧ ¬ isScript c.entry then [.entrySuffix c.entry] else [])
    ++ (if c.maxCallDepth ≤ 0 then [.callDepth c.maxCallDepth] else [])
    ++ nativeIssues [] c.natives
    ++ (if c.parallelism < 1 then [.parallelism c.parallelism] else [])

/-- Settings with which something is wrong are refused, with all that is wrong. -/
def validate (c : Config) : Except (List Issue) Unit :=
  if c.issues.isEmpty then .ok () else .error c.issues

/-- A session with these settings. -/
def session (c : Config) (replies : Natives) (sink : Sink) : Except Failure Session :=
  Session.start c.maxCallDepth c.natives replies sink

end Config

/-- A list of issues as one message. -/
def describeIssues : List String → String
  | [] => "config: invalid configuration"
  | issues => "config validation failed:" ++ String.join (issues.map ("\n- " ++ ·))

end Lox
