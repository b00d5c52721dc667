import Lox.Grammar.Source
import Lox.Run.World
import Lox.Scope.Address

/-!
Diagnostics: one form for the errors of every stage.
-/

namespace Lox

/-- The step that found an error. Records from outside may name other steps. -/
inductive Stage where
  | scan
  | parse
  | resolve
  | runtime
  | other (name : String)
deriving DecidableEq

namespace Stage

def name : Stage → String
  | scan => "scan"
  | parse => "parse"
  | resolve => "resolve"
  | runtime => "runtime"
  | other name => name

/-- The steps of this library. -/
def known : List Stage := [scan, parse, resolve, runtime]

def ofName (s : String) : Stage := (known.find? (·.name = s)).getD (other s)

/-- Whether the step comes before anything runs. -/
def isStatic (s : Stage) : Bool := s ≠ runtime

end Stage

structure Diagnostic where
  stage : Stage
  /-- The file, if there is one. -/
  path : String := ""
  line : Int
  /-- The token, as static errors name it. -/
  place : String := ""
  message : String
deriving DecidableEq

namespace Diagnostic

def location (d : Diagnostic) : String :=
  (if d.path = "" then "" else d.path ++ " ") ++ "line " ++ toString d.line

/-- Static errors start with their place, and errors of a run end with it. -/
def description (d : Diagnostic) : String :=
  if d.stage = .runtime then d.message ++ "\n[" ++ d.location ++ "]"
  else "[" ++ d.location ++ "] Error" ++ d.place ++ ": " ++ d.message

/-- All of them, one after the other. -/
def describe (ds : List Diagnostic) : String :=
  if ds.isEmpty then "lox: run failed"
  else String.intercalate "\n" (ds.map description)

/-- The step that the first diagnostic names. -/
def stageOf (ds : List Diagnostic) : Stage := (ds.head?.map (·.stage)).getD (.other "")

def ofScan (e : Source.ScanError) : Diagnostic :=
  { stage := .scan, line := e.line, message := e.message }

def ofParse (e : Grammar.SyntaxError) : Diagnostic :=
  { stage := .parse, line := e.token.line, place := e.token.place, message := e.message }

def ofScope (e : Scope.ScopeError) : Diagnostic :=
  { stage := .resolve, line := e.token.line, place := e.token.place, message := e.message }

def ofRun (token : Token) (fault : Fault) : Diagnostic :=
  { stage := .runtime, line := token.line, message := fault.message }

def ofSource : Grammar.SourceError → List Diagnostic
  | .scan errors => errors.map ofScan
  | .parse errors => errors.map ofParse

end Diagnostic

/-! ### Static checks -/

/-- The program of a text, if it scans and parses. -/
def check (source : String) : Except (List Diagnostic) Program :=
  match Grammar.parseSource source with
  | .ok p => .ok p
  | .error e => .error (Diagnostic.ofSource e)

/-- The program of a text with its names addressed, if nothing is wrong with it before it runs. -/
def validate (source : String) : Except (List Diagnostic) Program :=
  match check source with
  | .error ds => .error ds
  | .ok p =>
    let addressed := Scope.resolve p
    if addressed.errors.isEmpty then .ok addressed.program
    else .error (addressed.errors.map Diagnostic.ofScope)

end Lox
