import Lox.Config
import Lox.Pool.Settle

/-!
Fixtures: programs with what they have to print and which diagnostics they have to give.
-/

namespace Lox

structure Fixture where
  path : String := ""
  name : String := ""
  source : String := ""
  stdout : String := ""
  diagnostics : List Diagnostic := []
  /-- Only a positive limit counts. -/
  maxCallDepth : Int := 0

namespace Fixture

/-- Why a fixture could not be compared. -/
inductive Error where
  | session (failure : Failure)
  | task (error : Pool.TaskError)

def Error.message : Error → String
  | session failure => failure.message
  | task error => error.message

/-- What a fixture's program did. -/
structure Result where
  fixture : Fixture
  stdout : String := ""
  diagnostics : List Diagnostic := []
  mismatches : List String := []
  error : Option Error := none

def Result.passed (r : Result) : Bool := r.error.isNone && r.mismatches.isEmpty

/-- An expectation without a line or a place leaves it open. -/
def agrees (want got : Diagnostic) : Bool :=
  got.stage = want.stage && got.message = want.message
    && (want.line = 0 || got.line = want.line)
    && (want.place = "" || got.place = want.place)

def outputMismatch (want got : String) : List String :=
  if got = want then []
  else ["stdout mismatch:\nexpected " ++ Text.quoted want ++ "\n     got " ++ Text.quoted got]

/-- Compares diagnostics one by one, the first of them with number `i`. -/
def diagnosticMismatches (i : Nat) : List Diagnostic → List Diagnostic → List String
  | want :: wants, got :: gots =>
    (if agrees want got then []
     else ["diagnostic " ++ toString i ++ ": expected " ++ want.description ++ ", got "
       ++ got.description]) ++ diagnosticMismatches (i + 1) wants gots
  | _, _ => []

/-- All differences; diagnostics are only compared when there are as many as expected. -/
def mismatches (f : Fixture) (stdout : String) (diagnostics : List Diagnostic) : List String :=
  outputMismatch f.stdout stdout ++
    if diagnostics.length ≠ f.diagnostics.length then
      ["expected " ++ toString f.diagnostics.length ++ " diagnostics, got "
        ++ toString diagnostics.length ++ ":\n"
        ++ String.intercalate "\n" (diagnostics.map ("  " ++ ·.description))]
    else diagnosticMismatches 0 f.diagnostics diagnostics

/-- The settings under which a fixture runs. -/
def config (f : Fixture) (c : Config) : Config :=
  if 0 < f.maxCallDepth then { c with maxCallDepth := f.maxCallDepth } else c

/-- Runs a fixture's program in a session of its own, and compares. -/
def run (f : Fixture) (c : Config) (replies : Natives) : Result :=
  match (f.config c).session replies {} with
  | .error failure => { fixture := f, error := some (.session failure) }
  | .ok s =>
    let (s, failure) := s.run f.source
    match failure with
    | none => { fixture := f, stdout := s.output, mismatches := f.mismatches s.output [] }
    | some (.reported diagnostics) =>
      { fixture := f, stdout := s.output, diagnostics
        mismatches := f.mismatches s.output diagnostics }
    | some failure => { fixture := f, stdout := s.output, error := some (.session failure) }

/-- The result of a task that was to run a fixture. -/
def Result.ofOutcome (f : Fixture) : Option (Except Pool.TaskError Result) → Result
  | some (.ok r) => r
  | some (.error e) => { fixture := f, error := some (.task e) }
  | none => { fixture := f, error := some (.task .cancelled) }

/-- Runs fixtures as tasks of a pool, each with natives of its own; the results are in the order of
the fixtures. -/
def runEach (discipline : Pool.Discipline) (fixtures : List Fixture) (c : Config)
    (replies : Nat → Natives) : List Result :=
  let pool : Pool Result := { discipline }
  let bodies := fixtures.mapIdx fun k f => .gives (f.run c (replies k))
  List.zipWith Result.ofOutcome fixtures (pool.submitAll bodies).settle.outcomes

/-- Runs fixtures as tasks of a pool, with natives that do the same in all of them. -/
def runAll (discipline : Pool.Discipline) (fixtures : List Fixture) (c : Config)
    (replies : Natives) : List Result :=
  runEach discipline fixtures c fun _ => replies

end Fixture

end Lox
