import Lox.Session

/-!
What a command leaves behind: an exit code and two texts.
-/

namespace Lox.Cli

def exitOk : Nat := 0
def exitFailure : Nat := 1
/-- The command itself is wrong. -/
def exitUsage : Nat := 64
/-- The program is wrong before it runs. -/
def exitStatic : Nat := 65
/-- The program went wrong while it ran. -/
def exitRuntime : Nat := 70

structure Outcome where
  exit : Nat := exitOk
  stdout : String := ""
  stderr : String := ""

/-- A command that ends with a complaint. -/
def Outcome.complaint (exit : Nat) (line : String) : Outcome := { exit, stderr := line ++ "\n" }

/-- What is said about a failure, and the exit code that goes with it. -/
def report : Option Failure → Nat × String
  | none => (exitOk, "")
  | some (.reported ds) =>
    (if (Diagnostic.stageOf ds).isStatic then exitStatic else exitRuntime,
     String.join (ds.map (·.description ++ "\n")))
  | some failure => (exitFailure, failure.message ++ "\n")

/-- The outcome of a program that ran alone in a session. -/
def Outcome.ofRun (s : Session) (failure : Option Failure) : Outcome :=
  let (exit, stderr) := report failure
  { exit, stdout := s.output, stderr }

end Lox.Cli
