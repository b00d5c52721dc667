import Lox.Diagnostic
import Lox.Native.Standard
import Lox.Run.Eval
import Lox.Text.Quoted

/-!
Sessions: programs that run one after the other on the same globals. What is wrong with a program
before it runs keeps it from running at all.
-/

namespace Lox

/-- Why a program did not run to its end. -/
inductive Failure where
  /-- The program is wrong; there is at least one diagnostic. -/
  | reported (diagnostics : List Diagnostic)
  /-- Something around the program went wrong, outside all calls. -/
  | unplaced (fault : Fault)
  | outOfFuel
  | unknownNative (name : String)
  | unreadable (path reason : String)

namespace Failure

def message : Failure → String
  | reported ds => Diagnostic.describe ds
  | unplaced fault => "driver: " ++ fault.message
  | outOfFuel => "driver: out of fuel"
  | unknownNative name => "driver: interpreter: unknown native " ++ Text.quoted name
  | unreadable path reason => "driver: read " ++ path ++ ": " ++ reason

def diagnostics : Failure → List Diagnostic
  | reported ds => ds
  | _ => []

/-- The failure of a program that comes from a file. -/
def inFile (path : String) : Failure → Failure
  | reported ds => reported (ds.map ({ · with path }))
  | failure => failure

def ofStop : Stop → Failure
  | .raised token fault => reported [Diagnostic.ofRun token fault]
  | .unplaced fault => unplaced fault
  | .outOfFuel => outOfFuel

end Failure

/-- How many calls may go on at once where nothing else is said. -/
def defaultMaxDepth : Nat := 2048

/-- A limit that is not positive stands for the default. -/
def depthLimit (n : Int) : Nat := if 0 < n then n.toNat else defaultMaxDepth

structure Session where
  machine : Machine
  world : World := .start
  /-- How many programs have started to run. -/
  runs : Nat := 0

namespace Session

def define (s : Session) (name : String) (v : Value) : Session :=
  { s with world := { s.world with frames := s.world.frames.define Frames.root name v } }

def lend (s : Session) (native : Native) : Session := s.define native.name (.native native)

/-- Turns on standard natives. -/
def enable (s : Session) : List String → Except Failure Session
  | [] => .ok s
  | name :: rest =>
    match Native.standard? name with
    | some native => (s.lend native).enable rest
    | none => .error (.unknownNative name)

/-- A session with a limit on calls and the named natives. -/
def start (maxDepth : Int) (natives : List String) (replies : Natives) (sink : Sink) :
    Except Failure Session :=
  enable { machine := { maxDepth := depthLimit maxDepth, natives := replies, sink } } natives

/-- Runs a checked program. -/
def execute (s : Session) (p : Program) : Session × Option Failure :=
  match Run.program s.machine p s.world with
  | .ok _ world => ({ s with world, runs := s.runs + 1 }, none)
  | .error stop world => ({ s with world, runs := s.runs + 1 }, some (.ofStop stop))

/-- Said of a tree that is no program. -/
def noProgram : String := "interpreter: program is nil"

/-- Checks a program and runs it. -/
def run (s : Session) (source : String) : Session × Option Failure :=
  match validate source with
  | .error ds => (s, some (.reported ds))
  | .ok p => s.execute p

/-- Runs a program that comes from a file. -/
def runNamed (s : Session) (path source : String) : Session × Option Failure :=
  let (s, failure) := s.run source
  (s, failure.map (.inFile path))

/-- The globals in the order of their names. -/
def globals (s : Session) : Bindings Value :=
  Bindings.sorted (s.world.frames.bindings Frames.root)

/-- What was printed after the first `n` lines. -/
def outputSince (s : Session) (n : Nat) : String :=
  String.join ((s.world.printed.toList.drop n).map (· ++ "\n"))

def output (s : Session) : String := s.outputSince 0

end Session

end Lox
