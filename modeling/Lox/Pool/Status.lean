/-!
What becomes of a task.
-/

namespace Lox.Pool

inductive Status where
  | pending
  | running
  | succeeded
  | failed
  | cancelled
deriving DecidableEq, Repr

namespace Status

def name : Status → String
  | pending => "pending"
  | running => "running"
  | succeeded => "succeeded"
  | failed => "failed"
  | cancelled => "cancelled"

/-- Every status, in the order of its number. -/
def all : List Status := [pending, running, succeeded, failed, cancelled]

/-- The name that goes with a number, also where no status has it. -/
def nameOfIndex (i : Int) : String :=
  match if i < 0 then none else all[i.toNat]? with
  | some s => s.name
  | none => "task_status_" ++ toString i

def isFinal : Status → Bool
  | pending | running => false
  | succeeded | failed | cancelled => true

end Status

/-- Why a task has no result. -/
inductive TaskError where
  /-- The pool takes no more tasks. -/
  | closed
  | cancelled
  /-- The time is up that the task had. -/
  | expired
  | failed (message : String)
  /-- The task broke down instead of giving an answer. -/
  | crashed (message : String)
  /-- An error that has another for its cause. -/
  | wrapped (message : String) (cause : TaskError)
deriving DecidableEq, Repr

namespace TaskError

def message : TaskError → String
  | closed => "executor closed"
  | cancelled => "context canceled"
  | expired => "context deadline exceeded"
  | failed text => text
  | crashed text => "panic: " ++ text
  | wrapped text _ => text

/-- The error is that the context is over, or has that for its cause. -/
def isCancellation : TaskError → Bool
  | cancelled | expired => true
  | wrapped _ cause => cause.isCancellation
  | closed | failed _ | crashed _ => false

def status (e : TaskError) : Status := if e.isCancellation then .cancelled else .failed

end TaskError

/-- Why the context of a task is over. -/
inductive Cancellation where
  | cancelled
  | expired
deriving DecidableEq, Repr

def Cancellation.error : Cancellation → TaskError
  | cancelled => .cancelled
  | expired => .expired

end Lox.Pool
