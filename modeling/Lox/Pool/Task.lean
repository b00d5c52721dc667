import Lox.Pool.Status

/-!
Tasks. A task is an activity with a handle: the activity goes from phase to phase, and the handle
shows the status, the error, and that the task is finished.
-/

namespace Lox

/-- What a task does once it runs. -/
inductive Pool.Body (α : Type) where
  | gives (value : α)
  | fails (message : String)
  | crashes (message : String)
  /-- Waits to be released. -/
  | waits (value : α)
  /-- Waits until its context is over. -/
  | waitsForCancel
  /-- Nothing is known of it: it ends when it is told to, and as it is told. -/
  | unknown

/-- How a body ends. -/
inductive Pool.Ending (α : Type) where
  | gives (value : α)
  | fails (error : Pool.TaskError)
  | crashes (message : String)

/-- How far a task is. -/
inductive Pool.Phase where
  /-- Accepted, and not taken yet. -/
  | waiting
  /-- It found no free slot, and gets one when another task gives its own away. -/
  | parked
  /-- Its context was over before it had a slot. -/
  | withdrawn
  | taken
  | started
  | inBody
  /-- The body is at its end, or was passed over. -/
  | returned
  /-- The handle is finished; the slot is still in use. -/
  | finished
  /-- It has no slot any more, but is still counted. -/
  | leaving
  | gone
  /-- It came when the pool was closed. -/
  | refused
deriving DecidableEq, Repr

structure Pool.Task (α : Type) where
  body : Pool.Body α
  phase : Pool.Phase := .waiting
  /-- Why the context is over, if it is. -/
  cancelled? : Option Pool.Cancellation := none
  released : Bool := false
  /-- How the body was told to end. -/
  told : Option (Pool.Ending α) := none
  /-- What the body gave, or what it was passed over for. -/
  result? : Option (Except Pool.TaskError α) := none
  status : Pool.Status := .pending
  error? : Option Pool.TaskError := none
  /-- How often it was announced that the task is finished. -/
  announced : Nat := 0

namespace Pool

variable {α : Type}

/-- A crash is an error like others. -/
def Ending.result : Ending α → Except TaskError α
  | gives value => .ok value
  | fails error => .error error
  | crashes message => .error (.crashed message)

/-- The status of a task that ends with the result. -/
def statusOf : Except TaskError α → Status
  | .ok _ => .succeeded
  | .error e => e.status

/-- The error of a task that ends with the result. -/
def errorOf : Except TaskError α → Option TaskError
  | .ok _ => none
  | .error e => some e

namespace Task

/-! ### The handle -/

/-- What became of the task, once it is finished. -/
def outcome (t : Task α) : Option (Except TaskError α) :=
  if t.status.isFinal then t.result? else none

def withdraw (t : Task α) (why : Cancellation) : Task α :=
  { t with phase := .withdrawn, result? := some (.error why.error) }

/-- The context is over for the first reason that comes up. A task that waits for a slot in vain
gives up at once. -/
def cancel (t : Task α) (why : Cancellation) : Task α :=
  match t.cancelled? with
  | some _ => t
  | none =>
    let t := { t with cancelled? := some why }
    if t.phase = .parked then t.withdraw why else t

/-- A task that has not started yet is running from now on. -/
def markStarted (t : Task α) : Task α :=
  { t with status := if t.status = .pending then .running else t.status }

/-- Sets status and error and announces the end, unless that was done before. -/
def finish (t : Task α) (result : Except TaskError α) : Task α :=
  if t.status.isFinal then t
  else
    { t with
      status := statusOf result
      error? := errorOf result
      cancelled? := t.cancelled?.or (some .cancelled)
      announced := t.announced + 1 }

/-! ### The activity -/

/-- How the body ends at this moment, if it is at its end. -/
def ending? (t : Task α) : Option (Ending α) :=
  match t.body with
  | .gives value => some (.gives value)
  | .fails message => some (.fails (.failed message))
  | .crashes message => some (.crashes message)
  | .waits value => if t.released then some (.gives value) else none
  | .waitsForCancel => t.cancelled?.map fun why => .fails why.error
  | .unknown => t.told

/-- A body is told only once how to end. -/
def tell (t : Task α) (ending : Ending α) : Task α := { t with told := t.told.or (some ending) }

def start? (t : Task α) : Option (Task α) :=
  if t.phase = .taken then some { t.markStarted with phase := .started } else none

/-- The body is entered if the context is not over just before. -/
def enter? (t : Task α) : Option (Task α) :=
  if t.phase = .started ∧ t.cancelled? = none then some { t with phase := .inBody } else none

/-- The body is passed over. -/
def skip? (t : Task α) : Option (Task α) :=
  if t.phase = .started then
    t.cancelled?.map fun why => { t with phase := .returned, result? := some (.error why.error) }
  else none

def conclude? (t : Task α) : Option (Task α) :=
  if t.phase = .inBody then
    t.ending?.map fun ending => { t with phase := .returned, result? := some ending.result }
  else none

/-- A task that has withdrawn has no slot to give back. -/
def finish? (t : Task α) : Option (Task α) :=
  match t.phase with
  | .returned => t.result?.map fun result => { t.finish result with phase := .finished }
  | .withdrawn => t.result?.map fun result => { t.finish result with phase := .leaving }
  | _ => none

end Task

end Pool

end Lox
