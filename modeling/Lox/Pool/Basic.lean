import Lox.Pool.Task

/-!
A pool runs tasks: one after the other in the order of their submission, or several at a time in any
order. Each action is one step that nothing can come between, so that a run of a pool is a sequence
of actions, and every order of what callers and workers do is one such sequence.
-/

namespace Lox

/-- How many tasks are going on at a time. -/
inductive Pool.Discipline where
  /-- One, in the order of submission. -/
  | serial
  /-- As many as there are slots. -/
  | bounded (limit : Nat) (positive : 0 < limit)
deriving DecidableEq, Repr

/-- The worker that runs tasks one at a time. -/
inductive Pool.Worker where
  | awake
  /-- Waits to be woken. -/
  | asleep
  | busy (i : Nat)
  | done
deriving DecidableEq, Repr

/-- What a caller waits for. -/
inductive Pool.Errand where
  | flush
  | shutdown
deriving DecidableEq, Repr

inductive Pool.Patience where
  | awake
  | asleep
  | returned
deriving DecidableEq, Repr

/-- One who calls and waits. -/
structure Pool.Caller where
  errand : Pool.Errand
  /-- How many tasks had been submitted when it called. -/
  since : Nat
  state : Pool.Patience := .awake
deriving DecidableEq, Repr

structure Pool (α : Type) where
  discipline : Pool.Discipline
  tasks : List (Pool.Task α) := []
  closed : Bool := false
  callers : List Pool.Caller := []
  /-- The tasks that the worker has not taken yet. -/
  queue : List Nat := []
  /-- Whether the worker has a task that it has not let go. -/
  active : Bool := false
  /-- Whether the worker has come to its end. -/
  stopped : Bool := false
  worker : Pool.Worker := .awake
  /-- How many slots are in use. -/
  slots : Nat := 0
  /-- How many accepted tasks are not gone yet. -/
  pending : Nat := 0
  /-- The tasks that were taken, in that order. -/
  taken : List Nat := []
  /-- The tasks whose bodies were entered, in that order. -/
  ran : List Nat := []
  /-- The tasks that gave their slots away, in that order. -/
  left : List Nat := []

namespace Pool

variable {α : Type}

/-- At least one task can always go on. -/
def Discipline.ofLimit (n : Int) : Discipline :=
  .bounded (max 1 n.toNat) (Nat.lt_of_lt_of_le Nat.zero_lt_one (Nat.le_max_left ..))

/-- One at a time unless more are allowed. -/
def Discipline.ofParallelism (n : Int) : Discipline := if n ≤ 1 then .serial else .ofLimit n

/-! ### Actions -/

/-- What callers and workers do. -/
inductive Action (α : Type) where
  /-- The context of a task may be over from the first. -/
  | submit (body : Body α) (cancelled : Bool)
  /-- The context of a task is cancelled, by itself or from outside. When a context around many
  tasks is cancelled, that comes to each of them in turn. -/
  | cancel (i : Nat)
  /-- The time is up that the context of a task had. -/
  | expire (i : Nat)
  | release (i : Nat)
  | tell (i : Nat) (ending : Ending α)
  | close
  /-- Someone comes to wait until all is done. -/
  | flush
  /-- Someone closes the pool, to wait until its work is at its end. -/
  | shutdown
  /-- A caller looks whether it still has to wait. -/
  | look (k : Nat)
  /-- The worker waits for tasks. -/
  | doze
  /-- The worker comes to its end. -/
  | stop
  /-- The next task is taken by the worker, or a task takes a free slot. -/
  | take (i : Nat)
  /-- A task finds no free slot. -/
  | park (i : Nat)
  /-- A task gives up, since its context is over. -/
  | withdraw (i : Nat)
  | start (i : Nat)
  /-- The body is entered. -/
  | enter (i : Nat)
  /-- The body is passed over, since the context of the task is over. -/
  | skip (i : Nat)
  /-- The body comes to its end. -/
  | conclude (i : Nat)
  /-- The handle is finished. -/
  | finish (i : Nat)
  /-- The slot is free again, or the worker. -/
  | leave (i : Nat)
  /-- The slot goes to a task that waits for one. -/
  | hand (i j : Nat)
  /-- The task is not counted any more. -/
  | depart (i : Nat)

def task? (p : Pool α) (i : Nat) : Option (Task α) := p.tasks[i]?

def setTask (p : Pool α) (i : Nat) (t : Task α) : Pool α := { p with tasks := p.tasks.set i t }

/-- A task changes, if it is there and can. -/
def alter (p : Pool α) (i : Nat) (change : Task α → Option (Task α)) : Option (Pool α) :=
  (p.task? i).bind fun t => (change t).map (p.setTask i)

/-- A task goes from one phase to another. -/
def Task.move? (old new : Phase) (t : Task α) : Option (Task α) :=
  if t.phase = old then some { t with phase := new } else none

/-! ### Callers -/

def Worker.woken : Worker → Worker
  | asleep => awake
  | worker => worker

def Caller.woken (c : Caller) : Caller :=
  { c with state := match c.state with
    | .asleep => .awake
    | state => state }

/-- Whoever waits looks again. -/
def wake (p : Pool α) : Pool α :=
  { p with worker := p.worker.woken, callers := p.callers.map Caller.woken }

def close (p : Pool α) : Pool α := wake { p with closed := true }

/-- A new task; one that comes too late is finished at once. -/
def newTask (p : Pool α) (body : Body α) (cancelled : Bool) : Task α :=
  let t : Task α := { body, cancelled? := if cancelled then some .cancelled else none }
  if p.closed then
    { t.finish (.error .closed) with phase := .refused, result? := some (.error .closed) }
  else t

def submit (p : Pool α) (body : Body α) (cancelled : Bool) : Pool α :=
  let q := { p with tasks := p.tasks ++ [p.newTask body cancelled] }
  if p.closed then q
  else
    match p.discipline with
    | .serial => wake { q with queue := p.queue ++ [p.tasks.length] }
    | .bounded .. => { q with pending := p.pending + 1 }

/-- A new caller, who waits until what it came for is done. -/
def enlist (p : Pool α) (errand : Errand) : Pool α :=
  { p with callers := p.callers ++ [{ errand, since := p.tasks.length }] }

/-- What the caller came for is done. -/
def serves (p : Pool α) (errand : Errand) : Bool :=
  match p.discipline, errand with
  | .serial, .flush => p.queue.isEmpty && !p.active
  | .serial, .shutdown => p.stopped
  | .bounded .., _ => p.pending = 0

def look? (p : Pool α) (k : Nat) : Option (Pool α) :=
  p.callers[k]?.bind fun c =>
    let set (state : Patience) : Pool α := { p with callers := p.callers.set k { c with state } }
    if c.state = .awake then
      if p.serves c.errand then some (set .returned)
      else if p.discipline = .serial then some (set .asleep)
      else none
    else none

/-! ### Workers -/

/-- The worker takes the first task in the queue; of several slots any task takes one that is
free. -/
def take? (p : Pool α) (i : Nat) : Option (Pool α) :=
  match p.discipline with
  | .serial =>
    if p.worker = .awake ∧ p.queue.head? = some i then
      ({ p with queue := p.queue.tail, active := true, worker := .busy i, taken := p.taken ++ [i] }
        : Pool α).alter i (Task.move? .waiting .taken)
    else none
  | .bounded limit _ =>
    if p.slots < limit then
      ({ p with slots := p.slots + 1, taken := p.taken ++ [i] } : Pool α).alter i
        (Task.move? .waiting .taken)
    else none

/-- A task parks only if neither a slot nor the end of its context lets it go on. -/
def park? (p : Pool α) (i : Nat) : Option (Pool α) :=
  match p.discipline with
  | .serial => none
  | .bounded limit _ =>
    if limit ≤ p.slots then
      p.alter i fun t => if t.cancelled? = none then t.move? .waiting .parked else none
    else none

def withdraw? (p : Pool α) (i : Nat) : Option (Pool α) :=
  match p.discipline with
  | .serial => none
  | .bounded .. =>
    p.alter i fun t => if t.phase = .waiting then t.cancelled?.map t.withdraw else none

/-- A slot is free again only if no task is parked. -/
def leave? (p : Pool α) (i : Nat) : Option (Pool α) :=
  match p.discipline with
  | .serial =>
    (wake { p with active := false, worker := .awake, left := p.left ++ [i] }).alter i
      (Task.move? .finished .gone)
  | .bounded .. =>
    if p.tasks.all (·.phase ≠ .parked) then
      ({ p with slots := p.slots - 1, left := p.left ++ [i] } : Pool α).alter i
        (Task.move? .finished .leaving)
    else none

def hand? (p : Pool α) (i j : Nat) : Option (Pool α) :=
  match p.discipline with
  | .serial => none
  | .bounded .. =>
    (({ p with left := p.left ++ [i], taken := p.taken ++ [j] } : Pool α).alter i
      (Task.move? .finished .leaving)).bind (·.alter j (Task.move? .parked .taken))

def depart? (p : Pool α) (i : Nat) : Option (Pool α) :=
  match p.discipline with
  | .serial => none
  | .bounded .. =>
    ({ p with pending := p.pending - 1 } : Pool α).alter i (Task.move? .leaving .gone)

/-- The worker has nothing to do; `closed` says whether that stays so. -/
def idles (p : Pool α) (closed : Bool) : Bool :=
  p.discipline = .serial && p.worker = .awake && p.queue.isEmpty && p.closed = closed

/-- The pool after an action, if the action is possible. -/
def step? (p : Pool α) : Action α → Option (Pool α)
  | .submit body cancelled => some (p.submit body cancelled)
  | .cancel i => p.alter i fun t => some (t.cancel .cancelled)
  | .expire i => p.alter i fun t => some (t.cancel .expired)
  | .release i => p.alter i fun t => some { t with released := true }
  | .tell i ending => p.alter i fun t => some (t.tell ending)
  | .close => some p.close
  | .flush => some (p.enlist .flush)
  | .shutdown => some (p.close.enlist .shutdown)
  | .look k => p.look? k
  | .doze => if p.idles false then some { p with worker := .asleep } else none
  | .stop => if p.idles true then some (wake { p with stopped := true, worker := .done }) else none
  | .take i => p.take? i
  | .park i => p.park? i
  | .withdraw i => p.withdraw? i
  | .start i => p.alter i Task.start?
  | .enter i => ({ p with ran := p.ran ++ [i] } : Pool α).alter i Task.enter?
  | .skip i => p.alter i Task.skip?
  | .conclude i => p.alter i Task.conclude?
  | .finish i => p.alter i Task.finish?
  | .leave i => p.leave? i
  | .hand i j => p.hand? i j
  | .depart i => p.depart? i

/-- The pool after an action; one that is not possible changes nothing. -/
def act (p : Pool α) (a : Action α) : Pool α := (p.step? a).getD p

/-- The pool after some actions, one after the other. -/
def after (p : Pool α) (actions : List (Action α)) : Pool α := actions.foldl act p

end Pool

end Lox
