import Lox.Pool.Basic

/-!
One order among all that are possible: after each thing that a caller does, the workers do all they
can, the earliest task first.
-/

namespace Lox.Pool

variable {α : Type}

/-- How many steps a task in the phase has before it, at most. -/
def Phase.ahead : Phase → Nat
  | waiting => 8
  | parked => 7
  | taken => 6
  | started => 5
  | inBody => 4
  | returned => 3
  | withdrawn | finished => 2
  | leaving => 1
  | gone | refused => 0

/-- How many steps the workers have before them, at most, if no one does anything new. -/
def work (p : Pool α) : Nat :=
  p.tasks.foldr (fun t rest => t.phase.ahead + rest) 0 + if p.worker = .awake then 1 else 0

/-- What might be done next with a task. -/
def taskActions (p : Pool α) (i : Nat) : List (Action α) :=
  [.withdraw i, .take i, .park i, .start i, .skip i, .enter i, .conclude i, .finish i] ++
    (p.tasks.findIdx? (·.phase = .parked)).toList.map (.hand i) ++ [.leave i, .depart i]

/-- What the workers might do next. -/
def workerActions (p : Pool α) : List (Action α) :=
  (List.range p.tasks.length).flatMap p.taskActions ++ [.doze, .stop]

/-- The pool after the first thing that some worker can do. -/
def advance? (p : Pool α) : Option (Pool α) := p.workerActions.findSome? p.step?

def advance (p : Pool α) : Nat → Pool α
  | 0 => p
  | n + 1 =>
    match p.advance? with
    | some q => q.advance n
    | none => p

/-- The workers do all they can. -/
def settle (p : Pool α) : Pool α := p.advance p.work

/-- What a caller does, and what the workers do about it. -/
def settled (p : Pool α) (a : Action α) : Pool α := (p.act a).settle

/-- Lets go of everything that waits, and then cancels what is still going on. -/
def wind (p : Pool α) : Pool α :=
  let ids := List.range p.tasks.length
  let p := ids.foldl (fun p i => p.settled (.release i)) p
  let p := ids.foldl (fun p i => p.settled (.cancel i)) p
  p.settled .close

/-- Gives a list of bodies to a pool. -/
def submitAll (p : Pool α) (bodies : List (Body α)) : Pool α :=
  bodies.foldl (fun p body => p.act (.submit body false)) p

/-- The outcomes of all tasks, in the order of submission. -/
def outcomes (p : Pool α) : List (Option (Except TaskError α)) := p.tasks.map (·.outcome)

end Lox.Pool
