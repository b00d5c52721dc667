import Lox.Frames
import Lox.Native.Reply

/-!
What a run changes, and what it is given. Every part of a run is a function on the world that gives
a value or stops; a stop keeps the world as it was at that moment.
-/

namespace Lox

structure World where
  frames : Frames Value
  /-- The fields of instances, at their numbers. -/
  objects : Array (Bindings Value) := #[]
  /-- The next identity of a function or class. -/
  stamp : Nat := 0
  /-- The lines printed so far. -/
  printed : Array String := #[]
  /-- How many calls are going on. -/
  depth : Nat := 0
  /-- How many natives were called so far. -/
  asked : Nat := 0

/-- Before the first run: no frame but the outermost, and nothing in it. -/
def World.start : World := { frames := Frames.push {} none [] }

/-- Where lines go: how many are taken, and why no more. -/
structure Sink where
  capacity : Option Nat := none
  reason : String := ""

def Sink.takes (sink : Sink) (printed : Nat) : Bool :=
  sink.capacity.all (printed < ·)

/-- What a run is given. -/
structure Machine where
  /-- How many calls may go on at once. -/
  maxDepth : Nat
  natives : Natives
  sink : Sink := {}
  /-- A bound on the nesting of evaluation and the rounds of loops, out of reach in practice. -/
  fuel : Nat := 1000000000000000000

/-- Why a run ends early: a fault at a token, or one that no call has placed yet. -/
inductive Stop where
  | raised (token : Token) (fault : Fault)
  | unplaced (fault : Fault)
  | outOfFuel

def Problem.stop (p : Problem) : Stop :=
  match p.token with
  | some token => .raised token p.fault
  | none => .unplaced p.fault

/-- Want of fuel is no problem that a host could be told of. -/
def Stop.problem? : Stop → Option Problem
  | raised token fault => some ⟨some token, fault⟩
  | unplaced fault => some ⟨none, fault⟩
  | outOfFuel => none

abbrev Run := EStateM Stop World

namespace Run

variable {α : Type}

def raise (token : Token) (fault : Fault) : Run α := throw (.raised token fault)

def fail (fault : Fault) : Run α := throw (.unplaced fault)

/-- A fault without a place gets one; the innermost place wins. -/
def Stop.placed (token : Token) : Stop → Stop
  | .unplaced fault => .raised token fault
  | stop => stop

def placedAt (token : Token) (act : Run α) : Run α := fun w =>
  match act w with
  | .ok a w => .ok a w
  | .error stop w => .error (Stop.placed token stop) w

/-- One call deeper, and back again however the call ends. -/
def deeper (act : Run α) : Run α := fun w =>
  match act { w with depth := w.depth + 1 } with
  | .ok a w => .ok a { w with depth := w.depth - 1 }
  | .error stop w => .error stop { w with depth := w.depth - 1 }

/-- A part of a run that goes on after a problem, and is told of it. -/
def attempt {σ : Type} (act : EStateM Stop σ α) : EStateM Stop σ (Except Problem α) := fun s =>
  match act s with
  | .ok a s => .ok (.ok a) s
  | .error stop s =>
    match stop.problem? with
    | some problem => .ok (.error problem) s
    | none => .error stop s

/-- How many natives were called before this one. -/
def ask : Run Nat := fun w => .ok w.asked { w with asked := w.asked + 1 }

/-- An identity that nothing has yet. -/
def fresh : Run Nat := fun w => .ok w.stamp { w with stamp := w.stamp + 1 }

def newFrame (parent : Nat) (bindings : Bindings Value) : Run Nat := fun w =>
  .ok w.frames.size { w with frames := w.frames.push (some parent) bindings }

def define (env : Nat) (name : String) (v : Value) : Run Unit := fun w =>
  .ok () { w with frames := w.frames.define env name v }

def newObject : Run Nat := fun w =>
  .ok w.objects.size { w with objects := w.objects.push [] }

def field? (id : Nat) (name : String) : Run (Option Value) := fun w =>
  .ok (w.objects[id]?.bind (Bindings.get? name)) w

def setField (id : Nat) (name : String) (v : Value) : Run Unit := fun w =>
  .ok () { w with objects := w.objects.modify id (Bindings.insert name v) }

/-- Prints a line, if the sink takes it. -/
def write (sink : Sink) (line : String) : Run Unit := fun w =>
  if sink.takes w.printed.size then .ok () { w with printed := w.printed.push line }
  else .error (.unplaced (.output sink.reason)) w

end Run

end Lox
