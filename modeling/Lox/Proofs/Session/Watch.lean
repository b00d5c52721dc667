import Lox.Native.Host
import Lox.Proofs.Run.Agreement
import Lox.Proofs.Session.Basic

/-!
Sessions under watch: programs run one after the other on the same globals, with natives lent in
between. At every use of a local name in any of them, the scopes of the program and the frames of
the run agree.
-/

namespace Lox

open Scope Source

/-- A session with the notes on all its runs. -/
structure Record where
  session : Session
  notes : Notes := {}

namespace Record

def state (r : Record) : Watched := ⟨r.session.world, r.notes⟩

/-- The record after a run that ended in a state. -/
def ended (r : Record) (t : Watched) : Record :=
  { session := { r.session with world := t.world, runs := r.session.runs + 1 }, notes := t.notes }

/-- Runs a checked program under watch. -/
def execute (r : Record) (p : Program) : Record :=
  match Watch.program r.session.machine r.session.runs p r.state with
  | .ok _ t => r.ended t
  | .error _ t => r.ended t

def act (r : Record) : Action → Record
  | .lend native => { r with session := r.session.lend native }
  | .run source =>
    match validate source with
    | .error _ => r
    | .ok p => r.execute p

def after (r : Record) (actions : List Action) : Record := actions.foldl act r

/-! ### Without the notes -/

/-- The notes decide nothing in a run. -/
theorem session_execute (r : Record) (p : Program) :
    (r.execute p).session = (r.session.execute p).1 := by
  have erased := (Watch.erases_program r.session.machine r.session.runs p).run r.state
  unfold execute Session.execute
  rw [show r.session.world = r.state.world from rfl, ← erased]
  cases Watch.program r.session.machine r.session.runs p r.state <;> rfl

/-- The notes decide nothing in an action. -/
theorem session_act (r : Record) (action : Action) :
    (r.act action).session = r.session.act action := by
  cases action with
  | lend native => rfl
  | run source =>
    unfold act Session.act Session.run
    dsimp only
    cases validate source with
    | error ds => rfl
    | ok p => exact session_execute r p

/-- At the start nothing is bound. -/
theorem own?_start (e : Nat) (name : String) : World.start.frames.own? e name = none := by
  rw [show World.start.frames = Frames.push {} none [] from rfl, Frames.own?_push]
  split
  · rfl
  · exact Frames.own?_eq_none _ (Nat.zero_le _) name

end Record

/-! ### Agreement -/

/-- The use has an address, and its name is not bound there. -/
def Use.Misses (u : Use) : Prop :=
  ∃ hops, u.ref.hops = some hops ∧ u.frames.frameAt? u.env hops u.ref.name.lexeme = none

def smallMachine : Machine := { maxDepth := 8, natives := Native.hostReplies 0, fuel := 40 }

end Lox
