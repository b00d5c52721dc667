import Lox.Proofs.Run.Upkeep
import Lox.Proofs.Session.Watch

/-!
The graph of frames, functions and classes along a session. Whatever programs run in it, and however
they end, at every moment every frame lies inside an older one and every class inherits from an
older one, so every lookup of a name, a distance or a method ends; even where names of classes are
bound anew, and classes seem to inherit from each other.
-/

namespace Lox

open Source

/-! ### The tokens of programs -/

/-- The token is one of a program that the action runs. -/
def Action.Brings : Action → Token → Prop
  | .lend _, _ => False
  | .run source, t => (∃ p, validate source = .ok p) ∧ t ∈ (scan source).tokens

/-- A program that passes the checks is drawn from the tokens of its text. -/
theorem drawn_of_validate {S : Token → Prop} {source : String} {p : Program}
    (valid : validate source = .ok p) (known : ∀ t, (Action.run source).Brings t → S t) :
    Stmt.AllDrawn S p.body := by
  obtain ⟨q, accepted, -, rfl⟩ := validate_eq_ok_iff.mp valid
  obtain ⟨-, derivation⟩ := Grammar.parseSource_eq_ok_iff.mp accepted
  refine Scope.drawn_resolve (derivation.isDrawn fun t ht =>
    ⟨known t ⟨⟨_, valid⟩, ?_⟩, spelled_of_mem_tokensAt ht⟩)
  rw [scan, tokensFrom_eq]
  exact List.mem_append_left _ ht

/-! ### Sessions with all their moments -/

/-- A session and the moments that it has been through, the last one first. -/
structure Chronicle where
  session : Session
  past : List Moment := []

namespace Chronicle

/-- All moments, with the one that the session is at. -/
def moments (c : Chronicle) : List Moment := { going := [], world := c.session.world } :: c.past

def state (c : Chronicle) : Traced := { world := c.session.world, moments := c.moments }

/-- The chronicle after a run that ended in a state. -/
def ended (c : Chronicle) (t : Traced) : Chronicle :=
  { session := { c.session with world := t.world, runs := c.session.runs + 1 }, past := t.moments }

def act (c : Chronicle) : Action → Chronicle
  | .lend native => { session := c.session.lend native, past := c.moments }
  | .run source =>
    match validate source with
    | .error _ => c
    | .ok p => c.ended (Trace.final (Trace.program c.session.machine p c.state))

def after (c : Chronicle) (actions : List Action) : Chronicle := actions.foldl act c

/-- The chronicle is one of the session. -/
theorem session_act (c : Chronicle) (action : Action) :
    (c.act action).session = c.session.act action := by
  cases action with
  | lend native => rfl
  | run source =>
    unfold act Session.act Session.run
    dsimp only
    cases validate source with
    | error ds => rfl
    | ok p =>
      have erased := (Trace.erases_program c.session.machine p).run c.state
      dsimp only
      unfold Session.execute
      rw [show c.session.world = c.state.world from rfl, ← erased]
      cases Trace.program c.session.machine p c.state <;> rfl

section Founded

variable {S : Token → Prop} {c : Chronicle}

structure Founded (S : Token → Prop) (c : Chronicle) : Prop where
  moments : ∀ moment ∈ c.moments, moment.Founded S
  ordered : Ordered c.moments

/-- The world of the session is in order. -/
theorem Founded.world (founded : c.Founded S) : c.session.world.Founded S :=
  (founded.moments _ List.mem_cons_self).world

/-- A chronicle goes on from a state of a run. -/
theorem Founded.step {t : Traced} (h : t.Founded S) (session : Session)
    (world : session.world = t.world) : Founded S { session, past := t.moments } := by
  refine ⟨List.forall_mem_cons.mpr ⟨⟨?_, by simp⟩, h.moments⟩,
    List.pairwise_cons.mpr ⟨fun moment mem => ?_, h.ordered⟩⟩
  · exact world ▸ h.world
  · exact world ▸ h.growing moment mem

/-- What was noted so far is in order. -/
theorem Founded.state (founded : c.Founded S) : c.state.Founded S :=
  ⟨founded.world, founded.moments,
    List.forall_mem_cons.mpr ⟨.refl _, (List.pairwise_cons.mp founded.ordered).1⟩, founded.ordered⟩

/-- Each action leaves the session in order, if the tokens that it brings are known. -/
theorem Founded.act (founded : c.Founded S)
    {action : Action} (known : ∀ t, action.Brings t → S t) : (c.act action).Founded S := by
  cases action with
  -- a native refers to nothing
  | lend native =>
    have plain : (Value.native native).Founded S c.session.world := Value.founded_of_isPlain rfl
    have lent : Run.Upheld S True c.session.world
        (Run.define Frames.root native.name (.native native)) fun _ _ => True :=
      Run.upheld_define founded.world plain (.inl rfl)
    obtain ⟨grows, world, -⟩ := lent.ok _ _ rfl
    have before := founded.state
    exact .step (t := { world := (c.session.lend native).world, moments := c.moments })
      ⟨world, before.moments, fun moment mem => (before.growing moment mem).trans grows,
        before.ordered⟩ _ rfl
  | run source =>
    unfold Chronicle.act
    dsimp only
    split
    · exact founded
    · next p valid =>
      have safe := Trace.upheld_program c.session.machine founded.state
        (drawn_of_validate valid known)
      -- also a run that fails leaves a graph without cycles
      cases done : Trace.program c.session.machine p c.state with
      | ok a t =>
        obtain ⟨-, h, -⟩ := safe.ok a t done
        exact .step h _ rfl
      | error stop t =>
        obtain ⟨-, h, -⟩ := safe.error stop t done
        exact .step h _ rfl

/-- All actions leave the session in order. -/
theorem Founded.after (founded : c.Founded S)
    {actions : List Action} (known : ∀ action ∈ actions, ∀ t, action.Brings t → S t) :
    (c.after actions).Founded S := by
  induction actions generalizing c with
  | nil => exact founded
  | cons action rest ih =>
    obtain ⟨here, later⟩ := List.forall_mem_cons.mp known
    exact ih (c := c.act action) (founded.act here) later

end Founded

end Chronicle

/-! ### No circles -/

/-- Two classes, one of which inherits from the other. -/
def heirs : String := "class A \x7b\x7d class B < A \x7b\x7d"

end Lox
