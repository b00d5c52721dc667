import Lox.Proofs.Run.Balance
import Lox.Proofs.Session.Watch

/-!
The globals along a session. Whatever is run in it, and however it ends, at every time the globals
are the natives that were lent and what was declared directly at the top level of checked programs
by statements that have been completed. Nothing else binds a global, and nothing takes one back.
-/

namespace Lox

/-- The name of the native that is lent. -/
def Action.lent? : Action → Option String
  | .lend native => some native.name
  | .run _ => none

/-- The name is declared directly at the top level of the program that is run, if that is one. -/
def Action.Declares : Action → String → Prop
  | .lend _, _ => False
  | .run source, name => ∃ p, validate source = .ok p ∧ ∃ s ∈ p.body, s.declared? = some name

/-- A session with the ledger of all that was done in it. -/
structure Audit where
  session : Session
  lent : List String := []
  completed : List String := []
  /-- The last one first. -/
  entries : List Entry := []

namespace Audit

def book (a : Audit) : Book :=
  { world := a.session.world, lent := a.lent, completed := a.completed, entries := a.entries }

/-- The audit after a run that ended with a ledger. -/
def ended (a : Audit) (t : Book) : Audit :=
  { session := { a.session with world := t.world, runs := a.session.runs + 1 }, lent := t.lent,
    completed := t.completed, entries := t.entries }

def act (a : Audit) : Action → Audit
  | .lend native =>
    let session := a.session.lend native
    { session, lent := a.lent ++ [native.name], completed := a.completed,
      entries := (a.book.enter (.lend native.name) session.world).entries }
  | .run source =>
    match validate source with
    | .error _ => a
    | .ok p => a.ended (Ledger.final (Ledger.program a.session.machine p a.book))

def after (a : Audit) (actions : List Action) : Audit := actions.foldl act a

/-- Everything is accounted for, once so many actions are done. -/
structure Balanced (a : Audit) (done : List Action) : Prop where
  lent : a.lent = done.filterMap Action.lent?
  completed : ∀ x ∈ a.completed, ∃ action ∈ done, action.Declares x
  /-- The globals are what was lent and what completed top-level statements declared. -/
  globals : ∀ x, x ∈ a.session.world.frames.keys Frames.root ↔ x ∈ a.lent ∨ x ∈ a.completed
  /-- So they were before every step, and no step did more to them than it may. -/
  entries : ∀ e ∈ a.entries, e.Sound
  earlier : ∀ e ∈ a.entries, e.lent <+: a.lent ∧ e.completed <+: a.completed
  /-- A name that was global at any time still is. -/
  kept : ∀ e ∈ a.entries, ∀ x ∈ e.before.keys Frames.root,
    x ∈ a.session.world.frames.keys Frames.root
  /-- Between the steps nothing was done to any frame. -/
  chained : Chained World.start.frames a.entries a.session.world.frames

/-! ### One action -/

variable {a : Audit}

/-- The audit with all that the actions so far explain. -/
structure Explained (a : Audit) (done : List Action) : Prop where
  sound : a.book.Sound
  lent : a.lent = done.filterMap Action.lent?
  completed : ∀ x ∈ a.completed, ∃ action ∈ done, action.Declares x

/-- What explains all globals balances. -/
theorem Explained.balanced {done : List Action} (h : a.Explained done) : a.Balanced done where
  lent := h.lent
  completed := h.completed
  globals := h.sound.globals
  entries := h.sound.entries
  earlier := h.sound.earlier
  kept _ mem _ known := h.sound.chained.grows h.sound.entries mem known
  chained := h.sound.chained

/-- At the start the only globals are those that were lent. -/
theorem explained_start (m : Machine) : Explained { session := { machine := m } } [] where
  sound :=
    { rooted := Nat.zero_lt_one
      entries := by simp [book]
      earlier := by simp [book]
      chained := rfl
      globals x := by
        rw [Frames.mem_keys_iff]
        simp [book, Record.own?_start] }
  lent := rfl
  completed := by simp

/-- What was explained before is explained by more actions too. -/
theorem Explained.declares {done : List Action} (h : a.Explained done) (action : Action) :
    ∀ x ∈ a.completed, ∃ action' ∈ done ++ [action], action'.Declares x := by
  intro x mem
  obtain ⟨action', before, declares⟩ := h.completed x mem
  exact ⟨action', List.mem_append_left _ before, declares⟩

/-- A native that is lent explains its name. -/
theorem Explained.lend {done : List Action} (h : a.Explained done) (native : Native) :
    (a.act (.lend native)).Explained (done ++ [.lend native]) := by
  have rooted : Frames.root <
      (a.session.world.frames.define Frames.root native.name (.native native)).size := by
    rw [Frames.size_define]
    exact h.sound.rooted
  have binds := Frames.bindsGlobal_define h.sound.rooted native.name (.native native)
  refine ⟨?_, ?_, h.declares _⟩
  · refine h.sound.bind (.lend native.name) (w := (a.session.lend native).world) rfl rooted binds
      (List.prefix_append ..) List.prefix_rfl fun x => ?_
    change x ∈ a.lent ++ [native.name] ∨ x ∈ a.completed ↔
      (x ∈ a.lent ∨ x ∈ a.completed) ∨ x = native.name
    rw [List.mem_append, List.mem_singleton, or_right_comm]
  · rw [List.filterMap_append, ← h.lent]
    rfl

/-- A run explains the names that its completed statements declare. -/
theorem Explained.run {done : List Action} (h : a.Explained done) (source : String) :
    (a.act (.run source)).Explained (done ++ [.run source]) := by
  have same : (done ++ [Action.run source]).filterMap Action.lent? =
      done.filterMap Action.lent? := by
    rw [List.filterMap_append]
    exact List.append_nil _
  unfold act
  dsimp only
  cases valid : validate source with
  | error ds => exact ⟨h.sound, h.lent.trans same.symm, h.declares _⟩
  | ok p =>
    obtain ⟨-, ran⟩ := Ledger.ran_program a.session.machine (addressed_of_validate valid []) h.sound
    obtain ⟨carried, part, completed, -⟩ := ran.completed
    refine ⟨ran.sound, (ran.lent.trans h.lent).trans same.symm, fun x mem => ?_⟩
    have mem : x ∈ a.completed ++ carried.filterMap Stmt.declared? := completed ▸ mem
    rcases List.mem_append.mp mem with before | now
    · exact h.declares _ x before
    · obtain ⟨stmt, stmtMem, declared⟩ := List.mem_filterMap.mp now
      exact ⟨.run source, by simp, p, valid, stmt, part.subset stmtMem, declared⟩

/-- Each action explains what it makes global. -/
theorem Explained.act {done : List Action} (h : a.Explained done) (action : Action) :
    (a.act action).Explained (done ++ [action]) := by
  cases action with
  | lend native => exact h.lend native
  | run source => exact h.run source

/-- Without the ledger the audit is the session. -/
theorem session_act (sound : a.book.Sound) (action : Action) :
    (a.act action).session = a.session.act action := by
  cases action with
  | lend native => rfl
  | run source =>
    unfold act Session.act Session.run
    dsimp only
    cases valid : validate source with
    | error ds => rfl
    | ok p =>
      obtain ⟨erased, -⟩ :=
        Ledger.ran_program a.session.machine (addressed_of_validate valid []) sound
      dsimp only
      unfold Session.execute
      rw [show a.session.world = a.book.world from rfl, ← erased]
      cases Ledger.program a.session.machine p a.book <;> rfl

/-! ### All actions -/

/-- All actions explain what they make global, and the session is the session. -/
theorem Explained.after {done : List Action} (h : a.Explained done) (actions : List Action) :
    (a.after actions).session = a.session.after actions ∧
      (a.after actions).Explained (done ++ actions) := by
  induction actions generalizing a done with
  | nil =>
    rw [List.append_nil]
    exact ⟨rfl, h⟩
  | cons action rest ih =>
    obtain ⟨same, explained⟩ := ih (h.act action)
    rw [session_act h.sound] at same
    rw [List.append_cons]
    exact ⟨same, explained⟩

end Audit

/-- Whatever is done in a session, the audit is of that session, and it accounts for every name that
is global at any time: nothing but a native that is lent, or a declaration directly at the top level
of a checked program, binds a global. -/
theorem globals_accounted (m : Machine) (actions : List Action) :
    (Audit.after { session := { machine := m } } actions).session =
        Session.after { machine := m } actions ∧
      (Audit.after { session := { machine := m } } actions).Balanced actions := by
  obtain ⟨same, explained⟩ := (Audit.explained_start m).after actions
  exact ⟨same, explained.balanced⟩

/-- In `{ var a; } var b;` only `b` is declared at the top level. -/
example :
    let name (lexeme : String) : Token := { kind := .identifier, lexeme, line := 1 }
    let p : Program := ⟨[.block [.var (name "a") none], .var (name "b") none]⟩
    let t := Ledger.final (Ledger.program smallMachine p { world := .start })
    t.completed = ["b"] ∧ (t.world.frames.own? Frames.root "a").isNone ∧
      (t.world.frames.own? 1 "a").isSome := by
  decide +kernel

/-- A program that comes to its end has made global whatever it declares directly at its top
level. -/
theorem global_of_run (m : Machine) (actions : List Action) {source : String} {p : Program}
    (valid : validate source = .ok p) {w : World}
    (finished : Run.program m p (Session.after { machine := m } actions).world = .ok () w)
    {stmt : Stmt} (mem : stmt ∈ p.body) {x : String} (declares : stmt.declared? = some x) :
    x ∈ w.frames.keys Frames.root := by
  obtain ⟨same, explained⟩ := (Audit.explained_start m).after actions
  obtain ⟨erased, ran⟩ := Ledger.ran_program m (addressed_of_validate valid []) explained.sound
  obtain ⟨carried, -, completed, whole⟩ := ran.completed
  rw [show (Audit.book _).world = _ from congrArg Session.world same, finished] at erased
  cases run : Ledger.program m p (Audit.book _) with
  | error stop t =>
    rw [run] at erased
    cases erased
  | ok a t =>
    rw [run] at erased ran completed
    cases erased
    have listed : x ∈ carried.filterMap Stmt.declared? :=
      List.mem_filterMap.mpr ⟨stmt, whole t run ▸ mem, declares⟩
    refine (ran.sound.globals x).mpr (.inr ?_)
    rw [completed]
    exact List.mem_append_right _ listed

end Lox
