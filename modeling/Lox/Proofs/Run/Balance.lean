import Lox.Proofs.Native.Perform
import Lox.Proofs.Run.Ledger

/-!
The ledger balances. Before every step the globals are the names that were lent and those that
completed top-level statements declared; no step does more to the globals than what it is for
allows; and each step begins with the frames that the one before left. So nothing but a declaration
directly at the top level binds a global.
-/

namespace Lox

open Scope

/-! ### What steps may do -/

/-- A step that opens no name leaves the names of the globals as they are. -/
theorem Cause.Allows.names {cause : Cause} {before after : Frames Value}
    (h : cause.Allows before after) (closed : cause.opens? = none) :
    before.SameGlobalNames after := by
  cases cause with
  | lend name => cases closed
  | declaration direct name =>
    cases direct with
    | false => exact Frames.SameGlobals.names h
    | true => cases closed
  | assignment => exact h
  | block | parameters | receiver | other => exact Frames.SameGlobals.names h

/-- A step that opens a name binds it. -/
theorem Cause.Allows.binds {cause : Cause} {before after : Frames Value}
    (h : cause.Allows before after) {name : String} (opened : cause.opens? = some name) :
    before.BindsGlobal name after := by
  cases cause with
  | lend other =>
    cases opened
    exact h
  | declaration direct other =>
    cases direct with
    | false => cases opened
    | true =>
      cases opened
      exact h
  | _ => cases opened

/-- Whatever a step is for, it may leave the globals alone, unless it opens a name. -/
theorem Cause.allows_of_sameGlobals {cause : Cause} (closed : cause.opens? = none)
    {before after : Frames Value} (h : before.SameGlobals after) : cause.Allows before after := by
  cases cause with
  | lend name => cases closed
  | declaration direct name =>
    cases direct with
    | false => exact h
    | true => cases closed
  | assignment => exact h.names
  | block | parameters | receiver | other => exact h

/-! ### Sound ledgers -/

structure Entry.Sound (e : Entry) : Prop where
  globals : ∀ x, x ∈ e.before.keys Frames.root ↔ x ∈ e.lent ∨ x ∈ e.completed
  allowed : e.cause.Allows e.before e.after

/-- Each entry begins with the frames that the one before it left; the last one comes first. -/
def Chained (start : Frames Value) : List Entry → Frames Value → Prop
  | [], last => last = start
  | e :: earlier, last => e.after = last ∧ Chained start earlier e.before

namespace Book

/-- All that was done is in the ledger, and none of it more than allowed. -/
structure Recorded (s : Book) : Prop where
  rooted : Frames.root < s.world.frames.size
  entries : ∀ e ∈ s.entries, e.Sound
  earlier : ∀ e ∈ s.entries, e.lent <+: s.lent ∧ e.completed <+: s.completed
  chained : Chained World.start.frames s.entries s.world.frames

/-- The globals are what the ledger says. -/
structure Sound (s : Book) : Prop extends s.Recorded where
  globals : ∀ x, x ∈ s.world.frames.keys Frames.root ↔ x ∈ s.lent ∨ x ∈ s.completed

/-- The ledger is still sound, and no name was lent and no top-level statement completed. -/
structure Passes (s t : Book) : Prop where
  sound : t.Sound
  lent : t.lent = s.lent
  completed : t.completed = s.completed

variable {s t u : Book}

/-- To do nothing passes. -/
theorem Sound.passes (h : s.Sound) : s.Passes s := ⟨h, rfl, rfl⟩

/-- What passes twice passes. -/
theorem Passes.trans (h : s.Passes t) (h' : t.Passes u) : s.Passes u :=
  ⟨h'.sound, h'.lent.trans h.lent, h'.completed.trans h.completed⟩

/-- How many calls are going on makes no difference. -/
theorem Sound.atDepth (h : s.Sound) (depth : Nat) :
    s.Passes { s with world := { s.world with depth } } :=
  ⟨⟨⟨h.rooted, h.entries, h.earlier, h.chained⟩, h.globals⟩, rfl, rfl⟩

/-- A step that does no more than it may is entered with the globals as they were. -/
theorem Sound.enter (h : s.Sound) {cause : Cause} {w : World}
    (rooted : Frames.root < w.frames.size) (allowed : cause.Allows s.world.frames w.frames) :
    (s.enter cause w).Recorded where
  rooted := rooted
  entries := List.forall_mem_cons.mpr ⟨⟨h.globals, allowed⟩, h.entries⟩
  earlier := List.forall_mem_cons.mpr ⟨⟨List.prefix_rfl, List.prefix_rfl⟩, h.earlier⟩
  chained := ⟨rfl, h.chained⟩

/-- A step that binds a name among the globals leaves the ledger sound once the ledger names it. -/
theorem Sound.bind (h : s.Sound) (cause : Cause) {name : String}
    (opened : cause.opens? = some name) {w : World} (rooted : Frames.root < w.frames.size)
    (allowed : cause.Allows s.world.frames w.frames) {lent completed : List String}
    (moreLent : s.lent <+: lent) (moreCompleted : s.completed <+: completed)
    (named : ∀ x, x ∈ lent ∨ x ∈ completed ↔ (x ∈ s.lent ∨ x ∈ s.completed) ∨ x = name) :
    Sound { s.enter cause w with lent, completed } where
  rooted := rooted
  entries := (h.enter rooted allowed).entries
  earlier e mem :=
    have before := (h.enter rooted allowed).earlier e mem
    ⟨before.1.trans moreLent, before.2.trans moreCompleted⟩
  chained := ⟨rfl, h.chained⟩
  globals x := by
    rw [named x]
    exact (allowed.binds opened).mem_keys_iff.trans (or_congr_left (h.globals x))

/-- How a top-level statement ends. Where it comes to its end, the ledger is sound once the
statement counts as completed; where it stops, the ledger is sound as it is. -/
def Ends {α : Type} (s : Book) (stmt : Stmt) : EStateM.Result Stop Book α → Prop
  | .ok _ t => (t.complete stmt).Sound ∧ t.lent = s.lent ∧ t.completed = s.completed
  | .error _ t => s.Passes t

/-- What passes before a statement does not count for how the statement ends. -/
theorem Passes.ends (h : s.Passes t) {α : Type} {stmt : Stmt}
    {result : EStateM.Result Stop Book α} (ends : t.Ends stmt result) : s.Ends stmt result := by
  cases result with
  | ok a u => exact ⟨ends.1, ends.2.1.trans h.lent, ends.2.2.trans h.completed⟩
  | error stop u => exact h.trans ends

/-- How a program ends: the ledger is sound, no name was lent, and the statements of a first part of
the program were completed, and all of them if the program came to its end. -/
structure Ran (s : Book) (body : List Stmt) (result : EStateM.Result Stop Book Unit) :
    Prop where
  sound : (Ledger.final result).Sound
  lent : (Ledger.final result).lent = s.lent
  completed : ∃ carried, carried <+: body ∧
    (Ledger.final result).completed = s.completed ++ carried.filterMap Stmt.declared? ∧
      ∀ t, result = .ok () t → carried = body

end Book

namespace Ledger

variable {α β : Type}

/-- Part of a run that passes: without the ledger it is a part of the plain run, and the ledger
stays sound. -/
structure Follows (x : Ledger α) (y : Run α) : Prop where
  erases : ∀ s : Book, s.Sound → forget (x s) = y s.world
  passes : ∀ s : Book, s.Sound → s.Passes (final (x s))

section Follows

variable {x : Ledger α} {y : Run α} {f : α → Ledger β} {g : α → Run β}

theorem follows_pure (a : α) : Follows (pure a) (pure a) := ⟨fun _ _ => rfl, fun _ => (·.passes)⟩

theorem follows_throw (stop : Stop) : Follows (throw stop : Ledger α) (throw stop) :=
  ⟨fun _ _ => rfl, fun _ => (·.passes)⟩

/-- To look at the ledger is to look at the world in it. -/
theorem follows_get {f : Book → Ledger α} {g : World → Run α}
    (h : ∀ s, Follows (f s) (g s.world)) : Follows (get >>= f) (get >>= g) :=
  ⟨fun s sound => (h s).erases s sound, fun s sound => (h s).passes s sound⟩

/-- Parts that pass do so one after the other, for the ledger is sound in between. -/
theorem Follows.bind (h : Follows x y) (hf : ∀ a, Follows (f a) (g a)) :
    Follows (x >>= f) (y >>= g) := by
  have goes (s : Book) (sound : s.Sound) :
      forget ((x >>= f) s) = (y >>= g) s.world ∧ s.Passes (final ((x >>= f) s)) := by
    have passes := h.passes s sound
    rw [Run.bind_apply, Run.bind_apply, ← h.erases s sound]
    cases run : x s with
    | error stop t =>
      rw [run] at passes
      exact ⟨rfl, passes⟩
    | ok a t =>
      rw [run] at passes
      exact ⟨(hf a).erases t passes.sound, passes.trans ((hf a).passes t passes.sound)⟩
  exact ⟨fun s sound => (goes s sound).1, fun s sound => (goes s sound).2⟩

theorem Follows.discard (h : Follows x y) : Follows (discard x) (discard y) := by
  have opened := h.bind fun _ => follows_pure ()
  refine ⟨fun s sound => ?_, fun s sound => ?_⟩
  · rw [Run.discard_apply, Run.discard_apply]
    exact opened.erases s sound
  · rw [Run.discard_apply]
    exact opened.passes s sound

/-- To place a fault enters nothing. -/
theorem Follows.placedAt (h : Follows x y) (token : Token) :
    Follows (placedAt token x) (Run.placedAt token y) := by
  refine ⟨fun s sound => ?_, fun s sound => ?_⟩
  · unfold Ledger.placedAt Run.placedAt
    rw [← h.erases s sound]
    cases x s <;> rfl
  · have passes := h.passes s sound
    unfold Ledger.placedAt
    cases run : x s with
    | ok a t | error stop t =>
      rw [run] at passes
      exact passes

/-- A part that is attempted passes, whatever problem it meets. -/
theorem Follows.attempt (h : Follows x y) : Follows (Run.attempt x) (Run.attempt y) := by
  have goes (s : Book) (sound : s.Sound) : forget (Run.attempt x s) = Run.attempt y s.world ∧
      s.Passes (final (Run.attempt x s)) := by
    have passes := h.passes s sound
    rw [Run.attempt_apply, Run.attempt_apply, ← h.erases s sound]
    cases run : x s with
    | ok a t =>
      rw [run] at passes
      exact ⟨rfl, passes⟩
    | error stop t =>
      rw [run] at passes
      unfold forget
      dsimp only
      cases stop.problem? <;> exact ⟨rfl, passes⟩
  exact ⟨fun s sound => (goes s sound).1, fun s sound => (goes s sound).2⟩

/-- The count of calls is no business of the ledger. -/
theorem Follows.deeper (h : Follows x y) : Follows (deeper x) (Run.deeper y) := by
  have goes (s : Book) (sound : s.Sound) : forget (Ledger.deeper x s) = Run.deeper y s.world ∧
      s.Passes (final (Ledger.deeper x s)) := by
    have down := sound.atDepth (s.world.depth + 1)
    have passes := down.trans (h.passes _ down.sound)
    unfold Ledger.deeper Run.deeper
    rw [← h.erases _ down.sound]
    cases run : x { s with world := { s.world with depth := s.world.depth + 1 } } with
    | ok a t | error stop t =>
      rw [run] at passes
      exact ⟨rfl, passes.trans (passes.sound.atDepth (t.world.depth - 1))⟩
  exact ⟨fun s sound => (goes s sound).1, fun s sound => (goes s sound).2⟩

end Follows

/-! ### Steps -/

/-- Without the ledger a step is what it is a step of. -/
theorem forget_step (cause : Cause) (act : Run α) (s : Book) :
    forget (step cause act s) = act s.world := by
  unfold step
  cases act s.world <;> rfl

/-- A step is entered, however it ends. -/
theorem final_step (cause : Cause) (act : Run α) (s : Book) :
    final (step cause act s) = s.enter cause (Run.final (act s.world)) := by
  unfold step
  cases act s.world <;> rfl

/-- A step passes if it opens no name and does no more than it may. -/
theorem follows_step {cause : Cause} (closed : cause.opens? = none) {act : Run α}
    (h : ∀ w : World, Frames.root < w.frames.size →
      Frames.root < (Run.final (act w)).frames.size ∧
        cause.Allows w.frames (Run.final (act w)).frames) : Follows (step cause act) act := by
  refine ⟨fun s _ => forget_step cause act s, fun s sound => ?_⟩
  obtain ⟨rooted, allowed⟩ := h s.world sound.rooted
  rw [final_step]
  refine ⟨⟨sound.enter rooted allowed, fun x => ?_⟩, rfl, rfl⟩
  exact (allowed.names closed x).trans (sound.globals x)

/-- Whatever leaves the globals alone passes as a step that opens no name. -/
theorem follows_leaving {cause : Cause} (closed : cause.opens? = none) {act : Run α}
    (h : act.LeavesGlobals) : Follows (step cause act) act :=
  follows_step closed fun w rooted =>
    ⟨h.rooted w rooted, Cause.allows_of_sameGlobals closed (h.same w rooted)⟩

/-- An assignment gives a name that is bound another value, or stops. -/
theorem follows_assignRef (env : Nat) (ref : Reference) (v : Value) :
    Follows (step .assignment (Run.assignRef env ref v)) (Run.assignRef env ref v) := by
  refine follows_step rfl fun w rooted => ?_
  rcases Run.frames_assignRef env ref v w with same | ⟨e, bound, changed⟩
  · rw [same]
    exact ⟨rooted, fun _ => .rfl⟩
  · rw [changed, Frames.size_define]
    exact ⟨rooted, Frames.sameGlobalNames_define bound v⟩

/-- What goes on in a new frame does not go on among the globals. -/
theorem follows_newFrame {cause : Cause} (closed : cause.opens? = none) (parent : Nat)
    (bindings : Bindings Value) {f : Nat → Ledger β} {g : Nat → Run β}
    (h : ∀ e ≠ Frames.root, Follows (f e) (g e)) :
    Follows (step cause (Run.newFrame parent bindings) >>= f)
      (Run.newFrame parent bindings >>= g) := by
  have made := follows_leaving closed (Run.leavesGlobals_newFrame parent bindings)
  refine ⟨fun s sound => ?_, fun s sound => ?_⟩
  -- The new frame has the number of frames before, and one frame is there already.
  all_goals
    have inner := h s.world.frames.size (Nat.ne_of_gt sound.rooted)
    have passes := made.passes s sound
  · exact inner.erases _ passes.sound
  · exact passes.trans (inner.passes _ passes.sound)

/-! ### Parts of evaluation -/

/-- A list of statements passes if each of them does. -/
theorem follows_runAll {exec : Stmt → Ledger Run.Completion} {exec' : Stmt → Run Run.Completion}
    (h : ∀ s, Follows (exec s) (exec' s)) (body : List Stmt) :
    Follows (runAll exec body) (Run.runAll exec' body) := by
  induction body with
  | nil => exact follows_pure _
  | cons s rest ih =>
    refine (h s).bind fun completion => ?_
    cases completion with
    | returned v => exact follows_pure _
    | normal => exact ih

/-- A body is carried out in a frame of its own, which is not the outermost. -/
theorem follows_callClosure {body : Nat → List Stmt → Ledger Run.Completion}
    {body' : Nat → List Stmt → Run Run.Completion}
    (h : ∀ env ≠ Frames.root, ∀ ss, Follows (body env ss) (body' env ss)) (f : Closure)
    (args : List Value) : Follows (callClosure body f args) (Run.callClosure body' f args) := by
  unfold callClosure Run.callClosure
  split
  · exact follows_step rfl fun w rooted => ⟨rooted, fun _ => rfl⟩
  · refine follows_newFrame rfl _ _ fun env inner => ?_
    refine (h env inner f.body).bind fun completion => ?_
    exact follows_leaving rfl (Run.leavesGlobals.answer f completion)

/-- To make an instance touches no global, apart from what its initializer does. -/
theorem follows_construct {callInit : Closure → List Value → Ledger Value}
    {callInit' : Closure → List Value → Run Value}
    (h : ∀ f args, Follows (callInit f args) (callInit' f args)) (c : Class)
    (args : List Value) : Follows (construct callInit c args) (Run.construct callInit' c args) := by
  refine (follows_leaving rfl Run.leavesGlobals_newObject).bind fun id => ?_
  dsimp only
  cases c.method? initName with
  | none => exact follows_pure _
  | some init =>
    refine (follows_leaving rfl (Run.leavesGlobals.bindMethod ..)).bind fun f => ?_
    exact (h f args).discard.bind fun _ => follows_pure _

/-- A native touches no global itself: it passes if what it calls does. -/
theorem follows_perform {invoke : Callable → List Value → Ledger Value}
    {invoke' : Callable → List Value → Run Value}
    (h : ∀ f args, Follows (invoke f args) (invoke' f args)) (args : List Value) (reply : Reply) :
    Follows (Run.perform invoke args [] reply) (Run.perform invoke' args [] reply) :=
  Run.rel_perform follows_pure follows_throw
    (fun f args _ _ next _ => (h f args).attempt.bind next) args [] reply (reply.passesOn_none 0)

/-- A call passes if what it calls does; a call that is refused does nothing. -/
theorem follows_call {invoke : Callable → List Value → Ledger Value}
    {invoke' : Callable → List Value → Run Value}
    (h : ∀ f args, Follows (invoke f args) (invoke' f args)) (maxDepth : Nat) (paren : Token)
    (callee : Value) (args : List Value) :
    Follows (call maxDepth invoke paren callee args)
      (Run.call maxDepth invoke' paren callee args) := by
  unfold call Run.call
  cases callee.callable? with
  | none => exact follows_leaving rfl (Run.leavesGlobals.raise rfl)
  | some f =>
    dsimp only
    split
    · exact follows_leaving rfl (Run.leavesGlobals.raise rfl)
    · refine follows_get fun s => ?_
      split
      · exact follows_leaving rfl (Run.leavesGlobals.raise rfl)
      · exact (h f args).deeper.placedAt paren

theorem follows_mapM {eval : Expr → Ledger Value} {eval' : Expr → Run Value}
    (h : ∀ e, Follows (eval e) (eval' e)) (es : List Expr) :
    Follows (es.mapM eval) (es.mapM eval') := by
  induction es with
  | nil => exact follows_pure _
  | cons e rest ih =>
    rw [List.mapM_cons, List.mapM_cons]
    exact (h e).bind fun v => ih.bind fun vs => follows_pure _

/-- A declaration inside another scope binds nothing among the globals. -/
theorem follows_declaration {env : Nat} (inner : env ≠ Frames.root) (name : String) (v : Value) :
    Follows (step (.declaration false name) (Run.define env name v)) (Run.define env name v) :=
  follows_leaving rfl (Run.leavesGlobals_define inner name v)

/-- A class inside another scope binds nothing among the globals. -/
theorem follows_declareClass {env : Nat} (inner : env ≠ Frames.root) (name : Token)
    (superclass : Option Reference) (methods : List Function) :
    Follows (declareClass false env name superclass methods)
      (Run.declareClass env name superclass methods) := by
  rw [Run.declareClass_eq]
  cases superclass with
  | none => exact follows_leaving rfl (Run.leavesGlobals_bindClass inner ..)
  | some ref =>
    refine (follows_leaving rfl (Run.leavesGlobals.readSuperclass env ref)).bind fun parent => ?_
    exact follows_leaving rfl (Run.leavesGlobals_bindClass inner ..)

/-! ### Evaluation -/

/-- The statement declares nothing among the globals: it stands inside another scope, or it is no
declaration and none of its branches is. -/
def Secluded (direct : Bool) (env : Nat) (s : Stmt) : Prop :=
  direct = false ∧ env ≠ Frames.root ∨ ∃ c π, s.Addressed c π ∧ s.isDeclaration = false

section Secluded

variable {direct : Bool} {env : Nat}

/-- A statement inside another scope is secluded. -/
theorem secluded_inside (inner : env ≠ Frames.root) (s : Stmt) : Secluded false env s :=
  .inl ⟨rfl, inner⟩

/-- A declaration that is secluded stands inside another scope. -/
theorem Secluded.inner {s : Stmt} (h : Secluded direct env s)
    (declares : s.isDeclaration = true) : direct = false ∧ env ≠ Frames.root := by
  rcases h with inside | ⟨c, π, -, plain⟩
  · exact inside
  · rw [plain] at declares
    cases declares

/-- The branches of a secluded statement are secluded, for no declaration is a branch. -/
theorem Secluded.branches {test : Expr} {yes : Stmt} {no : Option Stmt}
    (h : Secluded direct env (.cond test yes no)) :
    Secluded false env yes ∧ ∀ s ∈ no, Secluded false env s := by
  rcases h with ⟨-, inner⟩ | ⟨c, π, addressed, -⟩
  · exact ⟨secluded_inside inner yes, fun s _ => secluded_inside inner s⟩
  · cases no with
    | none => exact ⟨.inr ⟨c, _, addressed.2⟩, by simp⟩
    | some no => exact ⟨.inr ⟨c, _, addressed.2.1⟩, by simpa using .inr ⟨c, _, addressed.2.2⟩⟩

/-- The body of a secluded loop is secluded. -/
theorem Secluded.round {test : Expr} {body : Stmt} (h : Secluded direct env (.loop test body)) :
    Secluded false env body := by
  rcases h with ⟨-, inner⟩ | ⟨c, π, addressed, -⟩
  · exact secluded_inside inner body
  · exact .inr ⟨c, _, addressed.2⟩

end Secluded

/-- With so much fuel, evaluation passes. -/
structure FollowsAll (m : Machine) (n : Nat) : Prop where
  eval : ∀ env e, Follows (eval m n env e) (Run.eval m n env e)
  exec : ∀ direct env s, Secluded direct env s →
    Follows (exec m n direct env s) (Run.exec m n env s)
  invoke : ∀ f args, Follows (invoke m n f args) (Run.invoke m n f args)

section Round

variable {m : Machine} {n : Nat}

/-- One step inward of an expression passes; no expression binds a global. -/
theorem FollowsAll.eval_succ (ih : FollowsAll m n) (env : Nat) (e : Expr) :
    Follows (Ledger.eval m (n + 1) env e) (Run.eval m (n + 1) env e) := by
  -- no expression declares anything, so the ledger has nothing to note
  cases e with
  | number | string | bool | nil => exact follows_pure _
  | gap => exact follows_leaving rfl (Run.leavesGlobals.fail rfl)
  | this | «variable» => exact follows_leaving rfl (Run.leavesGlobals.readRef ..)
  | «super» => exact follows_leaving rfl (Run.leavesGlobals.superMethod ..)
  | lambda =>
    exact (follows_leaving rfl (Run.leavesGlobals.makeClosure ..)).bind fun _ => follows_pure _
  | assign ref value =>
    refine (ih.eval env value).bind fun v => ?_
    exact (follows_assignRef env ref v).bind fun _ => follows_pure v
  | unary op operand =>
    refine (ih.eval env operand).bind fun v => ?_
    exact follows_leaving rfl (Run.leavesGlobals.applyUnary op v)
  | binary op left right =>
    refine (ih.eval env left).bind fun a => (ih.eval env right).bind fun b => ?_
    exact follows_leaving rfl (Run.leavesGlobals.applyBinary op a b)
  | logical op left right =>
    refine (ih.eval env left).bind fun a => ?_
    split
    · exact follows_pure a
    · exact ih.eval env right
  | group inner => exact ih.eval env inner
  | call callee paren args =>
    refine (ih.eval env callee).bind fun f => ?_
    refine (follows_mapM (ih.eval env) args).bind fun vs => ?_
    exact follows_call ih.invoke m.maxDepth paren f vs
  | get object name =>
    refine (ih.eval env object).bind fun v => ?_
    exact follows_leaving rfl (Run.leavesGlobals.getMember v name)
  | set object name value =>
    refine (ih.eval env object).bind fun o => ?_
    refine (follows_leaving rfl (Run.leavesGlobals.fieldOwner o name)).bind fun owner => ?_
    refine (ih.eval env value).bind fun v => ?_
    exact (follows_leaving rfl (Run.leavesGlobals_setField ..)).bind fun _ => follows_pure v

/-- One step inward of a secluded statement passes. -/
theorem FollowsAll.exec_succ (ih : FollowsAll m n) {direct : Bool} {env : Nat} {s : Stmt}
    (secluded : Secluded direct env s) :
    Follows (Ledger.exec m (n + 1) direct env s) (Run.exec m (n + 1) env s) := by
  cases s with
  | expr e => exact (ih.eval env e).discard.bind fun _ => follows_pure _
  | print e =>
    refine (ih.eval env e).bind fun v => ?_
    exact (follows_leaving rfl (Run.leavesGlobals_write ..)).bind fun _ => follows_pure _
  -- a declaration among the globals is the one thing that is noted
  | var name init =>
    obtain ⟨rfl, inner⟩ := secluded.inner rfl
    cases init with
    | none => exact (follows_declaration inner ..).bind fun _ => follows_pure _
    | some init =>
      refine (ih.eval env init).bind fun v => ?_
      exact (follows_declaration inner ..).bind fun _ => follows_pure _
  -- inside the block the frame is not the global one
  | block body =>
    refine follows_newFrame rfl _ _ fun frame inner => ?_
    exact follows_runAll (fun s => ih.exec _ _ s (secluded_inside inner s)) body
  | cond test yes no =>
    obtain ⟨first, second⟩ := secluded.branches
    refine (ih.eval env test).bind fun v => ?_
    split
    · exact ih.exec _ _ yes first
    · cases no with
      | none => exact follows_pure _
      | some no => exact ih.exec _ _ no (second no rfl)
  | loop test body =>
    refine (ih.eval env test).bind fun v => ?_
    split
    · refine (ih.exec _ _ body secluded.round).bind fun completion => ?_
      cases completion with
      | returned v => exact follows_pure _
      | normal => exact ih.exec _ _ (.loop test body) secluded
    · exact follows_pure _
  | function decl =>
    obtain ⟨rfl, inner⟩ := secluded.inner rfl
    refine (follows_leaving rfl (Run.leavesGlobals.makeClosure ..)).bind fun f => ?_
    exact (follows_declaration inner ..).bind fun _ => follows_pure _
  | ret keyword value =>
    cases value with
    | none => exact follows_pure _
    | some value => exact (ih.eval env value).bind fun v => follows_pure _
  | classDecl name superclass methods =>
    obtain ⟨rfl, inner⟩ := secluded.inner rfl
    exact (follows_declareClass inner ..).bind fun _ => follows_pure _
  | gap => exact follows_leaving rfl (Run.leavesGlobals.fail rfl)

/-- One step inward of a call passes: the body is inside another scope. -/
theorem FollowsAll.invoke_succ (ih : FollowsAll m n) (f : Callable) (args : List Value) :
    Follows (Ledger.invoke m (n + 1) f args) (Run.invoke m (n + 1) f args) := by
  have bodies (env : Nat) (inner : env ≠ Frames.root) (body : List Stmt) :
      Follows (runAll (Ledger.exec m n false env) body) (Run.runAll (Run.exec m n env) body) :=
    follows_runAll (fun s => ih.exec _ _ s (secluded_inside inner s)) body
  cases f with
  | function f => exact follows_callClosure bodies f args
  | native f =>
    exact (follows_leaving rfl Run.leavesGlobals_ask).bind fun before =>
      follows_perform ih.invoke args _
  | classObj c => exact follows_construct (follows_callClosure bodies) c args

end Round

/-- Evaluation passes, whatever the fuel. -/
theorem followsAll (m : Machine) (n : Nat) : FollowsAll m n := by
  induction n with
  | zero =>
    exact ⟨fun _ _ => follows_throw _, fun _ _ _ _ => follows_throw _,
      fun _ _ => follows_throw _⟩
  | succ n ih => exact ⟨ih.eval_succ, fun _ _ _ => ih.exec_succ, ih.invoke_succ⟩

/-! ### Top-level statements -/

/-- Part of a run that carries out what is left of a top-level statement. -/
structure Carries (stmt : Stmt) (x : Ledger α) (y : Run α) : Prop where
  erases : ∀ s : Book, s.Sound → forget (x s) = y s.world
  ends : ∀ s : Book, s.Sound → s.Ends stmt (x s)

section Carries

variable {stmt : Stmt} {x : Ledger α} {y : Run α} {f : α → Ledger β} {g : α → Run β}

theorem carries_throw (stop : Stop) : Carries stmt (throw stop : Ledger α) (throw stop) :=
  ⟨fun _ _ => rfl, fun _ => (·.passes)⟩

/-- A part that passes carries out a statement that declares nothing. -/
theorem Follows.carries (h : Follows x y) (nothing : stmt.declared? = none) :
    Carries stmt x y := by
  refine ⟨h.erases, fun s sound => ?_⟩
  have passes := h.passes s sound
  cases run : x s with
  | error stop t =>
    rw [run] at passes
    exact passes
  | ok a t =>
    rw [run] at passes
    have same : t.complete stmt = t := by
      simp [Book.complete, nothing]
    refine ⟨?_, passes.lent, passes.completed⟩
    rw [same]
    exact passes.sound

/-- What passes may come before the part that carries out the statement. -/
theorem Follows.before (h : Follows x y) (hf : ∀ a, Carries stmt (f a) (g a)) :
    Carries stmt (x >>= f) (y >>= g) := by
  have goes (s : Book) (sound : s.Sound) :
      forget ((x >>= f) s) = (y >>= g) s.world ∧ s.Ends stmt ((x >>= f) s) := by
    have passes := h.passes s sound
    rw [Run.bind_apply, Run.bind_apply, ← h.erases s sound]
    cases run : x s with
    | error stop t =>
      rw [run] at passes
      exact ⟨rfl, passes⟩
    | ok a t =>
      rw [run] at passes
      exact ⟨(hf a).erases t passes.sound, passes.ends ((hf a).ends t passes.sound)⟩
  exact ⟨fun s sound => (goes s sound).1, fun s sound => (goes s sound).2⟩

/-- The last step of a declaration. -/
theorem carries_declaration {name : String} (declares : stmt.declared? = some name) {act : Run Unit}
    (h : Run.BindsGlobal name act) (b : β) :
    Carries stmt (step (.declaration true name) act >>= fun _ => pure b)
      (act >>= fun _ => pure b) := by
  have goes (s : Book) (sound : s.Sound) : ∃ w, act s.world = .ok () w ∧
      step (.declaration true name) act s = .ok () (s.enter (.declaration true name) w) ∧
        ((s.enter (.declaration true name) w).complete stmt).Sound := by
    obtain ⟨w, done, rooted, binds⟩ := h.run s.world sound.rooted
    refine ⟨w, done, by rw [step, done], ?_⟩
    refine sound.bind (.declaration true name) rfl rooted binds List.prefix_rfl
      (List.prefix_append ..) fun x => ?_
    simp [Book.enter, declares, or_assoc]
  refine ⟨fun s sound => ?_, fun s sound => ?_⟩
  · obtain ⟨w, done, entered, -⟩ := goes s sound
    rw [Run.bind_apply, Run.bind_apply, entered, done]
    rfl
  · obtain ⟨w, -, entered, balanced⟩ := goes s sound
    rw [Run.bind_apply, entered]
    exact ⟨balanced, rfl, rfl⟩

end Carries

/-- A class directly at the top level is a global once its declaration is through. -/
theorem carries_classDecl (name : Token) (superclass : Option Reference) (methods : List Function) :
    Carries (.classDecl name superclass methods)
      (declareClass true Frames.root name superclass methods >>= fun _ =>
        pure Run.Completion.normal)
      (Run.declareClass Frames.root name superclass methods >>= fun _ =>
        pure Run.Completion.normal) := by
  rw [Run.declareClass_eq]
  cases superclass with
  | none => exact carries_declaration rfl (Run.bindsGlobal_bindClass ..) _
  | some ref =>
    unfold declareClass
    rw [bind_assoc, bind_assoc]
    refine (follows_leaving rfl (Run.leavesGlobals.readSuperclass ..)).before fun parent => ?_
    exact carries_declaration rfl (Run.bindsGlobal_bindClass ..) _

/-- A top-level statement is carried out: what it declares is then global, and nothing else. -/
theorem carries_exec (m : Machine) (n : Nat) {c : Context} {π : Place} {stmt : Stmt}
    (addressed : stmt.Addressed c π) :
    Carries stmt (exec m n true Frames.root stmt) (Run.exec m n Frames.root stmt) := by
  -- What is no declaration passes like any other part; a declaration passes up to its last step.
  by_cases plain : stmt.isDeclaration = false
  · refine ((followsAll m n).exec _ _ stmt (.inr ⟨c, π, addressed, plain⟩)).carries ?_
    cases stmt <;> first | rfl | cases plain
  cases n with
  | zero => exact carries_throw _
  | succ n =>
    have ih := followsAll m n
    cases stmt with
    | var name init =>
      cases init with
      | none => exact carries_declaration rfl (Run.bindsGlobal_define ..) _
      | some init =>
        refine (ih.eval _ init).before fun v => ?_
        exact carries_declaration rfl (Run.bindsGlobal_define ..) _
    | function decl =>
      refine (follows_leaving rfl (Run.leavesGlobals.makeClosure ..)).before fun f => ?_
      exact carries_declaration rfl (Run.bindsGlobal_define ..) _
    | classDecl name superclass methods => exact carries_classDecl name superclass methods
    | _ => exact (plain rfl).elim

/-! ### Programs -/

/-- The statements of a program are carried out in turn, up to one that stops. -/
theorem ran_execTop (m : Machine) {c : Context} {π : Place} {i : Nat} {body : List Stmt}
    (addressed : Stmt.AllAddressed c π i body) {s : Book} (sound : s.Sound) :
    forget (execTop m body s) = Run.execTop m body s.world ∧ s.Ran body (execTop m body s) := by
  -- statement by statement, as long as they go through: what is noted so far is that of the
  -- statements before
  induction body generalizing c i s with
  | nil => exact ⟨rfl, sound, rfl, [], List.nil_prefix, (List.append_nil _).symm,
      fun _ _ => rfl⟩
  | cons stmt rest ih =>
    have first := carries_exec m m.fuel addressed.1
    have erased := first.erases s sound
    have ends := first.ends s sound
    unfold execTop Run.execTop
    rw [Run.bind_apply, Run.bind_apply, Run.discard_apply, Run.discard_apply, Run.bind_apply,
      Run.bind_apply, ← erased]
    cases run : exec m m.fuel true Frames.root stmt s with
    -- the statement that fails declares nothing
    | error stop t =>
      rw [run] at ends
      exact ⟨rfl, ends.sound, ends.lent, [], List.nil_prefix, by simpa [final] using ends.completed,
        fun t done => by cases done⟩
    | ok a t =>
      rw [run] at ends
      obtain ⟨balanced, lent, completed⟩ := ends
      obtain ⟨erased, ran⟩ := ih addressed.2 balanced
      obtain ⟨carried, part, extended, whole⟩ := ran.completed
      refine ⟨erased, ran.sound, ran.lent.trans lent, stmt :: carried, ?_, ?_, ?_⟩
      · exact List.cons_prefix_cons.mpr ⟨rfl, part⟩
      · have split : (stmt :: carried).filterMap Stmt.declared? =
            stmt.declared?.toList ++ carried.filterMap Stmt.declared? := by
          rw [List.filterMap_cons]
          cases stmt.declared? <;> rfl
        rw [split, ← List.append_assoc, ← completed]
        exact extended
      · exact fun u done => congrArg (stmt :: ·) (whole u done)

/-- A program that passed the checks leaves the ledger sound, however it ends. -/
theorem ran_program (m : Machine) {p : Program} {c : Context} {π : Place} {i : Nat}
    (addressed : Stmt.AllAddressed c π i p.body) {s : Book} (sound : s.Sound) :
    forget (program m p s) = Run.program m p s.world ∧ s.Ran p.body (program m p s) := by
  have reset : Follows (step .other (modify fun w : World => { w with depth := 0 }))
      (modify fun w : World => { w with depth := 0 }) :=
    follows_leaving rfl (Run.leavesGlobals_of_frames fun _ => rfl)
  have passes := reset.passes s sound
  obtain ⟨erased, ran⟩ := ran_execTop m addressed passes.sound
  exact ⟨erased, ran.sound, ran.lent.trans passes.lent, passes.completed ▸ ran.completed⟩

end Ledger

/-! ### Nothing is taken back -/

/-- No step takes a global away. -/
theorem Entry.Sound.grows {e : Entry} (h : e.Sound) {x : String}
    (known : x ∈ e.before.keys Frames.root) : x ∈ e.after.keys Frames.root := by
  cases opened : e.cause.opens? with
  | none => exact (h.allowed.names opened x).mpr known
  | some name => exact (h.allowed.binds opened).mem_keys_iff.mpr (.inl known)

/-- What was global before some step is global at the end. -/
theorem Chained.grows {start last : Frames Value} {entries : List Entry}
    (chained : Chained start entries last) (sound : ∀ e ∈ entries, e.Sound) {e : Entry}
    (mem : e ∈ entries) {x : String} (known : x ∈ e.before.keys Frames.root) :
    x ∈ last.keys Frames.root := by
  induction entries generalizing last with
  | nil => cases mem
  | cons newest earlier ih =>
    obtain ⟨newestSound, earlierSound⟩ := List.forall_mem_cons.mp sound
    obtain ⟨rfl, rest⟩ := chained
    rcases List.mem_cons.mp mem with rfl | older
    · exact newestSound.grows known
    · exact newestSound.grows (ih rest earlierSound older)

end Lox
