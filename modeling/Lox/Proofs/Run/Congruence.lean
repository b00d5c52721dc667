import Lox.Proofs.Run.Notice
import Lox.Proofs.Run.Parts

/-!
Two machines side by side. Machines that have the same natives but other limits or other sinks carry
out the same parts one after the other; they can part only at a call, where each asks its limit, and
at a print, where each asks its sink. A relation that respects the way runs are put together, and
holds at calls and prints, holds of whole runs. Where a native goes on after a problem, the relation
may leave out problems that this native passes on.
-/

namespace Lox

namespace Run

variable {α β : Type}

/-! ### Parts that print nothing and call nothing -/

/-- Part of a run that prints nothing, and after which as many calls are going on as before. -/
structure Silent (act : Run α) : Prop where
  printed : ∀ w, (final (act w)).printed = w.printed
  depth : ∀ w, (final (act w)).depth = w.depth

section Silent

variable {act : Run α}

theorem silent_raise (token : Token) (fault : Fault) : Silent (raise token fault : Run α) :=
  ⟨fun _ => rfl, fun _ => rfl⟩

theorem silent_fail (fault : Fault) : Silent (fail fault : Run α) := ⟨fun _ => rfl, fun _ => rfl⟩

/-- Silent parts are silent one after the other. -/
theorem Silent.bind {next : α → Run β} (h : Silent act) (hnext : ∀ a, Silent (next a)) :
    Silent (act >>= next) := by
  have ends (w : World) : (final ((act >>= next) w)).printed = w.printed ∧
      (final ((act >>= next) w)).depth = w.depth := by
    have printed := h.printed w
    have depth := h.depth w
    rw [bind_apply]
    cases done : act w with
    | error stop w₁ =>
      rw [done] at printed depth
      exact ⟨printed, depth⟩
    | ok a w₁ =>
      rw [done] at printed depth
      exact ⟨((hnext a).printed w₁).trans printed, ((hnext a).depth w₁).trans depth⟩
  exact ⟨fun w => (ends w).1, fun w => (ends w).2⟩

theorem silent_define (env : Nat) (name : String) (v : Value) : Silent (define env name v) :=
  ⟨fun _ => rfl, fun _ => rfl⟩

theorem silent_newObject : Silent newObject := ⟨fun _ => rfl, fun _ => rfl⟩

theorem silent_ask : Silent ask := ⟨fun _ => rfl, fun _ => rfl⟩

theorem silent_setField (id : Nat) (name : String) (v : Value) : Silent (setField id name v) :=
  ⟨fun _ => rfl, fun _ => rfl⟩

/-- What is put together from parts that only read is silent. -/
theorem silent : Compositional Silent where
  pure _ := ⟨fun _ => rfl, fun _ => rfl⟩
  throw _ := ⟨fun _ => rfl, fun _ => rfl⟩
  get h := ⟨fun w => (h w).printed w, fun w => (h w).depth w⟩
  bind := Silent.bind
  fresh := ⟨fun _ => rfl, fun _ => rfl⟩
  newFrame _ _ := ⟨fun _ => rfl, fun _ => rfl⟩

end Silent

end Run

namespace Trace

/-! ### What is printed stays printed -/

/-- Whatever the part of a run does, what was printed before stays printed. -/
def Prolongs {α : Type} (act : Trace α) : Prop :=
  ∀ s, s.world.printed.toList <+: (final (act s)).world.printed.toList

section Prolongs

variable {α β : Type} {act : Trace α}

/-- Lines are only added, by the first part and by the second. -/
theorem Prolongs.bind {next : α → Trace β} (h : Prolongs act) (hnext : ∀ a, Prolongs (next a)) :
    Prolongs (act >>= next) := by
  intro s
  have first := h s
  rw [Run.bind_apply]
  cases done : act s with
  | error stop t =>
    rw [done] at first
    exact first
  | ok a t =>
    rw [done] at first
    exact first.trans (hnext a t)

theorem Prolongs.attempt (h : Prolongs act) : Prolongs (Run.attempt act) := by
  intro s
  rw [final_attempt]
  exact h s

theorem Prolongs.telling {act : Trace Value} (h : Prolongs act) (asked : Asked) :
    Prolongs (telling asked act) := by
  intro s
  obtain ⟨more, ends⟩ := final_telling asked act s
  rw [ends]
  exact h s

/-- What a call prints is printed, whatever place it has. -/
theorem Prolongs.call {act : Trace Value} (h : Prolongs act) (paren : Token) :
    Prolongs (placedAt paren (deeper act)) := by
  intro s
  rw [final_call]
  exact h { s with world := { s.world with depth := s.world.depth + 1 } }

end Prolongs

/-! ### Two machines -/

/-- A relation between parts of the runs of two machines that respects the way runs are put
together, and what the machines do at prints and calls; a native passes on the problems that `P` has
for it. -/
structure Congruence (m m' : Machine) (P : Asked → Mishap → Prop)
    (R : List Activity → {α : Type} → Trace α → Trace α → Prop) : Prop where
  pure : ∀ {going α} (a : α), R going (pure a) (pure a)
  plain : ∀ {going α} {act : Run α}, act.Silent → R going (plain going act) (plain going act)
  give : ∀ {going} (v : Value), R going (modify (·.give going v)) (modify (·.give going v))
  bind : ∀ {going α β} {x y : Trace α} {f g : α → Trace β}, R going x y →
    (∀ a, R going (f a) (g a)) → R going (x >>= f) (y >>= g)
  /-- A native is told what came of the call and goes on, or passes on a problem of `P`. -/
  told : ∀ {going} {x y : Trace Value} {f g : Except Problem Value → Trace Value} (asked : Asked),
    R going x y → (∀ r, R going (f r) (g r)) →
    (∀ p : Problem, P asked p.mishap → f (.error p) = throw p.stop ∧ g (.error p) = throw p.stop) →
    R going (Run.attempt (telling asked x) >>= f) (Run.attempt (telling asked y) >>= g)
  throw : ∀ {going α} (stop : Stop), R going (α := α) (throw stop) (throw stop)
  write : ∀ {going} (line : String), R going (write m.sink going line) (write m'.sink going line)
  /-- A function's body is carried out in a call. -/
  body : ∀ {paren going α} {x y : Trace α} (f : Closure),
    R (.body f :: .call paren :: going) x y → R (.call paren :: going) x y
  guarded : ∀ {going x y} (paren : Token), R (.call paren :: going) x y →
    R going (guarded m.maxDepth going paren x) (guarded m'.maxDepth going paren y)

namespace Congruence

variable {m m' : Machine} {P : Asked → Mishap → Prop}
  {R : List Activity → {α : Type} → Trace α → Trace α → Prop} {α β : Type} {going : List Activity}

/-- A value that is not used makes no difference. -/
theorem discard (h : Congruence m m' P R) {x y : Trace α} (hx : R going x y) :
    R going (discard x) (discard y) := by
  have opened (x : Trace α) : Functor.discard x = x >>= fun _ => Pure.pure () :=
    funext (Run.discard_apply x)
  rw [opened, opened]
  exact h.bind hx fun _ => h.pure ()

/-- What is given is noted in both runs. -/
theorem giving (h : Congruence m m' P R) {x y : Trace Value} (hx : R going x y) :
    R going (Trace.giving going x) (Trace.giving going y) :=
  h.bind hx fun v => h.bind (h.give v) fun _ => h.pure v

/-- To declare a class prints nothing and calls nothing. -/
theorem declareClass (h : Congruence m m' P R) (env : Nat) (name : Token)
    (superclass : Option Reference) (methods : List Function) :
    R going (declareClass going env name superclass methods)
      (declareClass going env name superclass methods) := by
  cases superclass with
  | none =>
    refine h.bind (h.plain (Run.silent_define ..)) fun _ => ?_
    refine h.bind (h.plain (Run.silent.makeMethods ..)) fun methods => ?_
    exact h.bind (h.plain Run.silent.fresh) fun id => h.plain (Run.silent_define ..)
  | some ref =>
    refine h.bind (h.plain (Run.silent.readSuperclass ..)) fun parent => ?_
    refine h.bind (h.plain (Run.silent_define ..)) fun _ => ?_
    refine h.bind (h.plain (Run.silent.newFrame ..)) fun inner => ?_
    refine h.bind (h.plain (Run.silent.makeMethods ..)) fun methods => ?_
    exact h.bind (h.plain Run.silent.fresh) fun id => h.plain (Run.silent_define ..)

/-- Statements in turn are related if each of them is. -/
theorem runAll (h : Congruence m m' P R) {exec exec' : Stmt → Trace Run.Completion}
    (hexec : ∀ s, R going (exec s) (exec' s)) (body : List Stmt) :
    R going (runAll exec body) (runAll exec' body) := by
  induction body with
  | nil => exact h.pure _
  | cons s rest ih =>
    refine h.bind (hexec s) fun completion => ?_
    cases completion with
    | returned v => exact h.pure _
    | normal => exact ih

/-- A body is carried out in both runs, inside the call that the relation is told of. -/
theorem callClosure (h : Congruence m m' P R)
    {body body' : List Activity → Nat → List Stmt → Trace Run.Completion}
    (hbody : ∀ going env ss, R going (body going env ss) (body' going env ss)) (paren : Token)
    (f : Closure) (args : List Value) :
    R (.call paren :: going) (callClosure body (.call paren :: going) f args)
      (callClosure body' (.call paren :: going) f args) := by
  unfold Trace.callClosure
  split
  · exact h.plain (Run.silent_fail _)
  · refine h.bind (h.plain (Run.silent.newFrame ..)) fun env => ?_
    refine h.bind (h.body f (hbody _ env f.body)) fun completion => ?_
    exact h.plain (Run.silent.answer f completion)

/-- An instance is made in both runs, and its initializer is called. -/
theorem construct (h : Congruence m m' P R) {callInit callInit' : Closure → List Value → Trace Value}
    (hcall : ∀ f args, R going (callInit f args) (callInit' f args)) (c : Class)
    (args : List Value) :
    R going (construct callInit going c args) (construct callInit' going c args) := by
  refine h.bind (h.plain Run.silent_newObject) fun id => ?_
  dsimp only
  cases c.method? initName with
  | none => exact h.pure _
  | some init =>
    refine h.bind (h.plain (Run.silent.bindMethod ..)) fun f => ?_
    exact h.bind (h.discard (hcall f args)) fun _ => h.pure _

/-- A native does the same in both runs, unless it goes on after a problem that it is to pass on. -/
theorem perform (h : Congruence m m' P R) {invoke invoke' : Callable → List Value → Trace Value}
    (hinvoke : ∀ f args, R going (invoke f args) (invoke' f args)) (args : List Value)
    {natives : Natives} {asked : Asked} (passes : (asked.reply natives).PassesOn (P asked) 0) :
    R going (perform natives invoke args asked) (perform natives invoke' args asked) :=
  Run.rel_perform h.pure h.throw
    (fun f args _ _ next passed => h.told asked (hinvoke f args) next passed) args [] _ passes

/-- A call asks the limit of its machine, and is carried out where there is room. -/
theorem call (h : Congruence m m' P R)
    {invoke invoke' : List Activity → Callable → List Value → Trace Value}
    (hinvoke : ∀ paren going f args, R (.call paren :: going)
      (invoke (.call paren :: going) f args) (invoke' (.call paren :: going) f args))
    (paren : Token) (callee : Value) (args : List Value) :
    R going (call m.maxDepth invoke going paren callee args)
      (call m'.maxDepth invoke' going paren callee args) := by
  unfold Trace.call
  split
  · exact h.plain (Run.silent_raise ..)
  · split
    · exact h.plain (Run.silent_raise ..)
    · exact h.guarded paren (hinvoke paren going _ args)

theorem mapM (h : Congruence m m' P R) {eval eval' : Expr → Trace Value}
    (heval : ∀ e, R going (eval e) (eval' e)) (es : List Expr) :
    R going (es.mapM eval) (es.mapM eval') := by
  induction es with
  | nil => exact h.pure _
  | cons e rest ih =>
    rw [List.mapM_cons, List.mapM_cons]
    exact h.bind (heval e) fun v => h.bind ih fun vs => h.pure _

end Congruence

/-- With so much fuel, what the two machines evaluate is related. -/
structure Related (m m' : Machine) (R : List Activity → {α : Type} → Trace α → Trace α → Prop)
    (n : Nat) : Prop where
  eval : ∀ going env e, R going (eval m n going env e) (eval m' n going env e)
  exec : ∀ going env s, R going (exec m n going env s) (exec m' n going env s)
  invoke : ∀ paren going f args, R (.call paren :: going) (invoke m n (.call paren :: going) f args)
    (invoke m' n (.call paren :: going) f args)

section Round

variable {m m' : Machine} {P : Asked → Mishap → Prop}
  {R : List Activity → {α : Type} → Trace α → Trace α → Prop} {n : Nat}

/-- One step inward of an expression is related in both runs. -/
theorem Related.eval_succ (h : Congruence m m' P R) (ih : Related m m' R n) (going : List Activity)
    (env : Nat) (e : Expr) : R going (Trace.eval m (n + 1) going env e)
      (Trace.eval m' (n + 1) going env e) := by
  apply h.giving
  -- the cases follow `Trace.eval`: only calls go back to statements
  cases e with
  | number | string | bool | nil => exact h.pure _
  | gap => exact h.plain (Run.silent_fail _)
  | this | «variable» => exact h.plain (Run.silent.readRef ..)
  | «super» => exact h.plain (Run.silent.superMethod ..)
  | lambda => exact h.bind (h.plain (Run.silent.makeClosure ..)) fun _ => h.pure _
  | assign ref value =>
    refine h.bind (ih.eval going env value) fun v => ?_
    exact h.bind (h.plain (Run.silent.assignRef Run.silent_define ..)) fun _ => h.pure v
  | unary op operand =>
    exact h.bind (ih.eval going env operand) fun v => h.plain (Run.silent.applyUnary op v)
  | binary op left right =>
    refine h.bind (ih.eval going env left) fun a => ?_
    exact h.bind (ih.eval going env right) fun b => h.plain (Run.silent.applyBinary op a b)
  | logical op left right =>
    refine h.bind (ih.eval going env left) fun a => ?_
    split
    · exact h.pure a
    · exact ih.eval going env right
  | group inner => exact ih.eval going env inner
  | call callee paren args =>
    refine h.bind (ih.eval going env callee) fun f => ?_
    refine h.bind (h.mapM (ih.eval going env) args) fun vs => ?_
    exact h.call ih.invoke paren f vs
  | get object name =>
    exact h.bind (ih.eval going env object) fun v => h.plain (Run.silent.getMember v name)
  | set object name value =>
    refine h.bind (ih.eval going env object) fun o => ?_
    refine h.bind (h.plain (Run.silent.fieldOwner o name)) fun owner => ?_
    refine h.bind (ih.eval going env value) fun v => ?_
    exact h.bind (h.plain (Run.silent_setField ..)) fun _ => h.pure v

/-- One step inward of a statement is related in both runs. -/
theorem Related.exec_succ (h : Congruence m m' P R) (ih : Related m m' R n) (going : List Activity)
    (env : Nat) (s : Stmt) : R going (Trace.exec m (n + 1) going env s)
      (Trace.exec m' (n + 1) going env s) := by
  cases s with
  | expr e => exact h.bind (h.discard (ih.eval going env e)) fun _ => h.pure _
  -- here the two sinks differ: that is what the relation is about
  | print e =>
    refine h.bind (ih.eval going env e) fun v => ?_
    exact h.bind (h.write v.text) fun _ => h.pure _
  | var name init =>
    cases init with
    | none => exact h.bind (h.plain (Run.silent_define ..)) fun _ => h.pure _
    | some init =>
      refine h.bind (ih.eval going env init) fun v => ?_
      exact h.bind (h.plain (Run.silent_define ..)) fun _ => h.pure _
  | block body =>
    refine h.bind (h.plain (Run.silent.newFrame ..)) fun inner => ?_
    exact h.runAll (ih.exec going inner) body
  | cond test yes no =>
    refine h.bind (ih.eval going env test) fun v => ?_
    split
    · exact ih.exec going env yes
    · cases no with
      | none => exact h.pure _
      | some no => exact ih.exec going env no
  | loop test body =>
    refine h.bind (ih.eval going env test) fun v => ?_
    split
    · refine h.bind (ih.exec going env body) fun completion => ?_
      cases completion with
      | returned v => exact h.pure _
      | normal => exact ih.exec going env (.loop test body)
    · exact h.pure _
  | function decl =>
    refine h.bind (h.plain (Run.silent.makeClosure ..)) fun f => ?_
    exact h.bind (h.plain (Run.silent_define ..)) fun _ => h.pure _
  | ret keyword value =>
    cases value with
    | none => exact h.pure _
    | some value => exact h.bind (ih.eval going env value) fun v => h.pure _
  | classDecl name superclass methods =>
    exact h.bind (h.declareClass env name superclass methods) fun _ => h.pure _
  | gap => exact h.plain (Run.silent_fail _)

/-- One step inward of a call is related in both runs, for the natives are the same. -/
theorem Related.invoke_succ (h : Congruence m m' P R) (natives : m'.natives = m.natives)
    (passes : ∀ asked : Asked, (asked.reply m.natives).PassesOn (P asked) 0) (ih : Related m m' R n)
    (paren : Token) (going : List Activity) (f : Callable) (args : List Value) :
    R (.call paren :: going) (Trace.invoke m (n + 1) (.call paren :: going) f args)
      (Trace.invoke m' (n + 1) (.call paren :: going) f args) := by
  have bodies (going : List Activity) (env : Nat) (body : List Stmt) :
      R going (runAll (Trace.exec m n going env) body)
        (runAll (Trace.exec m' n going env) body) :=
    h.runAll (ih.exec going env) body
  apply h.giving
  cases f with
  | function f => exact h.callClosure bodies paren f args
  | native f =>
    dsimp only
    rw [natives]
    exact h.bind (h.plain Run.silent_ask) fun before =>
      h.perform (ih.invoke paren going) args (passes _)
  | classObj c => exact h.construct (h.callClosure bodies paren) c args

end Round

variable {m m' : Machine} {P : Asked → Mishap → Prop}
  {R : List Activity → {α : Type} → Trace α → Trace α → Prop}

/-- Evaluation with the same fuel is related, whatever the fuel. -/
theorem Congruence.related (h : Congruence m m' P R) (natives : m'.natives = m.natives)
    (passes : ∀ asked : Asked, (asked.reply m.natives).PassesOn (P asked) 0) (n : Nat) :
    Related m m' R n := by
  induction n with
  | zero =>
    exact ⟨fun _ _ _ => h.throw _, fun _ _ _ => h.throw _, fun _ _ _ _ => h.throw _⟩
  | succ n ih => exact ⟨ih.eval_succ h, ih.exec_succ h, ih.invoke_succ h natives passes⟩

/-- The top-level statements of a program are related. -/
theorem Congruence.execTop (h : Congruence m m' P R) (natives : m'.natives = m.natives)
    (passes : ∀ asked : Asked, (asked.reply m.natives).PassesOn (P asked) 0) (fuel : m'.fuel = m.fuel)
    (body : List Stmt) :
    R [] (execTop m body) (execTop m' body) := by
  induction body with
  | nil => exact h.pure _
  | cons s rest ih =>
    have first := (h.related natives passes m.fuel).exec [] Frames.root s
    rw [Trace.execTop, Trace.execTop, fuel]
    exact h.bind (h.discard first) fun _ => ih

end Trace

end Lox
