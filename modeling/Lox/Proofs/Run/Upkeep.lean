import Lox.Proofs.Run.Graph
import Lox.Proofs.Run.Trace

/-!
A run keeps its world founded at every moment, whether it ends or stops, and all values that come up
in it are founded when they do; every world grows out of those before it. The run stops at tokens of
its own, unless the output fails outside of all calls.
-/

namespace Lox

variable {S : Token → Prop}

structure Moment.Founded (S : Token → Prop) (moment : Moment) : Prop where
  world : moment.world.Founded S
  value : ∀ v ∈ moment.value, v.Founded S moment.world

/-- The last moment comes first, and its world has grown out of those before it. -/
def Ordered (moments : List Moment) : Prop :=
  moments.Pairwise fun later earlier => earlier.world.Grows later.world

structure Traced.Founded (S : Token → Prop) (s : Traced) : Prop where
  world : s.world.Founded S
  moments : ∀ moment ∈ s.moments, moment.Founded S
  growing : ∀ moment ∈ s.moments, moment.world.Grows s.world
  ordered : Ordered s.moments

/-- All worlds of a trace are founded, and they grow. -/
def Traced.graph (S : Token → Prop) : Invariant Traced where
  holds := Traced.Founded S
  grows s t := s.world.Grows t.world
  refl s := .refl s.world
  trans := .trans

/-- Natives may hold on to values that rest on the world. -/
theorem Traced.lasting_graph (S : Token → Prop) :
    (Traced.graph S).Lasting fun s v => v.Founded S s.world where
  plain _ _ := Value.founded_of_isPlain
  mono grows founded := founded.mono grows

/-- A moment is noted with the world that it is at. -/
theorem Traced.Founded.reach {s : Traced} (founded : s.Founded S) {w : World}
    (grows : s.world.Grows w) (h : w.Founded S) (going : List Activity) :
    (s.reach going w).Founded S := by
  have later (moment : Moment) (mem : moment ∈ s.moments) : moment.world.Grows w :=
    (founded.growing moment mem).trans grows
  exact ⟨h, List.forall_mem_cons.mpr ⟨⟨h, by simp⟩, founded.moments⟩,
    List.forall_mem_cons.mpr ⟨.refl w, later⟩, List.pairwise_cons.mpr ⟨later, founded.ordered⟩⟩

/-- A value is noted that rests on the world. -/
theorem Traced.Founded.give {s : Traced} (founded : s.Founded S) {v : Value}
    (hv : v.Founded S s.world) (going : List Activity) : (s.give going v).Founded S := by
  have given : Moment.Founded S { going, world := s.world, value := some v } := by
    refine ⟨founded.world, ?_⟩
    rintro _ ⟨⟩
    exact hv
  exact ⟨founded.world, List.forall_mem_cons.mpr ⟨given, founded.moments⟩,
    List.forall_mem_cons.mpr ⟨.refl s.world, founded.growing⟩,
    List.pairwise_cons.mpr ⟨founded.growing, founded.ordered⟩⟩

/-- Neither what is printed nor how many calls are going on matters. -/
theorem Traced.Founded.same {s : Traced} (founded : s.Founded S) (w : World)
    (frames : w.frames = s.world.frames) (objects : w.objects = s.world.objects)
    (stamp : w.stamp = s.world.stamp) :
    s.world.Grows w ∧ Traced.Founded S { s with world := w } :=
  have ⟨grows, world⟩ := founded.world.same w frames objects stamp
  ⟨grows, world, founded.moments, fun moment mem => (founded.growing moment mem).trans grows,
    founded.ordered⟩

namespace Trace

open Invariant

variable {α β : Type} {free : Prop} {s : Traced}

/-- From a moment on, the part of a run keeps the worlds founded and stops only at tokens of `S`, or
without a place if that is to be expected. -/
def Upheld (S : Token → Prop) (free : Prop) (s : Traced) (act : Trace α)
    (post : α → World → Prop) : Prop :=
  (Traced.graph S).Safe (Stop.From S free) s act fun a t => post a t.world

section Upheld

variable {act : Trace α} {post : α → World → Prop}

theorem upheld_pure (founded : s.Founded S) {a : α} (h : post a s.world) :
    Upheld S free s (pure a) post :=
  safe_pure founded h

theorem upheld_outOfFuel (founded : s.Founded S) : Upheld S free s (throw .outOfFuel) post :=
  safe_throw founded trivial

theorem upheld_get {next : Traced → Trace α} (h : Upheld S free s (next s) post) :
    Upheld S free s (get >>= next) post :=
  safe_get h

/-- What the first part upholds the second may rely on. -/
theorem Upheld.bind {next : α → Trace β} {post' : β → World → Prop} (h : Upheld S free s act post)
    (hnext : ∀ a t, s.world.Grows t.world → t.Founded S → post a t.world →
      Upheld S free t (next a) post') : Upheld S free s (act >>= next) post' :=
  Safe.bind h hnext

theorem Upheld.discard (h : Upheld S free s act post) :
    Upheld S free s (Functor.discard act) fun _ _ => True :=
  Safe.discard h

/-- What is known at the end may be weakened. -/
theorem Upheld.imp {post' : α → World → Prop} (h : Upheld S free s act post)
    (imp : ∀ a w, post a w → post' a w) : Upheld S free s act post' :=
  Safe.imp h fun a t => imp a t.world

/-- A part that stops only at places upholds what one may uphold that stops anywhere. -/
theorem Upheld.loosen (h : Upheld S free s act post) : Upheld S True s act post :=
  Safe.weaken h fun _ => Stop.From.loosen

end Upheld

/-- A part that upholds the order of the world upholds it with its trace. -/
theorem upheld_plain (founded : s.Founded S) {act : Run α} {post : α → World → Prop}
    (h : Run.Upheld S free s.world act post) (going : List Activity) :
    Upheld S free s (plain going act) post := by
  constructor
  · intro a t run
    unfold plain at run
    split at run
    · next w done =>
      cases run
      obtain ⟨grows, world, given⟩ := h.ok _ w done
      exact ⟨grows, founded.reach grows world going, given⟩
    · cases run
  · intro stop t run
    unfold plain at run
    split at run
    · cases run
    · next w done =>
      cases run
      obtain ⟨grows, world, allowed⟩ := h.error _ w done
      exact ⟨grows, founded.reach grows world going, allowed⟩

/-- What is given rests on the world, so it may be noted. -/
theorem upheld_giving {act : Trace Value} {post : Value → World → Prop}
    (h : Upheld S free s act post) (good : ∀ v w, post v w → v.Founded S w)
    (going : List Activity) : Upheld S free s (giving going act) post :=
  h.bind fun v t _ founded hv => safe_of_ok (a := v) (t := t.give going v) rfl (.refl _)
    (founded.give (good v t.world hv) going) hv

/-- A line that is refused stops the run without a place, and only a sink with a limit refuses. -/
theorem upheld_write (founded : s.Founded S) (sink : Sink) (going : List Activity)
    (line : String) :
    Upheld S (sink.capacity ≠ none) s (write sink going line) fun _ _ => True := by
  have tried : (s.attempt going line).Founded S :=
    ⟨founded.world, founded.moments, founded.growing, founded.ordered⟩
  have written := upheld_plain tried (Run.upheld_write founded.world sink line) going
  exact ⟨written.ok, written.error⟩

/-- What a native is told of has no part in the world. -/
theorem Upheld.telling {act : Trace Value} {post : Value → World → Prop}
    (h : Upheld S free s act post) (asked : Asked) : Upheld S free s (telling asked act) post := by
  constructor
  · intro v t run
    unfold Trace.telling at run
    split at run
    · next done =>
      cases run
      exact h.ok _ _ done
    · cases run
  · intro stop t run
    unfold Trace.telling at run
    split at run
    · cases run
    · next done =>
      cases run
      obtain ⟨grows, founded, allowed⟩ := h.error _ _ done
      exact ⟨grows, ⟨founded.world, founded.moments, founded.growing, founded.ordered⟩, allowed⟩

/-- What goes wrong in a call without a place gets the place of the call. -/
theorem Upheld.placedAt {act : Trace α} {post : α → World → Prop} (h : Upheld S free s act post)
    {token : Token} (known : S token) (free' : Prop) :
    Upheld S free' s (placedAt token act) post := by
  constructor
  · intro a t run
    unfold Trace.placedAt at run
    split at run
    · next done =>
      cases run
      exact h.ok _ _ done
    · cases run
  · intro stop t run
    unfold Trace.placedAt at run
    split at run
    · cases run
    · next done =>
      cases run
      obtain ⟨grows, founded, allowed⟩ := h.error _ _ done
      exact ⟨grows, founded, allowed.placed known⟩

/-- How deep a run is makes no difference to what rests on what. -/
theorem upheld_deeper (founded : s.Founded S) {act : Trace Value}
    (h : ∀ {t : Traced}, s.world.Grows t.world → t.Founded S →
      Upheld S free t act fun v w => v.Founded S w) :
    Upheld S free s (deeper act) fun v w => v.Founded S w := by
  -- the depth is no part of the graph
  obtain ⟨down, founded₁⟩ :=
    founded.same { s.world with depth := s.world.depth + 1 } rfl rfl rfl
  have inner := h down founded₁
  constructor
  · intro v t run
    unfold deeper at run
    split at run
    · next u done =>
      cases run
      obtain ⟨grows, founded₂, hv⟩ := inner.ok _ _ done
      obtain ⟨up, founded₃⟩ :=
        founded₂.same { u.world with depth := u.world.depth - 1 } rfl rfl rfl
      exact ⟨(down.trans grows).trans up, founded₃, hv.mono up⟩
    · cases run
  · intro stop t run
    unfold deeper at run
    split at run
    · cases run
    · next u done =>
      cases run
      obtain ⟨grows, founded₂, allowed⟩ := inner.error _ _ done
      obtain ⟨up, founded₃⟩ :=
        founded₂.same { u.world with depth := u.world.depth - 1 } rfl rfl rfl
      exact ⟨(down.trans grows).trans up, founded₃, allowed⟩

/-! ### Classes -/

/-- A class is bound after all that it rests on was made. -/
theorem upheld_declareClass (founded : s.Founded S) {env : Nat}
    (there : env < s.world.frames.size) (going : List Activity) {name : Token}
    (named : name.IsName) {superclass : Option Reference} (known : ∀ ref ∈ superclass, S ref.name)
    {methods : List Function} (drawn : Function.AllDrawn S methods) :
    Upheld S free s (declareClass going env name superclass methods) fun _ _ => True := by
  have nil (w : World) : Value.nil.Founded S w := Value.founded_of_isPlain rfl
  -- a class has the name of a variable, so the frame's `this` stays
  have settable : env = Frames.root ∨ name.lexeme ≠ "this" := .inr named.ne_this
  cases superclass with
  | none =>
    refine (upheld_plain founded (Run.upheld_define founded.world (nil _) settable) going).bind
      fun _ t₁ grows₁ founded₁ _ => ?_
    refine (upheld_plain founded₁ (Run.upheld_makeMethods founded₁.world
      (there.trans_le grows₁.frames) drawn (by simp)) going).bind
        fun ms t₂ _ founded₂ hms => ?_
    refine (upheld_plain founded₂ (Run.upheld_fresh founded₂.world) going).bind
      fun id t₃ grows₃ founded₃ new => ?_
    have made : (Value.classObj ⟨id, name.lexeme, none, ms⟩).Founded S t₃.world :=
      Value.founded_class new.2 (by simp) fun binding mem => (hms binding mem).mono grows₃
    exact upheld_plain founded₃ (Run.upheld_define founded₃.world made settable) going
  | some ref =>
    refine (upheld_plain founded (Run.upheld_readSuperclass founded.world env (known ref rfl))
      going).bind fun parent t₁ grows₁ founded₁ hparent => ?_
    refine (upheld_plain founded₁ (Run.upheld_define founded₁.world (nil _) settable) going).bind
      fun _ t₂ grows₂ founded₂ _ => ?_
    refine (upheld_plain founded₂ (Run.upheld_newFrame founded₂.world
      ((there.trans_le grows₁.frames).trans_le grows₂.frames) fun _ _ bound =>
        Bindings.eq_of_get?_single bound ▸ hparent.mono grows₂) going).bind
          fun inner t₃ grows₃ founded₃ opened => ?_
    refine (upheld_plain founded₃ (Run.upheld_makeMethods founded₃.world opened.here drawn (by simp))
      going).bind fun ms t₄ grows₄ founded₄ hms => ?_
    refine (upheld_plain founded₄ (Run.upheld_fresh founded₄.world) going).bind
      fun id t₅ grows₅ founded₅ new => ?_
    have hparent₄ := ((hparent.mono grows₂).mono grows₃).mono grows₄
    have made : (Value.classObj ⟨id, name.lexeme, some parent, ms⟩).Founded S t₅.world := by
      refine Value.founded_class new.2 ?_ fun binding mem => (hms binding mem).mono grows₅
      rintro _ ⟨⟩
      exact ⟨hparent₄.mono grows₅, fun d hd => (hparent₄.known d hd).trans_le new.1⟩
    exact upheld_plain founded₅ (Run.upheld_define founded₅.world made settable) going

/-! ### Calls -/

/-- What is returned is founded. -/
def Returned (S : Token → Prop) (completion : Run.Completion) (w : World) : Prop :=
  ∀ v, completion = .returned v → v.Founded S w

/-- A statement that comes to its end gives nothing. -/
theorem upheld_normal (founded : s.Founded S) :
    Upheld S free s (pure .normal) (Returned S) :=
  upheld_pure founded fun v h => by cases h

/-- A statement returns a value that rests on the world. -/
theorem upheld_returned (founded : s.Founded S) {v : Value} (hv : v.Founded S s.world) :
    Upheld S free s (pure (.returned v)) (Returned S) := by
  refine upheld_pure founded ?_
  rintro _ ⟨⟩
  exact hv

/-- Statements in the same frame. -/
theorem upheld_runAll {exec : Stmt → Trace Run.Completion} {env : Nat}
    (h : ∀ {t : Traced} {stmt : Stmt}, t.Founded S → env < t.world.frames.size →
      stmt.Drawn S → Upheld S free t (exec stmt) (Returned S))
    (founded : s.Founded S) (there : env < s.world.frames.size) {body : List Stmt}
    (drawn : Stmt.AllDrawn S body) : Upheld S free s (runAll exec body) (Returned S) := by
  induction body generalizing s with
  | nil => exact upheld_normal founded
  | cons stmt rest ih =>
    refine (h founded there drawn.1).bind fun completion t grows founded₁ returned => ?_
    cases completion with
    | normal => exact ih founded₁ (there.trans_le grows.frames) drawn.2
    | returned v => exact upheld_returned founded₁ (returned v rfl)

/-- The arguments rest on the world when all of them are evaluated. -/
theorem upheld_mapM {eval : Expr → Trace Value} {env : Nat}
    (h : ∀ {t : Traced} {e : Expr}, t.Founded S → env < t.world.frames.size → e.Drawn S →
      Upheld S free t (eval e) fun v w => v.Founded S w)
    (founded : s.Founded S) (there : env < s.world.frames.size) {es : List Expr}
    (drawn : Expr.AllDrawn S es) :
    Upheld S free s (es.mapM eval) fun vs w => ∀ v ∈ vs, v.Founded S w := by
  induction es generalizing s with
  | nil => exact upheld_pure founded (by simp)
  | cons e rest ih =>
    rw [List.mapM_cons]
    refine (h founded there drawn.1).bind fun v t grows founded₁ hv => ?_
    refine (ih founded₁ (there.trans_le grows.frames) drawn.2).bind
      fun vs u grows₁ founded₂ hvs => ?_
    exact upheld_pure founded₂ (List.forall_mem_cons.mpr ⟨hv.mono grows₁, hvs⟩)

/-- An initializer answers its instance, since no statement of its body gives it another `this`. -/
theorem upheld_callClosure {body : List Activity → Nat → List Stmt → Trace Run.Completion}
    (h : ∀ {t : Traced} (going : List Activity) {env : Nat} {ss : List Stmt}, t.Founded S →
      env < t.world.frames.size → Stmt.AllDrawn S ss →
        Upheld S free t (body going env ss) (Returned S))
    (founded : s.Founded S) (going : List Activity) {f : Closure}
    (hf : (Value.function f).Founded S s.world) {args : List Value}
    (hargs : ∀ v ∈ args, v.Founded S s.world) :
    Upheld S True s (callClosure body going f args) fun v w => v.Founded S w ∧
      (f.isInit = true → f.BoundTo s.world v) := by
  -- the new frame holds arguments, and nothing else
  have bindings (name : String) (v : Value)
      (bound : Bindings.get? name (Run.bindArgs f.params args []) = some v) :
      v.Founded S s.world := by
    rcases Run.mem_of_get?_bindArgs bound with mem | none
    · exact hargs v mem
    · cases none
  unfold callClosure
  split
  · exact upheld_plain founded (Run.upheld_fail founded.world trivial _) going
  · refine (upheld_plain founded (Run.upheld_newFrame founded.world hf.function.frame bindings)
      going).bind fun env t grows founded₁ opened => ?_
    refine (h _ founded₁ opened.here hf.function.body).loosen.bind
      fun completion u grows₁ founded₂ returned => ?_
    refine (upheld_plain founded₂ (Run.upheld_answer founded₂.world f returned) going).imp
      fun v w answered => ⟨answered.1, fun init => ?_⟩
    -- an initializer stands right inside a frame with the instance, which nothing overwrites
    obtain ⟨inner, id, c, bound⟩ := hf.attached init
    have kept := (grows.trans grows₁).received f.frame _ inner bound
    exact bound.trans (kept.symm.trans (answered.2 init))

/-- A new instance rests on its class, and is there before its initializer is called. -/
theorem upheld_construct {callInit : Closure → List Value → Trace Value}
    (h : ∀ {t : Traced} {f : Closure} {args : List Value}, t.Founded S →
      (Value.function f).Founded S t.world → (∀ v ∈ args, v.Founded S t.world) →
        Upheld S True t (callInit f args) fun v w => v.Founded S w)
    (founded : s.Founded S) (going : List Activity) {c : Class}
    (hc : (Value.classObj c).Founded S s.world) {args : List Value}
    (hargs : ∀ v ∈ args, v.Founded S s.world) :
    Upheld S True s (construct callInit going c args) fun v w => v.Founded S w := by
  refine (upheld_plain founded (Run.upheld_newObject founded.world) going).bind
    fun id t grows founded₁ here => ?_
  have made := (hc.mono grows).object here
  dsimp only
  cases found : c.method? initName with
  | none => exact upheld_pure founded₁ made
  | some init =>
    refine (upheld_plain founded₁ (Run.upheld_bindMethod founded₁.world
      ((hc.mono grows).method found) made) going).bind fun f u grows₁ founded₂ hf => ?_
    refine (h founded₂ hf fun v hv => ((hargs v hv).mono grows).mono grows₁).discard.bind
      fun _ x grows₂ founded₃ _ => ?_
    exact upheld_pure founded₃ ((made.mono grows₁).mono grows₂)

/-- A call that is refused stops at its own token. -/
theorem upheld_guarded (founded : s.Founded S) (maxDepth : Nat) (going : List Activity)
    {paren : Token} (known : S paren) {act : Trace Value}
    (h : ∀ {t : Traced}, s.world.Grows t.world → t.Founded S →
      Upheld S True t act fun v w => v.Founded S w) :
    Upheld S free s (guarded maxDepth going paren act) fun v w => v.Founded S w := by
  refine upheld_get ?_
  split
  · exact upheld_plain founded (Run.upheld_raise founded.world known _) going
  · exact (upheld_deeper founded h).placedAt known free

/-- A call gives what rests on the world, and stops only at places. -/
theorem upheld_call {invoke : List Activity → Callable → List Value → Trace Value}
    (h : ∀ {t : Traced} (going : List Activity) {f : Callable} {args : List Value}, t.Founded S →
      f.value.Founded S t.world → (∀ v ∈ args, v.Founded S t.world) →
        Upheld S True t (invoke going f args) fun v w => v.Founded S w)
    (founded : s.Founded S) (maxDepth : Nat) (going : List Activity) {paren : Token}
    (known : S paren) {callee : Value} (hcallee : callee.Founded S s.world) {args : List Value}
    (hargs : ∀ v ∈ args, v.Founded S s.world) :
    Upheld S free s (call maxDepth invoke going paren callee args) fun v w => v.Founded S w := by
  unfold call
  cases found : callee.callable? with
  | none => exact upheld_plain founded (Run.upheld_raise founded.world known _) going
  | some f =>
    rw [Value.callable?_eq_some found] at hcallee
    dsimp only
    split
    · exact upheld_plain founded (Run.upheld_raise founded.world known _) going
    · exact upheld_guarded founded maxDepth going known fun grows founded₁ =>
        h _ founded₁ (hcallee.mono grows) fun v hv => (hargs v hv).mono grows

/-! ### Evaluation -/

/-- With so much fuel, evaluation keeps the worlds founded. -/
structure UpheldAll (S : Token → Prop) (m : Machine) (n : Nat) : Prop where
  eval : ∀ {s : Traced} (going : List Activity) {env : Nat} {e : Expr}, s.Founded S →
    env < s.world.frames.size → e.Drawn S →
      Upheld S (m.sink.capacity ≠ none) s (eval m n going env e) fun v w => v.Founded S w
  exec : ∀ {s : Traced} (going : List Activity) {env : Nat} {stmt : Stmt}, s.Founded S →
    env < s.world.frames.size → stmt.Drawn S →
      Upheld S (m.sink.capacity ≠ none) s (exec m n going env stmt) (Returned S)
  invoke : ∀ {s : Traced} (going : List Activity) {f : Callable} {args : List Value},
    s.Founded S → f.value.Founded S s.world → (∀ v ∈ args, v.Founded S s.world) →
      Upheld S True s (invoke m n going f args) fun v w => v.Founded S w

section Round

variable {m : Machine} {n : Nat}

/-- One step inward of an expression upholds the order of the world. -/
theorem UpheldAll.eval_succ (ih : UpheldAll S m n) (going : List Activity) {env : Nat} {e : Expr}
    (founded : s.Founded S) (there : env < s.world.frames.size) (drawn : e.Drawn S) :
    Upheld S (m.sink.capacity ≠ none) s (Trace.eval m (n + 1) going env e)
      fun v w => v.Founded S w := by
  refine upheld_giving ?_ (fun _ _ => id) going
  -- the cases follow `Trace.eval`; what a part leaves is what the next one starts from
  cases e with
  | number | string | bool | nil => exact upheld_pure founded (Value.founded_of_isPlain rfl)
  | gap => exact drawn.elim
  | «variable» | this =>
    exact upheld_plain founded (Run.upheld_readRef founded.world env drawn) going
  | «super» ref method =>
    exact upheld_plain founded (Run.upheld_superMethod founded.world env drawn.1 drawn.2) going
  | lambda keyword params body =>
    exact (upheld_plain founded (Run.upheld_makeFunction founded.world there _ params drawn.2.2)
      going).bind fun f t _ founded₁ hf => upheld_pure founded₁ hf
  | assign ref value =>
    refine (ih.eval going founded there drawn.2).bind fun v t _ founded₁ hv => ?_
    exact (upheld_plain founded₁ (Run.upheld_assignRef founded₁.world env drawn.1.1 drawn.1.2 hv)
      going).bind fun _ u grows founded₂ _ => upheld_pure founded₂ (hv.mono grows)
  | unary op operand =>
    exact (ih.eval going founded there drawn.2).bind fun v t _ founded₁ _ =>
      upheld_plain founded₁ (Run.upheld_applyUnary founded₁.world drawn.1 v) going
  | binary op left right =>
    refine (ih.eval going founded there drawn.2.1).bind fun a t grows founded₁ _ => ?_
    exact (ih.eval going founded₁ (there.trans_le grows.frames) drawn.2.2).bind
      fun b u _ founded₂ _ =>
        upheld_plain founded₂ (Run.upheld_applyBinary founded₂.world drawn.1 a b) going
  | logical op left right =>
    refine (ih.eval going founded there drawn.2.1).bind fun v t grows founded₁ hv => ?_
    split
    · exact upheld_pure founded₁ hv
    · exact ih.eval going founded₁ (there.trans_le grows.frames) drawn.2.2
  | group inner => exact ih.eval going founded there drawn
  | call callee paren args =>
    refine (ih.eval going founded there drawn.1).bind fun f t grows founded₁ hf => ?_
    refine (upheld_mapM (ih.eval going) founded₁ (there.trans_le grows.frames) drawn.2.2).bind
      fun vs u grows₁ founded₂ hvs => ?_
    exact upheld_call ih.invoke founded₂ m.maxDepth going drawn.2.1 (hf.mono grows₁) hvs
  | get object name =>
    exact (ih.eval going founded there drawn.1).bind fun v t _ founded₁ hv =>
      upheld_plain founded₁ (Run.upheld_getMember founded₁.world hv drawn.2) going
  | set object name value =>
    refine (ih.eval going founded there drawn.1).bind fun o t grows founded₁ _ => ?_
    refine (upheld_plain founded₁ (Run.upheld_fieldOwner founded₁.world o drawn.2.1) going).bind
      fun owner u grows₁ founded₂ _ => ?_
    refine (ih.eval going founded₂ ((there.trans_le grows.frames).trans_le grows₁.frames)
      drawn.2.2).bind fun v x _ founded₃ hv => ?_
    exact (upheld_plain founded₃ (Run.upheld_setField founded₃.world hv owner _) going).bind
      fun _ y grows₂ founded₄ _ => upheld_pure founded₄ (hv.mono grows₂)

/-- One step inward of a statement upholds the order of the world. -/
theorem UpheldAll.exec_succ (ih : UpheldAll S m n) (going : List Activity) {env : Nat}
    {stmt : Stmt} (founded : s.Founded S) (there : env < s.world.frames.size)
    (drawn : stmt.Drawn S) :
    Upheld S (m.sink.capacity ≠ none) s (Trace.exec m (n + 1) going env stmt) (Returned S) := by
  -- the cases follow `Trace.exec`; only a return gives a value
  cases stmt with
  | expr e =>
    exact (ih.eval going founded there drawn).discard.bind fun _ t _ founded₁ _ =>
      upheld_normal founded₁
  | print e =>
    refine (ih.eval going founded there drawn).bind fun v t _ founded₁ _ => ?_
    exact (upheld_write founded₁ m.sink going v.text).bind fun _ u _ founded₂ _ =>
      upheld_normal founded₂
  | var name init =>
    cases init with
    | none =>
      have nil : Value.nil.Founded S s.world := Value.founded_of_isPlain rfl
      exact (upheld_plain founded (Run.upheld_define founded.world nil
        (.inr drawn.2.ne_this)) going).bind
        fun _ t _ founded₁ _ => upheld_normal founded₁
    | some init =>
      refine (ih.eval going founded there drawn.2).bind fun v t _ founded₁ hv => ?_
      exact (upheld_plain founded₁ (Run.upheld_define founded₁.world hv
        (.inr drawn.1.2.ne_this)) going).bind
        fun _ u _ founded₂ _ => upheld_normal founded₂
  | block body =>
    refine (upheld_plain founded (Run.upheld_newFrame founded.world there (by simp)) going).bind
      fun inner t _ founded₁ opened => ?_
    exact upheld_runAll (ih.exec going) founded₁ opened.here drawn
  | cond test yes no =>
    have htest : test.Drawn S ∧ yes.Drawn S ∧ ∀ s ∈ no, s.Drawn S := by
      cases no with
      | none => exact ⟨drawn.1, drawn.2, by simp⟩
      | some no => exact ⟨drawn.1, drawn.2.1, by simpa using drawn.2.2⟩
    obtain ⟨htest, hyes, hno⟩ := htest
    refine (ih.eval going founded there htest).bind fun v t grows founded₁ _ => ?_
    split
    · exact ih.exec going founded₁ (there.trans_le grows.frames) hyes
    · cases no with
      | none => exact upheld_normal founded₁
      | some no => exact ih.exec going founded₁ (there.trans_le grows.frames) (hno no rfl)
  | loop test body =>
    refine (ih.eval going founded there drawn.1).bind fun v t grows founded₁ _ => ?_
    split
    · refine (ih.exec going founded₁ (there.trans_le grows.frames) drawn.2).bind
        fun completion u grows₁ founded₂ returned => ?_
      cases completion with
      | returned v => exact upheld_returned founded₂ (returned v rfl)
      | normal =>
        exact ih.exec going founded₂ ((there.trans_le grows.frames).trans_le grows₁.frames) drawn
    · exact upheld_normal founded₁
  | function decl =>
    obtain ⟨name, params, body⟩ := decl
    refine (upheld_plain founded (Run.upheld_makeFunction founded.world there _ params drawn.2.2)
      going).bind fun f t _ founded₁ hf => ?_
    exact (upheld_plain founded₁ (Run.upheld_define founded₁.world hf (.inr drawn.1.2.ne_this))
      going).bind fun _ u _ founded₂ _ => upheld_normal founded₂
  | ret keyword value =>
    cases value with
    | none => exact upheld_returned founded (Value.founded_of_isPlain rfl)
    | some value =>
      exact (ih.eval going founded there drawn.2).bind fun v t _ founded₁ hv =>
        upheld_returned founded₁ hv
  | classDecl name superclass methods =>
    exact (upheld_declareClass founded there going drawn.1.2 drawn.2.1 drawn.2.2).bind
      fun _ t _ founded₁ _ => upheld_normal founded₁
  | gap => exact drawn.elim

/-- The statements of a body uphold it in turn. -/
theorem UpheldAll.body (ih : UpheldAll S m n) (going : List Activity) {env : Nat} {ss : List Stmt}
    (founded : s.Founded S) (there : env < s.world.frames.size) (drawn : Stmt.AllDrawn S ss) :
    Upheld S (m.sink.capacity ≠ none) s (runAll (Trace.exec m n going env) ss) (Returned S) :=
  upheld_runAll (ih.exec going) founded there drawn

/-- A function is called in a new frame around the one it was made in. -/
theorem UpheldAll.function_succ (ih : UpheldAll S m n) (going : List Activity) {f : Closure}
    {args : List Value} (founded : s.Founded S) (hf : (Value.function f).Founded S s.world)
    (hargs : ∀ v ∈ args, v.Founded S s.world) :
    Upheld S True s (Trace.invoke m (n + 1) going (.function f) args) fun v w =>
      v.Founded S w ∧ (f.isInit = true → f.BoundTo s.world v) :=
  upheld_giving (upheld_callClosure ih.body founded going hf hargs) (fun _ _ => And.left) going

/-- One step inward of a call upholds the order of the world, whatever is called. -/
theorem UpheldAll.invoke_succ (ih : UpheldAll S m n) (going : List Activity) {f : Callable}
    {args : List Value} (founded : s.Founded S) (hf : f.value.Founded S s.world)
    (hargs : ∀ v ∈ args, v.Founded S s.world) :
    Upheld S True s (Trace.invoke m (n + 1) going f args) fun v w => v.Founded S w := by
  cases f with
  | function f =>
    exact (ih.function_succ going founded hf hargs).imp fun _ _ answered => answered.1
  | native f =>
    refine upheld_giving ?_ (fun _ _ => id) going
    refine (upheld_plain founded (Run.upheld_ask founded.world) going).bind
      fun before t grows founded₁ _ => ?_
    exact safe_perform (Traced.lasting_graph S) (fun _ => trivial) (fun _ => trivial)
      (fun founded hf hargs => (ih.invoke going founded hf hargs).telling _) founded₁
      (fun v hv => (hargs v hv).mono grows) (by simp) _
  | classObj c =>
    refine upheld_giving ?_ (fun _ _ => id) going
    refine upheld_construct (fun founded hf hargs => ?_) founded going hf hargs
    exact (upheld_callClosure ih.body founded going hf hargs).imp fun _ _ answered => answered.1

end Round

/-- Evaluation upholds the order of the world, whatever the fuel. -/
theorem upheldAll (m : Machine) (n : Nat) : UpheldAll S m n := by
  induction n with
  | zero =>
    exact ⟨fun _ _ _ founded _ _ => upheld_outOfFuel founded,
      fun _ _ _ founded _ _ => upheld_outOfFuel founded,
      fun _ _ _ founded _ _ => upheld_outOfFuel founded⟩
  | succ n ih => exact ⟨ih.eval_succ, ih.exec_succ, ih.invoke_succ⟩

/-- The statements of a program uphold the order of the world. -/
theorem upheld_execTop (m : Machine) (founded : s.Founded S)
    {body : List Stmt} (drawn : Stmt.AllDrawn S body) :
    Upheld S (m.sink.capacity ≠ none) s (execTop m body) fun _ _ => True := by
  induction body generalizing s with
  | nil => exact upheld_pure founded trivial
  | cons stmt rest ih =>
    exact ((upheldAll m m.fuel).exec [] founded founded.world.nested.rooted
      drawn.1).discard.bind fun _ t _ founded₁ _ => ih founded₁ drawn.2

/-- A program whose tokens are of `S` keeps its worlds founded. -/
theorem upheld_program (m : Machine) (founded : s.Founded S)
    {p : Program} (drawn : Stmt.AllDrawn S p.body) :
    Upheld S (m.sink.capacity ≠ none) s (program m p) fun _ _ => True := by
  obtain ⟨grows, founded₁⟩ := founded.world.same { s.world with depth := 0 } rfl rfl rfl
  have reset : Run.Upheld S (m.sink.capacity ≠ none) s.world
      (modify fun w => { w with depth := 0 }) fun _ _ => True :=
    safe_of_ok (t := { s.world with depth := 0 }) rfl grows founded₁ trivial
  exact (upheld_plain founded reset []).bind fun _ t _ founded₂ _ =>
    upheld_execTop m founded₂ drawn

end Trace

end Lox
