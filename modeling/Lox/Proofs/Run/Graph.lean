import Lox.Proofs.Run.Frames
import Lox.Proofs.Run.Invariant
import Lox.Proofs.Run.Operator
import Lox.Proofs.Syntax.Drawn
import Lox.Run.Member
import Mathlib.Order.Nat

/-!
The graph of frames, functions and classes. Frames lie inside older ones, and only the frame of the
globals lies in none; a function is made in a frame that is there; a class comes after the one it
inherits from. Whatever is bound anew, nothing of this changes, so every walk outward or upward
ends. No frame but that of the globals gets another `this`, so an initializer stays with the
instance that it is bound to.
-/

namespace Lox

/-! ### Frames -/

namespace Frames

variable {α : Type} {fs : Frames α} {e : Nat}

/-- The frames from one outward, as their parents tell, up to one that has none. -/
inductive Chain (fs : Frames α) : Nat → List Nat → Prop where
  | last {e : Nat} : fs.parent? e = none → Chain fs e [e]
  | step {e p : Nat} {rest : List Nat} : fs.parent? e = some p → Chain fs p rest →
      Chain fs e (e :: rest)

/-- To go so many steps outward is to go along the chain. -/
theorem Chain.stepsOut? {chain : List Nat} (h : fs.Chain e chain) (d : Nat) :
    fs.stepsOut? e d = chain[d]? := by
  induction h generalizing d with
  | last top =>
    cases d with
    | zero => rfl
    | succ d => simp [Frames.stepsOut?, top]
  | step parent _ ih =>
    cases d with
    | zero => rfl
    | succ d => simpa [Frames.stepsOut?, parent] using ih d

/-- Where every frame lies in an older one there is a way out of it, and it is the one that lookups
by name go. -/
theorem chain_of_older (older : ∀ e p, fs.parent? e = some p → p < e) (e : Nat) :
    fs.Chain e (fs.outward e) := by
  induction e using Nat.strongRecOn with
  | ind e ih =>
    rw [outward]
    cases parent : fs.parent? e with
    | none => exact .last parent
    | some p =>
      have inside := older e p parent
      dsimp only
      rw [if_pos inside]
      exact .step parent (ih p inside)

/-- The outermost frame is there and lies in no other, and every other frame lies in an older one.
-/
structure Nested (fs : Frames α) : Prop where
  rooted : 0 < fs.size
  outermost : fs.parent? root = none
  inside : ∀ e, e < fs.size → e ≠ root → ∃ p, fs.parent? e = some p ∧ p < e

namespace Nested

/-- The frame around a frame was made before it. -/
theorem older (nested : fs.Nested) {p : Nat} (h : fs.parent? e = some p) : p < e := by
  have outer : e ≠ root := by
    rintro rfl
    rw [nested.outermost] at h
    cases h
  obtain ⟨q, found, older⟩ := nested.inside e (lt_size_of_parent? _ h) outer
  rw [found] at h
  cases h
  exact older

/-- Only the outermost frame has none around it. -/
theorem eq_root (nested : fs.Nested) (here : e < fs.size) (top : fs.parent? e = none) :
    e = root := by
  by_contra outer
  obtain ⟨p, found, -⟩ := nested.inside e here outer
  rw [top] at found
  cases found

/-- To bind a name leaves the order of the frames alone. -/
theorem define (nested : fs.Nested) (e : Nat) (name : String) (a : α) :
    (fs.define e name a).Nested where
  rooted := by simpa using nested.rooted
  outermost := by simpa using nested.outermost
  inside e' here outer := by simpa using nested.inside e' (by simpa using here) outer

/-- A frame that is made around one that is there is the youngest. -/
theorem push (nested : fs.Nested) {parent : Nat} (there : parent < fs.size)
    (bindings : Bindings α) : (fs.push (some parent) bindings).Nested where
  rooted := by simp
  outermost := by
    have old : root ≠ fs.size := Nat.ne_of_lt nested.rooted
    rw [parent?_push, if_neg old, nested.outermost]
  inside e here outer := by
    rw [parent?_push]
    split
    · next new => exact ⟨parent, rfl, new ▸ there⟩
    · next old =>
      rw [size_push] at here
      exact nested.inside e (by omega) outer

/-- From every frame there is a way out. -/
theorem chain (nested : fs.Nested) (e : Nat) : fs.Chain e (fs.outward e) :=
  chain_of_older (fun _ _ => nested.older) e

/-- Every way out ends in the frame of the globals. -/
theorem ends (nested : fs.Nested) {chain : List Nat} (h : fs.Chain e chain) (here : e < fs.size) :
    chain.getLast? = some root := by
  induction h with
  | last top => exact congrArg some (nested.eq_root here top)
  | step parent _ ih =>
    rw [List.getLast?_cons, ih ((nested.older parent).trans here)]
    rfl

end Nested

end Frames

/-! ### Classes and functions -/

/-- The class and those it inherits from, nearest first. -/
def Class.lineage : Class → List Class
  | ⟨id, name, none, methods⟩ => [⟨id, name, none, methods⟩]
  | ⟨id, name, some c, methods⟩ => ⟨id, name, some c, methods⟩ :: c.lineage

/-- Methods are searched along the lineage. -/
theorem Class.method?_eq (name : String) : (c : Class) →
    c.method? name = c.lineage.findSome? fun d => Bindings.get? name d.methods
  | ⟨_, _, none, methods⟩ => by
    rw [method?, lineage, List.findSome?_cons]
    cases Bindings.get? name methods <;> rfl
  | ⟨_, _, some c, methods⟩ => by
    rw [method?, lineage, List.findSome?_cons, c.method?_eq name]
    cases Bindings.get? name methods <;> rfl

namespace Value

/-- The classes that the value has a hold of. -/
def classes : Value → List Class
  | classObj c | object _ c => c.lineage
  | _ => []

/-- The functions that the value is, or has for methods. -/
def closures : Value → List Closure
  | function f => [f]
  | v => v.classes.flatMap fun c => c.methods.map (·.2)

end Value

namespace Bindings

variable {α : Type} {name : String} {a : α} {bindings : Bindings α}

/-- What is found under a name stands in the list. -/
theorem mem_of_get? (h : get? name bindings = some a) : (name, a) ∈ bindings := by
  obtain ⟨before, after, rfl, -⟩ := List.lookup_eq_some_iff.mp h
  exact List.mem_append_right _ List.mem_cons_self

/-- After a binding there is what was there, and the new one. -/
theorem mem_insert {binding : String × α} (h : binding ∈ insert name a bindings) :
    binding = (name, a) ∨ binding ∈ bindings := by
  induction bindings with
  | nil => exact .inl (List.mem_singleton.mp h)
  | cons first rest ih =>
    rw [insert] at h
    split at h
    · exact (List.mem_cons.mp h).imp_right (List.mem_cons_of_mem _)
    · rcases List.mem_cons.mp h with rfl | later
      · exact .inr List.mem_cons_self
      · exact (ih later).imp_right (List.mem_cons_of_mem _)

end Bindings

/-! ### What a world is founded on -/

section Founded

variable (S : Token → Prop) (w : World)

/-- The frame of the function is there, and its body is drawn from `S`. -/
structure Closure.Founded (f : Closure) : Prop where
  frame : f.frame < w.frames.size
  body : Stmt.AllDrawn S f.body

/-- The frame around the function has the value as `this`. -/
def Closure.BoundTo (f : Closure) (object : Value) : Prop :=
  w.frames.own? f.frame "this" = some object

/-- The function is bound to an instance, and not by the globals. -/
structure Closure.Received (f : Closure) : Prop where
  inner : f.frame ≠ Frames.root
  object : ∃ id c, f.BoundTo w (.object id c)

/-- An instance is there, and an initializer is bound to one. -/
def Value.Attached : Value → Prop
  | .function f => f.isInit = true → f.Received w
  | .object id _ => id < w.objects.size
  | _ => True

/-- The functions of the value have their frames, and its classes come after those they inherit
from. -/
structure Value.Founded (v : Value) : Prop where
  closures : ∀ f ∈ v.closures, f.Founded S w
  falling : (v.classes.map (·.id)).Pairwise (· > ·)
  known : ∀ c ∈ v.classes, c.id < w.stamp
  attached : v.Attached w

/-- The value is bound in a frame, or a field has it. -/
def World.Holds (v : Value) : Prop :=
  (∃ e name, w.frames.own? e name = some v) ∨
    ∃ (id : Nat) (name : String), w.objects[id]?.bind (Bindings.get? name) = some v

structure World.Founded : Prop where
  nested : w.frames.Nested
  held : ∀ v, w.Holds v → v.Founded S w

end Founded

/-- No frame, no identity and no instance is taken back, and `this` stays what it is in every frame
but that of the globals. -/
structure World.Grows (w w' : World) : Prop where
  frames : w.frames.size ≤ w'.frames.size
  stamp : w.stamp ≤ w'.stamp
  objects : w.objects.size ≤ w'.objects.size
  received : ∀ e v, e ≠ Frames.root → w.frames.own? e "this" = some v →
    w'.frames.own? e "this" = some v

/-- Worlds grow and grow on. -/
theorem World.Grows.trans {w w' w'' : World} (h : w.Grows w') (h' : w'.Grows w'') : w.Grows w'' :=
  ⟨h.frames.trans h'.frames, h.stamp.trans h'.stamp, h.objects.trans h'.objects,
    fun e v inner bound => h'.received e v inner (h.received e v inner bound)⟩

/-- A world grows if no frame is changed and no identity or instance is taken back. -/
theorem World.Grows.of_frames_eq {w w' : World} (frames : w'.frames = w.frames)
    (stamp : w.stamp ≤ w'.stamp) (objects : w.objects.size ≤ w'.objects.size) : w.Grows w' :=
  ⟨frames ▸ Nat.le_refl _, stamp, objects, fun _ _ _ bound => frames ▸ bound⟩

theorem World.Grows.refl (w : World) : w.Grows w :=
  .of_frames_eq rfl (Nat.le_refl _) (Nat.le_refl _)

/-- Worlds are founded and grow. -/
def World.graph (S : Token → Prop) : Invariant World where
  holds := World.Founded S
  grows := World.Grows
  refl := .refl
  trans := .trans

variable {S : Token → Prop} {w w' : World}

/-- What a function rests on stays there. -/
theorem Closure.Founded.mono (h : w.Grows w') {f : Closure} (founded : f.Founded S w) :
    f.Founded S w' :=
  ⟨founded.frame.trans_le h.frames, founded.body⟩

/-- A function that has its instance keeps it. -/
theorem Closure.Received.mono (h : w.Grows w') {f : Closure} (received : f.Received w) :
    f.Received w' := by
  obtain ⟨inner, id, c, bound⟩ := received
  exact ⟨inner, id, c, h.received f.frame _ inner bound⟩

namespace Value

/-- An initializer that has its instance keeps it. -/
theorem Attached.mono (h : w.Grows w') {v : Value} (attached : v.Attached w) : v.Attached w' := by
  cases v with
  | function f => exact fun init => (attached init).mono h
  | object id c => exact Nat.lt_of_lt_of_le attached h.objects
  | _ => trivial

/-- A value that rests on the world rests on every world that it grows to. -/
theorem Founded.mono (h : w.Grows w') {v : Value} (founded : v.Founded S w) : v.Founded S w' :=
  ⟨fun f hf => (founded.closures f hf).mono h, founded.falling,
    fun c hc => (founded.known c hc).trans_le h.stamp, founded.attached.mono h⟩

/-- Values without parts rest on nothing. -/
theorem founded_of_isPlain {v : Value} (plain : v.isPlain = true) : v.Founded S w := by
  cases v with
  | function | classObj | object => cases plain
  | _ => exact ⟨by simp [closures, classes], by simp [classes], by simp [classes], trivial⟩

/-- A function rests on its frame, and an initializer on its instance too. -/
theorem founded_function {f : Closure} (h : f.Founded S w)
    (received : f.isInit = true → f.Received w) : (Value.function f).Founded S w :=
  ⟨by simpa [closures] using h, by simp [classes], by simp [classes], received⟩

/-- A function that is a value rests on its frame. -/
theorem Founded.function {f : Closure} (h : (Value.function f).Founded S w) : f.Founded S w :=
  h.closures f (List.mem_singleton_self f)

/-- An instance rests on what its class rests on. -/
theorem Founded.object {c : Class} (h : (classObj c).Founded S w) {id : Nat}
    (here : id < w.objects.size) : (Value.object id c).Founded S w :=
  ⟨h.closures, h.falling, h.known, here⟩

/-- The class of an instance rests on what the instance rests on. -/
theorem Founded.ofObject {id : Nat} {c : Class} (h : (Value.object id c).Founded S w) :
    (classObj c).Founded S w :=
  ⟨h.closures, h.falling, h.known, trivial⟩

/-- The methods of a class, its own and those it inherits, rest on their frames. -/
theorem Founded.method {c : Class} (h : (classObj c).Founded S w) {name : String} {f : Closure}
    (found : c.method? name = some f) : f.Founded S w := by
  rw [Class.method?_eq] at found
  obtain ⟨d, hd, bound⟩ := List.exists_of_findSome?_eq_some found
  refine h.closures f ?_
  exact List.mem_flatMap.mpr ⟨d, hd, List.mem_map.mpr ⟨_, Bindings.mem_of_get? bound, rfl⟩⟩

/-- A new class is founded if its methods are, and if it comes after those it inherits from. -/
theorem founded_class {id : Nat} {name : String} {superclass : Option Class}
    {methods : Bindings Closure} (new : id < w.stamp)
    (inherited : ∀ c ∈ superclass, (classObj c).Founded S w ∧ ∀ d ∈ c.lineage, d.id < id)
    (own : ∀ binding ∈ methods, binding.2.Founded S w) :
    (classObj ⟨id, name, superclass, methods⟩).Founded S w := by
  -- its own methods first, then those of the classes above it
  have ownClosures : ∀ f ∈ methods.map (·.2), f.Founded S w := by
    intro f hf
    obtain ⟨binding, mem, rfl⟩ := List.mem_map.mp hf
    exact own binding mem
  cases superclass with
  | none =>
    refine ⟨fun f hf => ownClosures f ?_, ?_, ?_, trivial⟩
    · simpa [closures, classes, Class.lineage] using hf
    · simp [classes, Class.lineage]
    · simpa [classes, Class.lineage] using new
  | some c =>
    obtain ⟨founded, later⟩ := inherited c rfl
    refine ⟨fun f hf => ?_, ?_, ?_, trivial⟩
    · rw [closures, classes, Class.lineage, List.flatMap_cons, List.mem_append] at hf
      · rcases hf with mine | theirs
        · exact ownClosures f mine
        · exact founded.closures f theirs
      · simp
    -- stamps fall along the classes, so no class is above itself
    · refine List.pairwise_cons.mpr ⟨fun i hi => ?_, founded.falling⟩
      obtain ⟨d, hd, rfl⟩ := List.mem_map.mp hi
      exact later d hd
    · exact List.forall_mem_cons.mpr ⟨new, founded.known⟩

end Value

/-! ### Steps -/

/-- The world is still founded if all that is new in it is. -/
theorem World.Founded.step (founded : w.Founded S) (grows : w.Grows w') (nested : w'.frames.Nested)
    (held : ∀ v, w'.Holds v → w.Holds v ∨ v.Founded S w') : w'.Founded S := by
  refine ⟨nested, fun v hv => ?_⟩
  rcases held v hv with old | new
  · exact (founded.held v old).mono grows
  · exact new

/-- Neither what is printed nor how many calls are going on matters. -/
theorem World.Founded.same (founded : w.Founded S) (w' : World) (frames : w'.frames = w.frames)
    (objects : w'.objects = w.objects) (stamp : w'.stamp = w.stamp) :
    w.Grows w' ∧ w'.Founded S := by
  have grows : w.Grows w' :=
    .of_frames_eq frames (stamp ▸ Nat.le_refl _) (objects ▸ Nat.le_refl _)
  refine ⟨grows, founded.step grows (frames ▸ founded.nested) fun v hv => .inl ?_⟩
  rwa [World.Holds, frames, objects] at hv

namespace Run

open Invariant

variable {α : Type} {free : Prop}

/-- From a world on, the part of a run keeps the world founded and stops only at tokens of `S`, or
without a place if that is to be expected. -/
abbrev Upheld (S : Token → Prop) (free : Prop) (w : World) (act : Run α)
    (post : α → World → Prop) : Prop :=
  (World.graph S).Safe (Stop.From S free) w act post

/-- A fault is at a token of a program that was run. -/
theorem upheld_raise {post : α → World → Prop} (founded : w.Founded S) {token : Token}
    (known : S token) (fault : Fault) : Upheld S free w (raise token fault) post :=
  safe_throw founded known

theorem upheld_fail {post : α → World → Prop} (founded : w.Founded S) (expected : free)
    (fault : Fault) : Upheld S free w (fail fault) post :=
  safe_throw founded expected

/-- Only among the globals may `this` be set, as any other name. -/
theorem upheld_define (founded : w.Founded S) {v : Value} (hv : v.Founded S w) {env : Nat}
    {name : String} (settable : env = Frames.root ∨ name ≠ "this") :
    Upheld S free w (define env name v) fun _ _ => True := by
  have grows : w.Grows { w with frames := w.frames.define env name v } := by
    refine ⟨by simp, Nat.le_refl _, Nat.le_refl _, fun e u inner bound => ?_⟩
    dsimp only
    rw [Frames.own?_define, if_neg, bound]
    rintro ⟨rfl, -, rfl⟩
    exact settable.elim inner fun other => other rfl
  refine safe_of_ok rfl grows (founded.step grows (founded.nested.define ..) ?_) trivial
  rintro u (⟨e, name', bound⟩ | field)
  · dsimp only at bound
    rw [Frames.own?_define] at bound
    split at bound
    · cases bound
      exact .inr (hv.mono grows)
    · exact .inl (.inl ⟨e, name', bound⟩)
  · exact .inl (.inr field)

/-- A frame of a run, with what it was made for. -/
structure Opened (w : World) (e : Nat) (bindings : Bindings Value) : Prop where
  here : e < w.frames.size
  inner : e ≠ Frames.root
  own : ∀ name, w.frames.own? e name = Bindings.get? name bindings

/-- A new frame is made around one that is there, and what it binds is there too. -/
theorem upheld_newFrame (founded : w.Founded S) {parent : Nat} (there : parent < w.frames.size)
    {bindings : Bindings Value}
    (hbindings : ∀ name v, Bindings.get? name bindings = some v → v.Founded S w) :
    Upheld S free w (newFrame parent bindings) fun e w' => Opened w' e bindings := by
  -- the frame is new, so no binding was there to lose
  have grows : w.Grows { w with frames := w.frames.push (some parent) bindings } := by
    refine ⟨by simp, Nat.le_refl _, Nat.le_refl _, fun e v _ bound => ?_⟩
    dsimp only
    rw [Frames.own?_push, if_neg, bound]
    rintro rfl
    rw [Frames.own?_eq_none _ (Nat.le_refl _)] at bound
    cases bound
  have opened : Opened { w with frames := w.frames.push (some parent) bindings } w.frames.size
      bindings :=
    ⟨by simp, Nat.ne_of_gt founded.nested.rooted, fun name => by rw [Frames.own?_push, if_pos rfl]⟩
  refine safe_of_ok rfl grows (founded.step grows (founded.nested.push there _) ?_) opened
  rintro u (⟨e, name, bound⟩ | field)
  · dsimp only at bound
    rw [Frames.own?_push] at bound
    split at bound
    · exact .inr ((hbindings name u bound).mono grows)
    · exact .inl (.inl ⟨e, name, bound⟩)
  · exact .inl (.inr field)

/-- An identity is new when it is taken, and known from then on. -/
theorem upheld_fresh (founded : w.Founded S) :
    Upheld S free w fresh fun id w' => w.stamp ≤ id ∧ id < w'.stamp := by
  have grows : w.Grows { w with stamp := w.stamp + 1 } :=
    .of_frames_eq rfl (Nat.le_succ _) (Nat.le_refl _)
  exact safe_of_ok rfl grows (founded.step grows founded.nested fun _ hv => .inl hv)
    ⟨Nat.le_refl _, Nat.lt_succ_self _⟩

theorem upheld_ask (founded : w.Founded S) : Upheld S free w ask fun _ _ => True := by
  obtain ⟨grows, founded'⟩ := founded.same { w with asked := w.asked + 1 } rfl rfl rfl
  exact safe_of_ok rfl grows founded' trivial

/-- A new instance has no fields. -/
theorem upheld_newObject (founded : w.Founded S) :
    Upheld S free w newObject fun id w' => id < w'.objects.size := by
  have grows : w.Grows { w with objects := w.objects.push [] } :=
    .of_frames_eq rfl (Nat.le_refl _) (by simp)
  refine safe_of_ok rfl grows (founded.step grows founded.nested ?_) (by simp)
  rintro u (bound | ⟨id, name, field⟩)
  · exact .inl (.inl bound)
  · dsimp only at field
    rw [Array.getElem?_push] at field
    split at field
    · cases field
    · exact .inl (.inr ⟨id, name, field⟩)

/-- A field is given a value that is there. -/
theorem upheld_setField (founded : w.Founded S) {v : Value} (hv : v.Founded S w) (id : Nat)
    (name : String) : Upheld S free w (setField id name v) fun _ _ => True := by
  have grows : w.Grows { w with objects := w.objects.modify id (Bindings.insert name v) } :=
    .of_frames_eq rfl (Nat.le_refl _) (by simp)
  refine safe_of_ok rfl grows (founded.step grows founded.nested ?_) trivial
  rintro u (bound | ⟨id', name', field⟩)
  · exact .inl (.inl bound)
  · obtain ⟨fields, hfields, found⟩ := Option.bind_eq_some_iff.mp field
    dsimp only at hfields
    rw [Array.getElem?_modify] at hfields
    split at hfields
    · next same =>
      subst same
      obtain ⟨old, hold, rfl⟩ := Option.map_eq_some_iff.mp hfields
      rw [Bindings.get?_insert] at found
      split at found
      · cases found
        exact .inr (hv.mono grows)
      · exact .inl (.inr ⟨id, name', by rw [hold]; exact found⟩)
    · exact .inl (.inr ⟨id', name', by rw [hfields]; exact found⟩)

theorem upheld_write (founded : w.Founded S) (sink : Sink) (line : String) :
    Upheld S (sink.capacity ≠ none) w (write sink line) fun _ _ => True := by
  unfold write
  by_cases takes : sink.takes w.printed.size = true
  · obtain ⟨grows, founded'⟩ := founded.same { w with printed := w.printed.push line } rfl rfl rfl
    exact safe_of_ok (by rw [if_pos takes]) grows founded' trivial
  · refine ⟨fun _ w' run => ?_, fun stop w' run => ?_⟩
    · rw [if_neg takes] at run
      cases run
    · rw [if_neg takes] at run
      cases run
      refine ⟨.refl w, founded, fun unlimited => takes ?_⟩
      rw [Sink.takes, unlimited]
      rfl

/-! ### Names, members and operators -/

/-- What a name stands for is there. -/
theorem upheld_readRef (founded : w.Founded S) (env : Nat) {ref : Reference}
    (known : S ref.name) : Upheld S free w (readRef env ref) (fun v w' => v.Founded S w') := by
  refine safe_get ?_
  dsimp only
  split
  · next v found =>
    have bound : ∃ e, w.frames.own? e ref.name.lexeme = some v := by
      split at found
      · exact Frames.own?_of_getAt? _ found
      · exact Frames.own?_of_get? _ found
    obtain ⟨e, bound⟩ := bound
    exact safe_pure founded (founded.held v (.inl ⟨e, _, bound⟩))
  · exact upheld_raise founded known _

/-- An assignment puts a value that is there in place of another one; it never binds what calls
bind. -/
theorem upheld_assignRef (founded : w.Founded S) (env : Nat) {ref : Reference}
    (known : S ref.name) (name : ref.name.IsName) {v : Value} (hv : v.Founded S w) :
    Upheld S free w (assignRef env ref v) fun _ _ => True := by
  refine safe_get ?_
  dsimp only
  split
  · exact upheld_define founded hv (.inr name.ne_this)
  · exact upheld_raise founded known _

/-- A new function has a frame that is there and a body of a program that was run. -/
theorem upheld_makeClosure (founded : w.Founded S) {env : Nat} (there : env < w.frames.size)
    (name : String) (params : List Token) {body : List Stmt} (drawn : Stmt.AllDrawn S body)
    (isInit : Bool) :
    Upheld S free w (makeClosure env name params body isInit) fun f w' =>
      f.Founded S w' ∧ f.isInit = isInit :=
  (upheld_fresh founded).bind fun _ _ grows founded' _ =>
    safe_pure founded' ⟨⟨there.trans_le grows.frames, drawn⟩, rfl⟩

/-- A function outside of classes is no initializer. -/
theorem upheld_makeFunction (founded : w.Founded S) {env : Nat} (there : env < w.frames.size)
    (name : String) (params : List Token) {body : List Stmt} (drawn : Stmt.AllDrawn S body) :
    Upheld S free w (makeClosure env name params body false) fun f w' =>
      (Value.function f).Founded S w' := by
  refine (upheld_makeClosure founded there name params drawn false).imp fun f w' made => ?_
  refine Value.founded_function made.1 fun init => ?_
  rw [made.2] at init
  cases init

/-- A method of an instance has a frame of its own, which binds `this` to the instance. -/
theorem upheld_bindMethod (founded : w.Founded S) {method : Closure} (hmethod : method.Founded S w)
    {id : Nat} {c : Class} (hobject : (Value.object id c).Founded S w) :
    Upheld S free w (bindMethod method (.object id c)) fun f w' =>
      (Value.function f).Founded S w' := by
  refine (upheld_newFrame founded hmethod.frame fun _ _ bound =>
    Bindings.eq_of_get?_single bound ▸ hobject).bind fun frame w₁ _ founded₁ opened => ?_
  refine (upheld_fresh founded₁).bind fun stamp w₂ grows founded₂ _ => safe_pure founded₂ ?_
  have bound : w₁.frames.own? frame "this" = some (.object id c) := opened.own "this"
  exact Value.founded_function ⟨opened.here.trans_le grows.frames, hmethod.body⟩
    fun _ => ⟨opened.inner, id, c, grows.received frame _ opened.inner bound⟩

/-- The methods of a class are made around the frame of the class. -/
theorem upheld_makeMethods (founded : w.Founded S) {env : Nat} (there : env < w.frames.size)
    {fs : List Function} (drawn : Function.AllDrawn S fs) {methods : Bindings Closure}
    (hmethods : ∀ binding ∈ methods, binding.2.Founded S w) :
    Upheld S free w (makeMethods env fs methods) fun methods w' =>
      ∀ binding ∈ methods, binding.2.Founded S w' := by
  induction fs generalizing w methods with
  | nil => exact safe_pure founded hmethods
  | cons f rest ih =>
    obtain ⟨name, params, body⟩ := f
    obtain ⟨⟨-, -, hbody⟩, hrest⟩ := drawn
    refine (upheld_makeClosure founded there _ params hbody _).bind
      fun method w₁ grows founded₁ hmethod => ?_
    refine ih founded₁ (there.trans_le grows.frames) hrest fun binding mem => ?_
    rcases Bindings.mem_insert mem with rfl | old
    · exact hmethod.1
    · exact (hmethods binding old).mono grows

/-- The superclass is there before the class that is to inherit from it. -/
theorem upheld_readSuperclass (founded : w.Founded S) (env : Nat) {ref : Reference}
    (known : S ref.name) :
    Upheld S free w (readSuperclass env ref) fun c w' => (Value.classObj c).Founded S w' := by
  refine (upheld_readRef founded env known).bind fun v w₁ _ founded₁ hv => ?_
  cases v with
  | classObj c => exact safe_pure founded₁ hv
  | _ => exact upheld_raise founded₁ known _

/-- What is in a field is there. -/
theorem upheld_field? (founded : w.Founded S) (id : Nat) (name : String) :
    Upheld S free w (field? id name) fun o w' => ∀ v ∈ o, v.Founded S w' :=
  safe_of_ok rfl (.refl w) founded fun v found => founded.held v (.inr ⟨id, name, found⟩)

/-- A property is there: a field, or else a method that is bound in a new frame. -/
theorem upheld_getMember (founded : w.Founded S) {object : Value} (hobject : object.Founded S w)
    {name : Token} (known : S name) :
    Upheld S free w (getMember object name) fun v w' => v.Founded S w' := by
  unfold getMember
  cases object with
  | object id c =>
    refine (upheld_field? founded id name.lexeme).bind fun o w₁ grows founded₁ ho => ?_
    cases o with
    | some v => exact safe_pure founded₁ (ho v rfl)
    | none =>
      have hobject₁ := hobject.mono grows
      dsimp only
      cases found : c.method? name.lexeme with
      | some method =>
        exact (upheld_bindMethod founded₁ (hobject₁.ofObject.method found) hobject₁).bind
          fun f w₂ _ founded₂ hf => safe_pure founded₂ hf
      | none => exact upheld_raise founded₁ known _
  | _ => exact upheld_raise founded known _

theorem upheld_fieldOwner (founded : w.Founded S) (object : Value) {name : Token}
    (known : S name) : Upheld S free w (fieldOwner object name) fun _ _ => True := by
  unfold fieldOwner
  split
  · exact safe_pure founded trivial
  · exact upheld_raise founded known _

/-- What is found so many frames outward is there. -/
theorem upheld_readAround (founded : w.Founded S) (env : Nat) (hops : Int) {keyword : Token}
    (known : S keyword) (name : String) :
    Upheld S free w (readAround env hops keyword name) fun v w' => v.Founded S w' := by
  refine safe_get ?_
  split
  · next v found =>
    obtain ⟨e, bound⟩ := Frames.own?_of_getAt? _ found
    exact safe_pure founded (founded.held v (.inl ⟨e, _, bound⟩))
  · exact upheld_raise founded known _

/-- A method of the superclass is bound in a new frame around the frame it was made in. -/
theorem upheld_superMethod (founded : w.Founded S) (env : Nat) {ref : Reference} {method : Token}
    (known : S ref.name) (known' : S method) :
    Upheld S free w (superMethod env ref method) fun v w' => v.Founded S w' := by
  unfold superMethod
  split
  · exact upheld_raise founded known _
  · refine (upheld_readAround founded env _ known _).bind fun v w₁ _ founded₁ hv => ?_
    cases v with
    | classObj c =>
      refine (upheld_readAround founded₁ env _ known _).bind fun u w₂ grows founded₂ hu => ?_
      cases u with
      | object id d =>
        dsimp only
        cases found : c.method? method.lexeme with
        | some f =>
          exact (upheld_bindMethod founded₂ ((hv.mono grows).method found) hu).bind
            fun g w₃ _ founded₃ hg => safe_pure founded₃ hg
        | none => exact upheld_raise founded₂ known' _
      | _ => exact upheld_raise founded₂ known _
    | _ => exact upheld_raise founded₁ known _

theorem upheld_applyUnary (founded : w.Founded S) {op : Token} (known : S op) (v : Value) :
    Upheld S free w (applyUnary op v) fun v w' => v.Founded S w' := by
  unfold applyUnary
  split
  · exact safe_pure founded (Value.founded_of_isPlain rfl)
  · split
    · exact safe_pure founded (Value.founded_of_isPlain rfl)
    · exact upheld_raise founded known _
  · exact upheld_raise founded known _

theorem upheld_applyBinary (founded : w.Founded S) {op : Token} (known : S op) (a b : Value) :
    Upheld S free w (applyBinary op a b) fun v w' => v.Founded S w' := by
  unfold applyBinary
  split
  · exact safe_pure founded (Value.founded_of_isPlain rfl)
  · exact safe_pure founded (Value.founded_of_isPlain rfl)
  · exact safe_pure founded (Value.founded_of_isPlain rfl)
  · exact safe_pure founded (Value.founded_of_isPlain rfl)
  · exact upheld_raise founded known _
  · split
    · next h => exact safe_pure founded (Value.founded_of_isPlain (isPlain_of_arithmetic? h))
    · exact upheld_raise founded known _
  · exact upheld_raise founded known _

/-- What a call answers is founded; an initializer answers its instance, or misses it. -/
theorem upheld_answer (founded : w.Founded S) (f : Closure) {completion : Completion}
    (h : ∀ v, completion = .returned v → v.Founded S w) :
    Upheld S True w (answer f completion) fun v w' => v.Founded S w' ∧
      (f.isInit = true → f.BoundTo w v) := by
  unfold answer
  split
  · refine safe_get ?_
    split
    · next v found =>
      exact safe_pure founded ⟨founded.held v (.inl ⟨f.frame, _, found⟩), fun _ => found⟩
    · exact upheld_fail founded trivial _
  · next plain =>
    cases completion with
    | returned v => exact safe_pure founded ⟨h v rfl, fun init => absurd init plain⟩
    | normal =>
      exact safe_pure founded ⟨Value.founded_of_isPlain rfl, fun init => absurd init plain⟩

end Run

end Lox
