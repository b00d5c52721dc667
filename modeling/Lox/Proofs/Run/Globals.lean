import Lox.Proofs.Run.Frames
import Lox.Proofs.Run.Parts

/-!
What the parts of a run do to the globals: which of them leave the frame of the globals alone, and
what the others may change there.
-/

namespace Lox

/-! ### Names of a frame -/

/-- A name is bound if it stands anywhere in the list. -/
theorem Bindings.isSome_get?_iff {α : Type} {name : String} {bindings : Bindings α} :
    (get? name bindings).isSome ↔ ∃ a, (name, a) ∈ bindings := by
  induction bindings with
  | nil => simp
  | cons binding rest ih =>
    obtain ⟨first, b⟩ := binding
    by_cases same : name = first
    · simp [get?_cons, same]
    · simp [get?_cons, same, ih]

/-- The names of a list are those that are bound in it. -/
theorem Bindings.mem_keys_iff {α : Type} {name : String} {bindings : Bindings α} :
    name ∈ keys bindings ↔ (get? name bindings).isSome := by
  simp [keys, sorted, isSome_get?_iff]

namespace Frames

variable {α : Type} {fs fs' fs'' : Frames α} {name x : String}

/-- The names of a frame are those that are bound in it. -/
theorem mem_keys_iff {e : Nat} : x ∈ fs.keys e ↔ (fs.own? e x).isSome := Bindings.mem_keys_iff

/-- The frame of the globals binds what it bound. -/
def SameGlobals (fs fs' : Frames α) : Prop := ∀ x, fs'.own? root x = fs.own? root x

/-- The frame of the globals binds the names that it bound. -/
def SameGlobalNames (fs fs' : Frames α) : Prop := ∀ x, x ∈ fs'.keys root ↔ x ∈ fs.keys root

/-- The frame of the globals binds one name, and all others as before. -/
structure BindsGlobal (name : String) (fs fs' : Frames α) : Prop where
  bound : name ∈ fs'.keys root
  others : ∀ x ≠ name, fs'.own? root x = fs.own? root x

/-- If the globals are the same, so are their names. -/
theorem SameGlobals.names (h : fs.SameGlobals fs') : fs.SameGlobalNames fs' := fun x => by
  rw [mem_keys_iff, mem_keys_iff, h x]

/-- The globals are then those before and the one that is bound. -/
theorem BindsGlobal.mem_keys_iff (h : BindsGlobal name fs fs') :
    x ∈ fs'.keys root ↔ x ∈ fs.keys root ∨ x = name := by
  by_cases same : x = name
  · simp [same, h.bound]
  · simp [same, Frames.mem_keys_iff, h.others x same]

/-- A new frame is not the outermost. -/
theorem sameGlobals_push (rooted : root < fs.size) (parent : Option Nat) (bindings : Bindings α) :
    fs.SameGlobals (fs.push parent bindings) := fun x => by
  rw [own?_push, if_neg (Nat.ne_of_lt rooted)]

/-- To bind a name in another frame changes no global. -/
theorem sameGlobals_define {e : Nat} (inner : e ≠ root) (name : String) (a : α) :
    fs.SameGlobals (fs.define e name a) := fun x => by
  rw [own?_define, if_neg fun h => inner h.1.symm]

/-- To bind a name in the outermost frame makes it global and changes no other global. -/
theorem bindsGlobal_define (rooted : root < fs.size) (name : String) (a : α) :
    BindsGlobal name fs (fs.define root name a) where
  bound := by
    rw [Frames.mem_keys_iff, own?_define, if_pos ⟨rfl, rooted, rfl⟩]
    rfl
  others x other := by
    rw [own?_define, if_neg fun h => other h.2.2]

/-- What is bound anew where it is bound already adds no name. -/
theorem sameGlobalNames_define {e : Nat} (bound : (fs.own? e name).isSome) (a : α) :
    fs.SameGlobalNames (fs.define e name a) := fun x => by
  rw [Frames.mem_keys_iff, Frames.mem_keys_iff, own?_define]
  split
  · next h =>
    obtain ⟨rfl, -, rfl⟩ := h
    simp [bound]
  · rfl

end Frames

namespace Run

/-! ### Parts that leave the globals alone -/

/-- Part of a run that leaves the frame of the globals as it is. -/
structure LeavesGlobals {α : Type} (act : Run α) : Prop where
  rooted : ∀ w : World, Frames.root < w.frames.size →
    Frames.root < (final (act w)).frames.size
  same : ∀ w : World, Frames.root < w.frames.size → w.frames.SameGlobals (final (act w)).frames

section LeavesGlobals

variable {α β : Type} {act : Run α}

/-- What changes no frame changes no global. -/
theorem leavesGlobals_of_frames (h : ∀ w, (final (act w)).frames = w.frames) :
    LeavesGlobals act :=
  ⟨fun w rooted => h w ▸ rooted, fun w _ x => by rw [h w]⟩

/-- Parts that leave the globals alone do so one after the other. -/
theorem LeavesGlobals.bind {next : α → Run β} (h : LeavesGlobals act)
    (hnext : ∀ a, LeavesGlobals (next a)) : LeavesGlobals (act >>= next) := by
  have ends (w : World) (rooted : Frames.root < w.frames.size) :
      Frames.root < (final ((act >>= next) w)).frames.size ∧
        w.frames.SameGlobals (final ((act >>= next) w)).frames := by
    have rooted₁ := h.rooted w rooted
    have same := h.same w rooted
    rw [bind_apply]
    cases done : act w with
    | error stop w₁ =>
      rw [done] at rooted₁ same
      exact ⟨rooted₁, same⟩
    | ok a w₁ =>
      rw [done] at rooted₁ same
      exact ⟨(hnext a).rooted w₁ rooted₁, fun x => ((hnext a).same w₁ rooted₁ x).trans (same x)⟩
  exact ⟨fun w rooted => (ends w rooted).1, fun w rooted => (ends w rooted).2⟩

theorem leavesGlobals_newFrame (parent : Nat) (bindings : Bindings Value) :
    LeavesGlobals (newFrame parent bindings) where
  rooted w rooted := by
    change _ < (w.frames.push (some parent) bindings).size
    rw [Frames.size_push]
    exact Nat.lt_succ_of_lt rooted
  same w rooted := Frames.sameGlobals_push rooted (some parent) bindings

theorem leavesGlobals_define {env : Nat} (inner : env ≠ Frames.root) (name : String) (v : Value) :
    LeavesGlobals (define env name v) where
  rooted w rooted := by
    change _ < (w.frames.define env name v).size
    rwa [Frames.size_define]
  same w _ := show w.frames.SameGlobals _ from Frames.sameGlobals_define inner name v

/-- What is put together from parts that only read leaves the globals alone. -/
theorem leavesGlobals : Compositional LeavesGlobals where
  pure _ := leavesGlobals_of_frames fun _ => rfl
  throw _ := leavesGlobals_of_frames fun _ => rfl
  get h := ⟨fun w => (h w).rooted w, fun w => (h w).same w⟩
  bind := LeavesGlobals.bind
  fresh := leavesGlobals_of_frames fun _ => rfl
  newFrame := leavesGlobals_newFrame

theorem leavesGlobals_newObject : LeavesGlobals newObject :=
  leavesGlobals_of_frames fun _ => rfl

theorem leavesGlobals_ask : LeavesGlobals ask := leavesGlobals_of_frames fun _ => rfl

theorem leavesGlobals_setField (id : Nat) (name : String) (v : Value) :
    LeavesGlobals (setField id name v) :=
  leavesGlobals_of_frames fun _ => rfl

theorem leavesGlobals_write (sink : Sink) (line : String) : LeavesGlobals (write sink line) := by
  refine leavesGlobals_of_frames fun w => ?_
  unfold write
  split <;> rfl

end LeavesGlobals

/-! ### Assignments -/

/-- An assignment changes what a name stands for in a frame that binds it, or nothing. -/
theorem frames_assignRef (env : Nat) (ref : Reference) (v : Value) (w : World) :
    (final (assignRef env ref v w)).frames = w.frames ∨
      ∃ e, (w.frames.own? e ref.name.lexeme).isSome ∧
        (final (assignRef env ref v w)).frames = w.frames.define e ref.name.lexeme v := by
  unfold assignRef
  rw [bind_apply]
  dsimp only [get, getThe, MonadStateOf.get, EStateM.get]
  cases ref.hops with
  | some d =>
    dsimp only
    cases found : w.frames.frameAt? env d ref.name.lexeme with
    | none => exact .inl rfl
    | some e => exact .inr ⟨e, (Option.filter_eq_some_iff.mp found).2, rfl⟩
  | none =>
    dsimp only
    cases found : w.frames.nearest? Frames.root ref.name.lexeme with
    | none => exact .inl rfl
    | some e =>
      have bound : (w.frames.own? e ref.name.lexeme).isSome :=
        List.find?_some (p := fun i => (w.frames.own? i ref.name.lexeme).isSome) found
      exact .inr ⟨e, bound, rfl⟩

/-! ### Classes -/

/-- Binds a class with methods that see a frame. -/
def bindMembers (env inner : Nat) (name : Token) (superclass : Option Class)
    (methods : List Function) : Run Unit := do
  let methods ← makeMethods inner methods []
  let c : Class := { id := ← fresh, name := name.lexeme, superclass, methods }
  define env name.lexeme (.classObj c)

/-- Binds a class whose superclass is known. -/
def bindClass (env : Nat) (name : Token) (superclass : Option Class) (methods : List Function) :
    Run Unit := do
  define env name.lexeme .nil
  match superclass with
  | none => bindMembers env env name none methods
  | some parent =>
    let inner ← newFrame env [("super", .classObj parent)]
    bindMembers env inner name (some parent) methods

/-- Of the declaration of a class, only the superclass clause evaluates anything. -/
theorem declareClass_eq (env : Nat) (name : Token) (superclass : Option Reference)
    (methods : List Function) : declareClass env name superclass methods =
      match superclass with
      | none => bindClass env name none methods
      | some ref =>
        readSuperclass env ref >>= fun parent => bindClass env name (some parent) methods := by
  cases superclass <;> rfl

/-- To make methods cannot go wrong, and takes nothing but new identities. -/
theorem makeMethods_apply (env : Nat) (fs : List Function) (methods : Bindings Closure)
    (w : World) : ∃ made, makeMethods env fs methods w =
      .ok made { w with stamp := w.stamp + fs.length } := by
  induction fs generalizing methods w with
  | nil => exact ⟨methods, rfl⟩
  | cons f rest ih =>
    let method : Closure :=
      { id := w.stamp, name := f.name.lexeme, params := f.params, body := f.body, frame := env,
        isInit := f.isInit }
    obtain ⟨made, h⟩ := ih (Bindings.insert f.name.lexeme method methods)
      { w with stamp := w.stamp + 1 }
    refine ⟨made, h.trans ?_⟩
    rw [List.length_cons, Nat.add_assoc, Nat.add_comm 1]

/-- To bind a class cannot go wrong once its superclass is known. -/
theorem bindMembers_apply (env inner : Nat) (name : Token) (superclass : Option Class)
    (methods : List Function) (w : World) : ∃ c stamp,
      bindMembers env inner name superclass methods w =
        .ok () { w with frames := w.frames.define env name.lexeme (.classObj c), stamp } := by
  obtain ⟨made, h⟩ := makeMethods_apply inner methods [] w
  let c : Class :=
    { id := w.stamp + methods.length, name := name.lexeme, superclass, methods := made }
  refine ⟨c, w.stamp + methods.length + 1, ?_⟩
  unfold bindMembers
  rw [bind_apply, h]
  rfl

/-- The frames while the methods of a class are made. -/
def classFrames (env : Nat) (name : String) (superclass : Option Class) (fs : Frames Value) :
    Frames Value :=
  match superclass with
  | none => fs.define env name .nil
  | some parent => (fs.define env name .nil).push (some env) [("super", .classObj parent)]

/-- Once its superclass is known, nothing keeps a class from being bound. -/
theorem bindClass_apply (env : Nat) (name : Token) (superclass : Option Class)
    (methods : List Function) (w : World) : ∃ c stamp,
      bindClass env name superclass methods w =
        .ok () { w with
          frames := (classFrames env name.lexeme superclass w.frames).define env name.lexeme
            (.classObj c)
          stamp } := by
  cases superclass with
  | none =>
    exact bindMembers_apply env env name none methods
      { w with frames := classFrames env name.lexeme none w.frames }
  | some parent =>
    exact bindMembers_apply env (w.frames.define env name.lexeme .nil).size name (some parent)
      methods { w with frames := classFrames env name.lexeme (some parent) w.frames }

/-- A class inside another scope is not among the globals. -/
theorem leavesGlobals_bindClass {env : Nat} (inner : env ≠ Frames.root) (name : Token)
    (superclass : Option Class) (methods : List Function) :
    LeavesGlobals (bindClass env name superclass methods) := by
  have members (frame : Nat) : LeavesGlobals (bindMembers env frame name superclass methods) :=
    (leavesGlobals.makeMethods ..).bind fun _ => leavesGlobals.fresh.bind fun _ =>
      leavesGlobals_define inner ..
  refine (leavesGlobals_define inner ..).bind fun _ => ?_
  cases superclass with
  | none => exact members env
  | some parent => exact (leavesGlobals_newFrame ..).bind members

/-! ### Parts that bind a global -/

/-- Part of a run that binds a name among the globals, whatever happens, and changes nothing else
there. -/
structure BindsGlobal (name : String) (act : Run Unit) : Prop where
  run : ∀ w : World, Frames.root < w.frames.size → ∃ w', act w = .ok () w' ∧
    Frames.root < w'.frames.size ∧ w.frames.BindsGlobal name w'.frames

/-- The step binds the name among the globals. -/
theorem bindsGlobal_define (name : String) (v : Value) :
    BindsGlobal name (define Frames.root name v) where
  run _ rooted :=
    ⟨_, rfl, by rwa [Frames.size_define], Frames.bindsGlobal_define rooted name v⟩

/-- A class at the outermost level is bound among the globals, first as nothing and then as itself.
-/
theorem bindsGlobal_bindClass (name : Token) (superclass : Option Class)
    (methods : List Function) :
    BindsGlobal name.lexeme (bindClass Frames.root name superclass methods) := by
  refine ⟨fun w rooted => ?_⟩
  let fs := classFrames Frames.root name.lexeme superclass w.frames
  have first := Frames.bindsGlobal_define rooted name.lexeme .nil
  have rooted₁ : Frames.root < (w.frames.define Frames.root name.lexeme .nil).size := by
    rwa [Frames.size_define]
  have inside : Frames.root < fs.size ∧
      ∀ x ≠ name.lexeme, fs.own? Frames.root x = w.frames.own? Frames.root x := by
    cases superclass with
    | none => exact ⟨rooted₁, first.others⟩
    | some parent =>
      -- The frame that binds `super` is a new one.
      have pushed :=
        Frames.sameGlobals_push rooted₁ (some Frames.root) [("super", .classObj parent)]
      refine ⟨?_, fun x other => (pushed x).trans (first.others x other)⟩
      rw [show fs.size = _ from Frames.size_push ..]
      exact Nat.zero_lt_succ _
  obtain ⟨rooted₂, others⟩ := inside
  obtain ⟨c, stamp, run⟩ := bindClass_apply Frames.root name superclass methods w
  have last := Frames.bindsGlobal_define rooted₂ name.lexeme (.classObj c)
  refine ⟨_, run, ?_, last.bound, fun x other => (last.others x other).trans (others x other)⟩
  rwa [Frames.size_define]

end Run

end Lox
