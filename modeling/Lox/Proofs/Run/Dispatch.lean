import Lox.Proofs.Run.Keep

/-!
`this` and `super` inside a method. The scopes of the method lead outward to the frame of the
instance that it is run for, and in a class with a superclass from there to the frame that was made
when the class was declared. So `super` is what the superclass clause gave at that time, whatever
became of the names since, and `this` is the instance that the method was bound to.
-/

namespace Lox.Watch

open Scope

variable {s : Watched} {c : Context} {π : Place} {env : Nat} {ref : Reference}

/-- The frame so many scopes outward fits the scopes from there on. -/
theorem Fits.outward {inner rest : List LocalScope} (fits : Fits s (inner ++ rest) env) :
    ∃ e, s.world.frames.stepsOut? env inner.length = some e ∧ Fits s rest e := by
  induction inner generalizing env with
  | nil => exact ⟨env, rfl, fits⟩
  | cons scope inner ih =>
    obtain ⟨-, -, parent, hparent, around⟩ := fits
    obtain ⟨e, steps, fits'⟩ := ih around
    refine ⟨e, ?_, fits'⟩
    rw [List.length_cons, Frames.stepsOut?, hparent]
    exact steps

/-- The frame of the instance that a method is run for, and the frame around it. -/
structure Receiving (s : Watched) (env : Nat) (v : MethodScopes) (frame parent id : Nat)
    (d : Class) : Prop where
  reached : s.world.frames.stepsOut? env v.inner.length = some frame
  label : s.notes.labels[frame]? = some v.instancePlace
  received : (frame, .object id d) ∈ s.notes.received
  inside : s.world.frames.parent? frame = some parent
  fits : Fits s v.outer parent

/-- Inside a method there is the frame of its instance, so many frames outward. -/
theorem exists_receiving (sound : Sound s) {v : MethodScopes} {family : Family}
    (fits : Fits s v.all env) (around : v.Around family π) :
    ∃ frame parent id d, Receiving s env v frame parent id d := by
  obtain ⟨frame, reached, label, -, parent, inside, outer⟩ := fits.outward
  obtain ⟨ρ, this⟩ := instanceScope?_eq_some around.instance_
  have recorded := sound.layout.recorded frame _ label
  dsimp only at recorded
  rw [this] at recorded
  obtain ⟨id, d, received⟩ := recorded
  exact ⟨frame, parent, id, d, reached, label, received, inside, outer⟩

/-- The frame of an instance binds that instance. -/
theorem own?_this (sound : Sound s) {frame id : Nat} {d : Class}
    (received : (frame, .object id d) ∈ s.notes.received) :
    s.world.frames.own? frame "this" = some (.object id d) :=
  (sound.layout.fixed frame "this" _ (.inr ⟨rfl, received⟩)).2

/-- The frame of an heir binds its superclass. -/
theorem own?_super (sound : Sound s) {heir : Heir} (known : heir ∈ s.notes.heirs) :
    s.world.frames.own? heir.frame "super" = some (.classObj heir.superclass) :=
  (sound.layout.fixed heir.frame "super" _ (.inl ⟨rfl, heir, known, rfl, rfl⟩)).2

/-- Inside a class `this` is bound. -/
theorem quiet_readThis (sound : Sound s) (owned : c.Owned π) (fits : Fits s c.scopes env)
    (inside : c.family ≠ none) (lexeme : ref.name.lexeme = "this") (refers : c.Refers ref) :
    Quiet s.world (Run.readRef env ref) (GoodValue s) := by
  obtain ⟨family, hfamily⟩ := Option.ne_none_iff_exists'.mp inside
  obtain ⟨v, scopes, around⟩ := owned family hfamily
  rw [scopes] at fits
  obtain ⟨frame, parent, id, d, receiving⟩ := exists_receiving sound fits around
  have hops : ref.hops = some (v.inner.length : Int) := by
    rw [refers, lexeme, Context.names, scopes, around.hops?_this]
    rfl
  have found : s.world.frames.getAt? env (v.inner.length : Int) "this" = some (.object id d) := by
    rw [Frames.getAt?, Frames.ancestor?, Int.toNat_natCast, receiving.reached]
    exact own?_this sound receiving.received
  refine quiet_get ?_
  rw [hops, lexeme]
  dsimp only
  rw [found]
  exact quiet_pure (sound.bound _ _ _ (own?_this sound receiving.received))

/-! ### Methods of the superclass -/

/-- The frames around a `super`: of the class that was declared, and of the instance at hand. -/
structure Inherits (s : Watched) (env : Nat) (π : Place) (ref : Reference) (heir : Heir)
    (frame id : Nat) (d : Class) (n : Nat) : Prop where
  known : heir ∈ s.notes.heirs
  received : (frame, .object id d) ∈ s.notes.received
  label : s.notes.labels[frame]? = some (.this :: .super :: heir.place)
  declared : instanceScope? π = some (.this :: .super :: heir.place)
  inside : s.world.frames.parent? frame = some heir.frame
  hops : ref.hops = some ((n + 1 : Nat) : Int)
  class_ : s.world.frames.stepsOut? env (n + 1) = some heir.frame
  instance_ : s.world.frames.stepsOut? env n = some frame

/-- Where `super` may stand, the frame of the heir lies one outside that of the instance. -/
theorem exists_inherits (sound : Sound s) (owned : c.Owned π) (fits : Fits s c.scopes env)
    (derived : c.family = some .derived) (lexeme : ref.name.lexeme = "super")
    (refers : c.Refers ref) : ∃ heir frame id d n, Inherits s env π ref heir frame id d n := by
  obtain ⟨v, scopes, around⟩ := owned .derived derived
  rw [scopes] at fits
  obtain ⟨frame, parent, id, d, receiving⟩ := exists_receiving sound fits around
  obtain ⟨ρ, rest, this, outer⟩ := around.inherited rfl
  have around' := receiving.fits
  rw [outer] at around'
  obtain ⟨heir, known, rfl, rfl⟩ := sound.layout.recorded parent _ around'.1
  refine ⟨heir, frame, id, d, v.inner.length, known, receiving.received, ?_, ?_, receiving.inside,
    ?_, Frames.stepsOut?_succ _ receiving.reached receiving.inside, receiving.reached⟩
  · rw [← this]
    exact receiving.label
  · rw [← this]
    exact around.instance_
  · rw [refers, lexeme, Context.names, scopes, around.hops?_super]
    rfl

section Inherits

variable {heir : Heir} {frame id n : Nat} {d : Class}

/-- The superclass of the heir is found where the program looks for it. -/
theorem Inherits.super? (h : Inherits s env π ref heir frame id d n) (sound : Sound s) :
    s.world.frames.getAt? env ((n + 1 : Nat) : Int) "super" =
      some (.classObj heir.superclass) := by
  rw [Frames.getAt?, Frames.ancestor?, Int.toNat_natCast, h.class_]
  exact own?_super sound h.known

/-- The instance is found one frame inside. -/
theorem Inherits.this? (h : Inherits s env π ref heir frame id d n) (sound : Sound s) :
    s.world.frames.getAt? env (((n + 1 : Nat) : Int) - 1) "this" = some (.object id d) := by
  rw [Frames.getAt?, Frames.ancestor?, show (((n + 1 : Nat) : Int) - 1).toNat = n by omega,
    h.instance_]
  exact own?_this sound h.received

/-- What is bound so many frames outward is what is read. -/
theorem readAround_eq {w : World} {hops : Int} {keyword : Token} {name : String} {v : Value}
    (h : w.frames.getAt? env hops name = some v) :
    Run.readAround env hops keyword name w = .ok v w := by
  unfold Run.readAround
  rw [Run.bind_apply]
  dsimp only [get, getThe, MonadStateOf.get, EStateM.get]
  rw [h]
  rfl

/-- The method of the superclass, for the instance. -/
theorem Inherits.superMethod_eq (h : Inherits s env π ref heir frame id d n) (sound : Sound s)
    (method : Token) : Run.superMethod env ref method s.world =
      (match heir.superclass.method? method.lexeme with
        | some f => do return .function (← Run.bindMethod f (.object id d))
        | none => Run.raise method (.undefinedProperty method.lexeme) : Run Value) s.world := by
  unfold Run.superMethod
  rw [h.hops]
  dsimp only
  rw [Run.bind_apply, readAround_eq (h.super? sound)]
  dsimp only
  rewrite [Run.bind_apply, readAround_eq (h.this? sound)]
  rfl

/-- The lookup that is noted here. -/
def lookupAt (s : Watched) (env : Nat) (π : Place) (ref : Reference) (method : Token) : Lookup :=
  { place := π, ref, method, env, world := s.world }

/-- The lookup starts at the superclass that was read when the class was declared, and binds the
instance at hand. -/
theorem Inherits.dispatches (h : Inherits s env π ref heir frame id d n) (sound : Sound s)
    (method : Token) : (lookupAt s env π ref method).Dispatches s.notes := by
  refine ⟨heir, h.known, frame, id, d, h.received, h.label, h.declared, h.inside,
    ⟨_, h.hops, h.class_, ?_⟩, fun f found => ?_, fun missing => ?_⟩
  · show s.world.frames.stepsOut? env (((n + 1 : Nat) : Int) - 1).toNat = some frame
    rw [show (((n + 1 : Nat) : Int) - 1).toNat = n by omega, h.instance_]
  · refine (h.superMethod_eq sound method).trans ?_
    rw [show heir.superclass.method? method.lexeme = some f from found]
    rfl
  · refine (h.superMethod_eq sound method).trans ?_
    rw [show heir.superclass.method? method.lexeme = none from missing]
    rfl

/-- A lookup is noted, and what surrounds it stays. -/
theorem safe_noteLookup (h : Inherits s env π ref heir frame id d n) (sound : Sound s)
    (method : Token) : Safe s (noteLookup env π ref method) fun _ t =>
      Inherits t env π ref heir frame id d n := by
  constructor
  · intro _ t run
    cases run
    have ext : Extends s { s with notes := { s.notes with
        lookups := lookupAt s env π ref method :: s.notes.lookups } } := .of_eq rfl rfl rfl rfl rfl
    refine ⟨ext, sound.step ext sound.layout (fun _ _ _ h => .inl h) (fun _ _ _ h => .inl h)
      sound.fresh (fun _ h => .inl h) (fun _ h => .inl h) (fun u hu => ?_) (fun _ h => .inl h),
      ⟨h.known, h.received,
      h.label, h.declared, h.inside, h.hops, h.class_, h.instance_⟩⟩
    rcases List.mem_cons.mp hu with rfl | hu
    · exact .inr (Dispatches.mono ext (h.dispatches sound method))
    · exact .inl hu
  · intro stop t run
    cases run

end Inherits

/-- Part of a run that only looks something up. -/
theorem safe_reads {α β : Type} {act : Run α} {a : α} {next : α → Watch β}
    {post : β → Watched → Prop} (run : act s.world = .ok a s.world) (h : Safe s (next a) post) :
    Safe s (plain act >>= next) post := by
  have step : (plain act >>= next) s = next a s := by
    rw [Run.bind_apply, plain, run]
  exact ⟨fun b t done => h.ok b t (step ▸ done), fun stop t done => h.error stop t (step ▸ done)⟩

end Lox.Watch
