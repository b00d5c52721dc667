import Lox.Proofs.Run.Frames
import Lox.Proofs.Run.Invariant
import Lox.Proofs.Run.Operator
import Lox.Proofs.Run.Watch
import Lox.Proofs.Scope.Owner

/-!
What holds at every moment of a watched run. The frames around a frame were made for the scopes
around the place that is being carried out, and they bind what these scopes declare; every function
that any frame or instance holds stands where the notes say, inside frames of its scopes; and the
frames of classes and instances bind `super` and `this` to what they were made for.
-/

namespace Lox.Watch

open Scope

/-! ### Frames of scopes -/

/-- The frame and those around it were made for the scopes, and bind the names that have values. -/
def Fits (s : Watched) : List LocalScope → Nat → Prop
  | [], env => env = Frames.root
  | scope :: rest, env =>
    s.notes.labels[env]? = some scope.place ∧
      (∀ name, Bindings.get? name scope.names = some true →
        (s.world.frames.own? env name).isSome) ∧
        ∃ parent, s.world.frames.parent? env = some parent ∧ Fits s rest parent

/-- The function stands at a place with a context. -/
structure Stands (s : Watched) (f : Closure) (c : Context) (π : Place) (kind : Body) : Prop where
  origin : s.notes.origins.lookup f.id = some π
  within : (c.function kind π f.params).Within (.body :: π)
  addressed : Stmt.AllAddressed (c.function kind π f.params) (.body :: π) 0 f.body

/-- The function is made in a frame of its scopes, an initializer in that of its instance. -/
def GoodClosure (s : Watched) (f : Closure) : Prop :=
  ∃ (c : Context) (π : Place) (kind : Body), Stands s f c π kind ∧ Fits s c.scopes f.frame ∧
    (f.isInit = true → ∃ scope rest, c.scopes = ⟨scope, [("this", true)]⟩ :: rest)

/-- A method that no instance has yet: the frame of its instance is still missing. -/
def GoodMethod (s : Watched) (f : Closure) : Prop :=
  ∃ (c : Context) (π : Place) (kind : Body) (scope : Place) (rest : List LocalScope),
    Stands s f c π kind ∧ c.scopes = ⟨.this :: scope, [("this", true)]⟩ :: rest ∧
      Fits s rest f.frame

def GoodClass (s : Watched) (c : Class) : Prop :=
  ∀ name f, c.method? name = some f → GoodMethod s f

def GoodValue (s : Watched) : Value → Prop
  | .function f => GoodClosure s f
  | .classObj c | .object _ c => GoodClass s c
  | _ => True

/-- Values without parts are good. -/
theorem goodValue_of_isPlain {s : Watched} {v : Value} (h : v.isPlain = true) : GoodValue s v := by
  cases v with
  | function | classObj | object => cases h
  | _ => trivial

end Lox.Watch

namespace Lox

open Scope

/-! ### Uses -/

/-- The use lies inside the value that its variable is declared with, as an assignment or inside a
function there, and the declaration is not complete in the frame. -/
def Use.Unfinished (u : Use) (frame : Nat) (scope : Place) (hops : Int) : Prop :=
  (u.isAssignment = true ∨ hops ≠ 0) ∧
    ∃ decl, InInitializer u.place u.ref.name.lexeme scope decl ∧
      (frame, .initializer u.ref.name.lexeme :: decl) ∉ u.completed

/-- So many frames outward there is one, it was made for the scope so many scopes outward, and it
binds the name, unless its declaration is unfinished. -/
def Use.Agrees (u : Use) : Prop :=
  ∀ hops, u.ref.hops = some hops → ∃ frame scope,
    u.frames.ancestor? u.env hops = some frame ∧ u.labels[frame]? = some scope ∧
      0 ≤ hops ∧ (enclosing u.place)[hops.toNat]? = some scope ∧
        ((u.frames.own? frame u.ref.name.lexeme).isSome ∨ u.Unfinished frame scope hops)

/-! ### Lookups of `super` -/

/-- The class around the lookup was declared as the notes say, and the method is run for the
instance that the frame binds: the lookup starts at what the superclass clause gave, and what it
finds is bound to that instance. -/
structure Lookup.Dispatched (u : Lookup) (heir : Heir) (frame id : Nat) (c : Class) : Prop where
  declared : instanceScope? u.place = some (.this :: .super :: heir.place)
  inside : u.world.frames.parent? frame = some heir.frame
  reached : ∃ hops, u.ref.hops = some hops ∧
    u.world.frames.ancestor? u.env hops = some heir.frame ∧
      u.world.frames.ancestor? u.env (hops - 1) = some frame
  found : ∀ f, heir.superclass.method? u.method.lexeme = some f →
    Run.superMethod u.env u.ref u.method u.world =
      (do return .function (← Run.bindMethod f (.object id c)) : Run Value) u.world
  missing : heir.superclass.method? u.method.lexeme = none →
    Run.superMethod u.env u.ref u.method u.world =
      .error (.raised u.method (.undefinedProperty u.method.lexeme)) u.world

/-- The lookup is dispatched by a class that was declared and for an instance that a method was
bound to. -/
def Lookup.Dispatches (u : Lookup) (n : Notes) : Prop :=
  ∃ heir ∈ n.heirs, ∃ frame id c, (frame, .object id c) ∈ n.received ∧
    n.labels[frame]? = some (.this :: .super :: heir.place) ∧ u.Dispatched heir frame id c

end Lox

namespace Lox.Watch

open Scope

/-! ### What holds at every moment -/

/-- A frame of a class or of an instance is noted with what it was made for. -/
def Recorded (heirs : List Heir) (received : List (Nat × Value)) (e : Nat) : Place → Prop
  | .super :: π => ∃ heir ∈ heirs, heir.place = π ∧ heir.frame = e
  | .this :: _ => ∃ id c, (e, .object id c) ∈ received
  | _ => True

/-- What a frame binds once and for all. -/
def Fixed (heirs : List Heir) (received : List (Nat × Value)) (e : Nat) (name : String)
    (v : Value) : Prop :=
  (name = "super" ∧ ∃ heir ∈ heirs, heir.frame = e ∧ v = .classObj heir.superclass) ∨
    (name = "this" ∧ (e, v) ∈ received)

/-- Frames are labelled and lie inside older ones, and those of classes and instances bind what they
were made for. -/
structure Layout (fs : Frames Value) (labels : List Place) (heirs : List Heir)
    (received : List (Nat × Value)) : Prop where
  rooted : 0 < fs.size
  labelled : labels.length = fs.size
  ordered : ∀ e parent, fs.parent? e = some parent → parent < e
  recorded : ∀ (e : Nat) π, labels[e]? = some π → Recorded heirs received e π
  fixed : ∀ e name v, Fixed heirs received e name v →
    e ≠ Frames.root ∧ fs.own? e name = some v

structure Sound (s : Watched) : Prop where
  layout : Layout s.world.frames s.notes.labels s.notes.heirs s.notes.received
  bound : ∀ e name v, s.world.frames.own? e name = some v → GoodValue s v
  fields : ∀ (id : Nat) name v, s.world.objects[id]?.bind (Bindings.get? name) = some v →
    GoodValue s v
  fresh : ∀ id, s.world.stamp ≤ id → s.notes.origins.lookup id = none
  completed : ∀ e name decl, (e, .initializer name :: decl) ∈ s.notes.completed →
    (s.world.frames.own? e name).isSome
  agree : ∀ u ∈ s.notes.uses, u.Agrees
  dispatch : ∀ u ∈ s.notes.lookups, u.Dispatches s.notes
  told : ∀ stop ∈ s.notes.told, stop.isInternal = false

/-- What is known stays known. -/
structure Extends (s t : Watched) : Prop where
  labels : ∀ (e : Nat) π, s.notes.labels[e]? = some π → t.notes.labels[e]? = some π
  parents : ∀ e p, s.world.frames.parent? e = some p → t.world.frames.parent? e = some p
  bound : ∀ e name, (s.world.frames.own? e name).isSome → (t.world.frames.own? e name).isSome
  origins : ∀ id π, s.notes.origins.lookup id = some π → t.notes.origins.lookup id = some π
  heirs : s.notes.heirs ⊆ t.notes.heirs
  received : s.notes.received ⊆ t.notes.received

section Extends

variable {s t u : Watched}

/-- Nothing changes that is known. -/
theorem Extends.of_eq (frames : t.world.frames = s.world.frames)
    (labels : t.notes.labels = s.notes.labels) (origins : t.notes.origins = s.notes.origins)
    (heirs : t.notes.heirs = s.notes.heirs) (received : t.notes.received = s.notes.received) :
    Extends s t where
  labels _ _ h := labels ▸ h
  parents _ _ h := frames ▸ h
  bound _ _ h := frames ▸ h
  origins _ _ h := origins ▸ h
  heirs _ h := heirs ▸ h
  received _ h := received ▸ h

theorem Extends.refl (s : Watched) : Extends s s := .of_eq rfl rfl rfl rfl rfl

/-- What is noted stays noted, over and over. -/
theorem Extends.trans (h : Extends s t) (h' : Extends t u) : Extends s u where
  labels e π x := h'.labels e π (h.labels e π x)
  parents e p x := h'.parents e p (h.parents e p x)
  bound e name x := h'.bound e name (h.bound e name x)
  origins id π x := h'.origins id π (h.origins id π x)
  heirs := List.Subset.trans h.heirs h'.heirs
  received := List.Subset.trans h.received h'.received

/-- A frame that fits the scopes goes on to fit them. -/
theorem Fits.mono (h : Extends s t) {scopes : List LocalScope} {env : Nat}
    (fits : Fits s scopes env) : Fits t scopes env := by
  induction scopes generalizing env with
  | nil => exact fits
  | cons scope rest ih =>
    obtain ⟨label, names, parent, hparent, around⟩ := fits
    exact ⟨h.labels _ _ label, fun name known => h.bound _ _ (names name known), parent,
      h.parents _ _ hparent, ih around⟩

/-- A function stands where it stood. -/
theorem Stands.mono (h : Extends s t) {f : Closure} {c : Context} {π : Place} {kind : Body}
    (stands : Stands s f c π kind) : Stands t f c π kind :=
  ⟨h.origins _ _ stands.origin, stands.within, stands.addressed⟩

/-- A function that is good stays so. -/
theorem GoodClosure.mono (h : Extends s t) {f : Closure} (good : GoodClosure s f) :
    GoodClosure t f := by
  obtain ⟨c, π, kind, stands, fits, initializer⟩ := good
  exact ⟨c, π, kind, stands.mono h, fits.mono h, initializer⟩

/-- A method that is good stays so. -/
theorem GoodMethod.mono (h : Extends s t) {f : Closure} (good : GoodMethod s f) :
    GoodMethod t f := by
  obtain ⟨c, π, kind, scope, rest, stands, this, fits⟩ := good
  exact ⟨c, π, kind, scope, rest, stands.mono h, this, fits.mono h⟩

/-- A class that is good stays so. -/
theorem GoodClass.mono (h : Extends s t) {c : Class} (good : GoodClass s c) : GoodClass t c :=
  fun name f found => (good name f found).mono h

/-- A value that is good stays so, however the run goes on. -/
theorem GoodValue.mono (h : Extends s t) {v : Value} (good : GoodValue s v) : GoodValue t v := by
  cases v with
  | function f => exact GoodClosure.mono h good
  | classObj c => exact GoodClass.mono h good
  | object id c => exact GoodClass.mono h good
  | _ => trivial

/-- A lookup that went right has gone right for good. -/
theorem Dispatches.mono (h : Extends s t) {u : Lookup}
    (dispatches : u.Dispatches s.notes) : u.Dispatches t.notes := by
  obtain ⟨heir, known, frame, id, c, bound, label, dispatched⟩ := dispatches
  exact ⟨heir, h.heirs known, frame, id, c, h.received bound, h.labels _ _ label, dispatched⟩

/-- A name without its value need not be bound. -/
theorem Fits.unfinished {c : Context} {env : Nat} (fits : Fits s c.scopes env) (name : String) :
    Fits s (c.mark name false).scopes env := by
  obtain ⟨scopes, body, family⟩ := c
  cases scopes with
  | nil => exact fits
  | cons scope rest =>
    refine ⟨fits.1, fun other known => ?_, fits.2.2⟩
    dsimp only at known
    rw [Bindings.get?_insert] at known
    split at known
    · cases known
    · exact fits.2.1 other known

/-- A frame of scopes is there. -/
theorem Fits.lt_size (sound : Sound s) {scopes : List LocalScope} {env : Nat}
    (fits : Fits s scopes env) : env < s.world.frames.size := by
  cases scopes with
  | nil =>
    rw [show env = 0 from fits]
    exact sound.layout.rooted
  | cons scope rest =>
    rw [← sound.layout.labelled]
    exact (List.getElem?_eq_some_iff.mp fits.1).1

end Extends

/-! ### Parts of a run -/

variable {α β : Type} {s t : Watched}

/-- What holds of watched runs, and what goes on to hold in them. -/
def invariant : Invariant Watched where
  holds := Sound
  grows := Extends
  refl := .refl
  trans := .trans

/-- Good values are such as natives may hold on to. -/
theorem lasting : invariant.Lasting GoodValue where
  plain _ _ := goodValue_of_isPlain
  mono ext good := good.mono ext

/-- From a moment on, part of a run keeps what is known and what holds, `post` holds of what it
gives, and it does not stop for an internal reason. -/
def Safe (s : Watched) (act : Watch α) (post : α → Watched → Prop) : Prop :=
  invariant.Safe (fun stop => stop.isInternal = false) s act post

section Safe

variable {act : Watch α} {post : α → Watched → Prop}

/-- What is known at the end may be weakened. -/
theorem Safe.mono {post' : α → Watched → Prop} (h : Safe s act post)
    (imp : ∀ a t, Extends s t → post a t → post' a t) : Safe s act post' := by
  refine ⟨fun a t run => ?_, h.error⟩
  obtain ⟨ext, sound, hp⟩ := h.ok a t run
  exact ⟨ext, sound, imp a t ext hp⟩

theorem safe_pure (sound : Sound s) {a : α} (h : post a s) : Safe s (pure a) post :=
  Invariant.safe_pure sound h

/-- Safe parts are safe one after the other. -/
theorem Safe.bind {next : α → Watch β} {post' : β → Watched → Prop} (h : Safe s act post)
    (hnext : ∀ a t, Extends s t → Sound t → post a t → Safe t (next a) post') :
    Safe s (act >>= next) post' :=
  Invariant.Safe.bind h hnext

theorem Safe.discard (h : Safe s act post) : Safe s (Functor.discard act) fun _ _ => True :=
  Invariant.Safe.discard h

/-- To look at the state is safe if what follows is. -/
theorem safe_get {next : Watched → Watch α} (h : Safe s (next s) post) :
    Safe s (get >>= next) post :=
  Invariant.safe_get h

end Safe

/-! ### Parts that leave frames, fields and identities as they are -/

structure SameHeap (w w' : World) : Prop where
  frames : w'.frames = w.frames
  objects : w'.objects = w.objects
  stamp : w'.stamp = w.stamp

theorem SameHeap.refl (w : World) : SameHeap w w := ⟨rfl, rfl, rfl⟩

/-- A world with the same frames and fields adds nothing to the notes. -/
theorem SameHeap.extends {w : World} (h : SameHeap s.world w) : Extends s { s with world := w } :=
  .of_eq h.frames rfl rfl rfl rfl

/-- Soundness is a matter of frames and fields alone. -/
theorem SameHeap.sound {w : World} (h : SameHeap s.world w) (sound : Sound s) :
    Sound { s with world := w } where
  layout := h.frames ▸ sound.layout
  bound e name v found :=
    (sound.bound e name v (by rwa [h.frames] at found)).mono h.extends
  fields id name v found :=
    (sound.fields id name v (by rwa [h.objects] at found)).mono h.extends
  fresh := h.stamp ▸ sound.fresh
  completed := h.frames ▸ sound.completed
  agree := sound.agree
  dispatch := sound.dispatch
  told := sound.told

/-- Part of a run that leaves the heap as it is, whose result satisfies `post`, and that does not
stop for an internal reason. -/
structure Quiet (w : World) (act : Run α) (post : α → Prop) : Prop where
  ok : ∀ a w', act w = .ok a w' → SameHeap w w' ∧ post a
  error : ∀ stop w', act w = .error stop w' → SameHeap w w' ∧ stop.isInternal = false

/-- A part that is quiet in the world is safe beside the notes. -/
theorem safe_plain {act : Run α} {P : α → Prop} {post : α → Watched → Prop} (sound : Sound s)
    (h : Quiet s.world act P) (imp : ∀ a t, Extends s t → P a → post a t) :
    Safe s (plain act) post := by
  constructor
  · intro a t run
    unfold plain at run
    split at run
    · next b w done =>
      cases run
      obtain ⟨same, hb⟩ := h.ok _ _ done
      exact ⟨same.extends, same.sound sound, imp _ _ same.extends hb⟩
    · cases run
  · intro stop t run
    unfold plain at run
    split at run
    · cases run
    · next done =>
      cases run
      obtain ⟨same, expected⟩ := h.error _ _ done
      exact ⟨same.extends, same.sound sound, expected⟩

section Quiet

variable {w : World} {post : α → Prop}

theorem quiet_pure {a : α} (h : post a) : Quiet w (pure a) post := by
  refine ⟨fun b w' run => ?_, fun stop w' run => by cases run⟩
  cases run
  exact ⟨.refl w, h⟩

/-- To stop is quiet if the stop is none of those that never happen. -/
theorem quiet_throw {stop : Stop} (expected : stop.isInternal = false) :
    Quiet w (throw stop) post := by
  constructor
  · intro a w' run
    cases run
  · intro stop w' run
    cases run
    exact ⟨.refl w, expected⟩

theorem quiet_raise {token : Token} {fault : Fault}
    (expected : (Stop.raised token fault).isInternal = false) :
    Quiet w (Run.raise token fault) post :=
  quiet_throw expected

theorem quiet_fail {fault : Fault} (expected : (Stop.unplaced fault).isInternal = false) :
    Quiet w (Run.fail fault) post :=
  quiet_throw expected

/-- To look at the world is quiet if what follows is. -/
theorem quiet_get {next : World → Run α} (h : Quiet w (next w) post) : Quiet w (get >>= next) post :=
  ⟨h.ok, h.error⟩

theorem quiet_ask : Quiet w Run.ask fun _ => True := by
  constructor
  · intro before w' run
    cases run
    exact ⟨⟨rfl, rfl, rfl⟩, trivial⟩
  · intro stop w' run
    cases run

/-- To print changes no frame and no field. -/
theorem quiet_write (sink : Sink) (line : String) : Quiet w (Run.write sink line) fun _ => True := by
  constructor
  · intro a w' run
    unfold Run.write at run
    split at run
    · cases run
      exact ⟨⟨rfl, rfl, rfl⟩, trivial⟩
    · cases run
  · intro stop w' run
    unfold Run.write at run
    split at run
    · cases run
    · cases run
      exact ⟨.refl w, rfl⟩

/-- A unary operator of a program is one of the two that there are. -/
theorem quiet_applyUnary {op : Token} (unary : op.IsUnary) (v : Value) :
    Quiet w (Run.applyUnary op v) fun v => v.isPlain = true := by
  unfold Run.applyUnary
  split
  · exact quiet_pure rfl
  · split
    · exact quiet_pure rfl
    · exact quiet_raise rfl
  · next bang minus =>
    rcases List.mem_pair.mp unary with kind | kind
    · exact (bang kind).elim
    · exact (minus kind).elim

/-- An operator between operands that is none of equality or addition is one of arithmetic. -/
theorem arithmetic?_ne_none {op : Token} (binary : op.IsBinary) (equal : op.kind ≠ .equalEqual)
    (different : op.kind ≠ .bangEqual) (plus : op.kind ≠ .plus) (x y : Float) :
    Run.arithmetic? op.kind x y ≠ none := by
  have known : ∀ kind ∈ [Token.Kind.greater, .greaterEqual, .less, .lessEqual, .minus, .slash,
      .star], Run.arithmetic? kind x y ≠ none := by simp [Run.arithmetic?]
  refine known op.kind ?_
  simpa [Token.IsBinary, equal, different, plus] using binary

/-- A binary operator of a program is one of those that there are. -/
theorem quiet_applyBinary {op : Token} (binary : op.IsBinary) (a b : Value) :
    Quiet w (Run.applyBinary op a b) fun v => v.isPlain = true := by
  unfold Run.applyBinary
  split
  · exact quiet_pure rfl
  · exact quiet_pure rfl
  · exact quiet_pure rfl
  · exact quiet_pure rfl
  · exact quiet_raise rfl
  · next equal different plus =>
    split
    · next h => exact quiet_pure (Run.isPlain_of_arithmetic? h)
    · next unknown => exact (arithmetic?_ne_none binary equal different plus _ _ unknown).elim
  · exact quiet_raise rfl

theorem quiet_fieldOwner (object : Value) (name : Token) :
    Quiet w (Run.fieldOwner object name) fun _ => True := by
  unfold Run.fieldOwner
  split
  · exact quiet_pure trivial
  · exact quiet_raise rfl

end Quiet

theorem safe_raise {post : α → Watched → Prop} (sound : Sound s) {token : Token} {fault : Fault}
    (expected : (Stop.raised token fault).isInternal = false) :
    Safe s (plain (Run.raise token fault)) post :=
  safe_plain (P := fun _ => False) sound (quiet_raise expected) fun _ _ _ h => h.elim

theorem safe_fail {post : α → Watched → Prop} (sound : Sound s) {fault : Fault}
    (expected : (Stop.unplaced fault).isInternal = false) :
    Safe s (plain (Run.fail fault)) post :=
  safe_plain (P := fun _ => False) sound (quiet_fail expected) fun _ _ _ h => h.elim

end Lox.Watch
