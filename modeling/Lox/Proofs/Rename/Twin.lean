import Lox.Proofs.Native.Given
import Lox.Proofs.Rename.Apart
import Lox.Proofs.Run.Frames
import Lox.Proofs.Run.Internal
import Lox.Session

/-!
Two runs side by side, of a program and of the same program with another name for a variable. Both
make the same frames in the same order; where a frame was made for the scope of the variable, the
second run has the variable under its new name, and everywhere else the runs hold the same.
-/

namespace Lox.Twin

open Scope

/-! ### The frames of both runs -/

/-- The frame around each frame, and whether it was made for the scope of the variable. -/
abbrev Skeleton := List (Option Nat × Bool)

namespace Skeleton

def parent? (S : Skeleton) (e : Nat) : Option Nat := S[e]?.bind (·.1)

def marked (S : Skeleton) (e : Nat) : Bool := (S[e]?.map (·.2)).getD false

/-- The frame so many steps outward. -/
def out? (S : Skeleton) (e : Nat) : Nat → Option Nat
  | 0 => some e
  | d + 1 =>
    match S.parent? e with
    | none => none
    | some p => S.out? p d

/-- A frame around another is there. -/
def Closed (S : Skeleton) : Prop := ∀ e p, S.parent? e = some p → p < S.length

/-- One more frame. -/
def push (S : Skeleton) (parent : Nat) (mark : Bool) : Skeleton := S ++ [(some parent, mark)]

variable {S S' : Skeleton} {e : Nat}

/-- A new frame is added behind the others. -/
theorem extended_push (parent : Nat) (mark : Bool) : S <+: S.push parent mark :=
  List.prefix_append S _

@[simp] theorem length_push (parent : Nat) (mark : Bool) :
    (S.push parent mark).length = S.length + 1 := by
  simp [push]

theorem getElem?_extended (h : S <+: S') (inside : e < S.length) : S'[e]? = S[e]? := by
  obtain ⟨T, rfl⟩ := h
  exact List.getElem?_append_left inside

/-- No frame is moved by frames that are added. -/
theorem parent?_extended (h : S <+: S') (inside : e < S.length) : S'.parent? e = S.parent? e := by
  rw [parent?, getElem?_extended h inside, parent?]

/-- No frame gets or loses its mark by frames that are added. -/
theorem marked_extended (h : S <+: S') (inside : e < S.length) : S'.marked e = S.marked e := by
  rw [marked, getElem?_extended h inside, marked]

/-- A new frame is around the frame it is made in. -/
theorem parent?_push (parent : Nat) (mark : Bool) (e : Nat) :
    (S.push parent mark).parent? e = if e = S.length then some parent else S.parent? e := by
  unfold parent? push
  rw [List.getElem?_append]
  grind

/-- A new frame has the mark it is made with. -/
theorem marked_push (parent : Nat) (mark : Bool) (e : Nat) :
    (S.push parent mark).marked e = if e = S.length then mark else S.marked e := by
  unfold marked push
  rw [List.getElem?_append]
  grind

/-- A frame that is made in one that is there leaves no frame without the one around it. -/
theorem Closed.push (closed : S.Closed) {parent : Nat} (inside : parent < S.length) (mark : Bool) :
    (S.push parent mark).Closed := by
  intro e p h
  rw [length_push]
  rw [parent?_push] at h
  split at h
  · cases h
    omega
  · have := closed e p h
    omega

/-- Going outward leads to frames that are there. -/
theorem Closed.lt_of_out? (closed : S.Closed) (inside : e < S.length) {d g : Nat}
    (h : S.out? e d = some g) : g < S.length := by
  induction d generalizing e with
  | zero =>
    cases h
    exact inside
  | succ d ih =>
    unfold out? at h
    split at h
    · cases h
    · next p hp => exact ih (closed e p hp) h

/-- What is outward of a frame does not change. -/
theorem Closed.out?_extended (closed : S.Closed) (h : S <+: S') (inside : e < S.length) (d : Nat) :
    S'.out? e d = S.out? e d := by
  induction d generalizing e with
  | zero => rfl
  | succ d ih =>
    unfold out?
    rw [parent?_extended h inside]
    cases hp : S.parent? e with
    | none => rfl
    | some p => exact ih (closed e p hp)

end Skeleton

variable {r : Renaming} {S S' : Skeleton}

/-- Outward of the frame, those are marked that stand for the scope of the variable among `scopes`.
-/
structure Around (r : Renaming) (S : Skeleton) (scopes : List Place) (e : Nat) : Prop where
  inside : e < S.length
  marks : ∀ d g, S.out? e d = some g → S.marked g = decide (scopes[d]? = some r.scope)

/-- Frames that are added are around no frame that was there. -/
theorem Around.mono (closed : S.Closed) (h : S <+: S') {scopes : List Place} {e : Nat}
    (around : Around r S scopes e) : Around r S' scopes e := by
  refine ⟨Nat.lt_of_lt_of_le around.inside h.length_le, fun d g out => ?_⟩
  rw [closed.out?_extended h around.inside] at out
  rw [Skeleton.marked_extended h (closed.lt_of_out? around.inside out)]
  exact around.marks d g out

/-- A new frame for a scope. -/
theorem Around.push (closed : S.Closed) {scopes : List Place} {e : Nat}
    (around : Around r S scopes e) (place : Place) :
    Around r (S.push e (place = r.scope)) (place :: scopes) S.length := by
  refine ⟨by simp, fun d g out => ?_⟩
  cases d with
  | zero =>
    cases out
    simp [Skeleton.marked_push]
  | succ d =>
    have parent : (S.push e (decide (place = r.scope))).parent? S.length = some e := by
      rw [Skeleton.parent?_push, if_pos rfl]
    rw [Skeleton.out?, parent] at out
    exact (around.mono closed (Skeleton.extended_push e _)).marks d g out

/-! ### Values of both runs -/

end Lox.Twin

namespace Lox

open Scope

/-- The function at the place, with another name for the variable. -/
def Closure.rename (f : Closure) (r : Renaming) (π : Place) : Closure :=
  { f with
    params := f.params.map (r.declared (.body :: π))
    body := Stmt.renameAll r (.body :: π) 0 f.body }

end Lox

namespace Lox.Twin

open Scope

variable {r : Renaming} {S S' : Skeleton}

/-- The second function is the first one at the place with another name that suits it. -/
structure Renamed (r : Renaming) (π : Place) (f f' : Closure) : Prop where
  eq : f' = f.rename r π
  params : ∀ t ∈ f.params, r.Admits (.body :: π) t
  body : Stmt.AllSuit r (.body :: π) 0 f.body

def LikeClosure (r : Renaming) (S : Skeleton) (f f' : Closure) : Prop :=
  ∃ π, Renamed r π f f' ∧ Around r S (enclosing π) f.frame

/-- Methods that no instance has yet: the frame of the instance is still missing. -/
def LikeMethod (r : Renaming) (S : Skeleton) (f f' : Closure) : Prop :=
  ∃ π place scopes, Renamed r π f f' ∧ enclosing π = place :: scopes ∧ Around r S scopes f.frame

structure LikeClass (r : Renaming) (S : Skeleton) (c c' : Class) : Prop where
  id : c'.id = c.id
  name : c'.name = c.name
  methods : ∀ n, Option.Rel (LikeMethod r S) (c.method? n) (c'.method? n)

inductive Like (r : Renaming) (S : Skeleton) : Value → Value → Prop where
  | plain {v : Value} : v.isPlain = true → Like r S v v
  | function {f f' : Closure} : LikeClosure r S f f' → Like r S (.function f) (.function f')
  | classObj {c c' : Class} : LikeClass r S c c' → Like r S (.classObj c) (.classObj c')
  | object {c c' : Class} (id : Nat) : LikeClass r S c c' → Like r S (.object id c) (.object id c')

section Mono

variable {f f' : Closure} {c c' : Class} {v v' : Value}

/-- Like functions stay alike when frames are added. -/
theorem LikeClosure.mono (closed : S.Closed) (h : S <+: S') (like : LikeClosure r S f f') :
    LikeClosure r S' f f' := by
  obtain ⟨π, renamed, around⟩ := like
  exact ⟨π, renamed, around.mono closed h⟩

theorem LikeMethod.mono (closed : S.Closed) (h : S <+: S') (like : LikeMethod r S f f') :
    LikeMethod r S' f f' := by
  obtain ⟨π, place, scopes, renamed, enclosed, around⟩ := like
  exact ⟨π, place, scopes, renamed, enclosed, around.mono closed h⟩

theorem rel_mono {α : Type} {R R' : α → α → Prop} (imp : ∀ a b, R a b → R' a b) {a b : Option α}
    (h : Option.Rel R a b) : Option.Rel R' a b := by
  cases h with
  | some h => exact .some (imp _ _ h)
  | none => exact .none

/-- Like classes stay alike when frames are added. -/
theorem LikeClass.mono (closed : S.Closed) (h : S <+: S') (like : LikeClass r S c c') :
    LikeClass r S' c c' :=
  ⟨like.id, like.name, fun n => rel_mono (fun _ _ hf => hf.mono closed h) (like.methods n)⟩

/-- Like values stay alike when frames are added. -/
theorem Like.mono (closed : S.Closed) (h : S <+: S') (like : Like r S v v') : Like r S' v v' := by
  cases like with
  | plain hv => exact .plain hv
  | function hf => exact .function (hf.mono closed h)
  | classObj hc => exact .classObj (hc.mono closed h)
  | object id hc => exact .object id (hc.mono closed h)

/-- Another name makes no more parameters. -/
theorem Renamed.length_params {π : Place} (h : Renamed r π f f') :
    f'.params.length = f.params.length := by
  rw [h.eq, Closure.rename, List.length_map]

theorem LikeMethod.length_params (like : LikeMethod r S f f') :
    f'.params.length = f.params.length := by
  obtain ⟨π, _, _, renamed, -⟩ := like
  exact renamed.length_params

/-- Like classes take as many arguments. -/
theorem LikeClass.arity (like : LikeClass r S c c') :
    (Callable.classObj c').arity = (Callable.classObj c).arity := by
  have init := like.methods initName
  unfold Callable.arity
  dsimp only
  generalize c.method? initName = m at init ⊢
  generalize c'.method? initName = m' at init ⊢
  cases init with
  | some h => exact h.length_params
  | none => rfl

/-- A host takes the values of the second run for those of the first. -/
theorem likeness (r : Renaming) (S : Skeleton) : Likeness (Like r S) where
  plain _ hv := .plain hv
  alike v v' like := by
    cases like with
    | plain => rfl
    | function hf =>
      obtain ⟨π, renamed, -⟩ := hf
      have arity := renamed.length_params
      obtain ⟨rfl, -, -⟩ := renamed
      exact congrArg (Appearance.function _ _) arity.symm
    | classObj hc => simp only [Value.appearance, hc.id, hc.name, hc.arity]
    | object id hc => simp only [Value.appearance, hc.id, hc.name]

end Mono

/-! ### Worlds of both runs -/

structure LikeWorld (r : Renaming) (S : Skeleton) (w w' : World) : Prop where
  closed : S.Closed
  root : S[0]? = some (none, false)
  marks : ∀ e, S.marked e = true → ∃ step π, r.scope = step :: π ∧ step.opens = true
  size : w.frames.size = S.length
  size' : w'.frames.size = S.length
  parents : ∀ e, w.frames.parent? e = S.parent? e
  parents' : ∀ e, w'.frames.parent? e = S.parent? e
  bound : ∀ e n, Option.Rel (Like r S) (w.frames.own? e n)
    (w'.frames.own? e (r.swap (S.marked e) n))
  fields : ∀ (id : Nat) n, Option.Rel (Like r S) (w.objects[id]?.bind (Bindings.get? n))
    (w'.objects[id]?.bind (Bindings.get? n))
  count : w'.objects.size = w.objects.size
  stamp : w'.stamp = w.stamp
  printed : w'.printed = w.printed
  depth : w'.depth = w.depth
  asked : w'.asked = w.asked

def FaultLike (r : Renaming) (fault fault' : Fault) : Prop :=
  fault' = fault ∨ fault = .undefinedVariable r.old ∧ fault' = .undefinedVariable r.new

/-- Both runs end early for the same reason, but for the name of a variable that is not there. -/
inductive StopLike (r : Renaming) : Stop → Stop → Prop where
  | raised {t t' : Token} {fault fault' : Fault} : t'.line = t.line → FaultLike r fault fault' →
      StopLike r (.raised t fault) (.raised t' fault')
  | unplaced (fault : Fault) : StopLike r (.unplaced fault) (.unplaced fault)
  | outOfFuel : StopLike r .outOfFuel .outOfFuel

/-- Problems with which both runs may end. -/
def LikeProblem (r : Renaming) (p p' : Problem) : Prop := StopLike r p.stop p'.stop

/-- A native is shown no names of variables. -/
theorem FaultLike.shown {fault fault' : Fault} (h : FaultLike r fault fault') :
    fault'.shown = fault.shown := by
  obtain rfl | ⟨rfl, rfl⟩ := h
  · rfl
  · rfl

/-- Problems that are alike look the same to a native. -/
theorem LikeProblem.mishap {p p' : Problem} (h : LikeProblem r p p') : p'.mishap = p.mishap := by
  obtain ⟨token, fault⟩ := p
  obtain ⟨token', fault'⟩ := p'
  unfold LikeProblem at h
  unfold Problem.mishap
  cases token with
  | some t =>
    cases token' with
    | some t' =>
      cases h with
      | raised _ like => simp only [Option.isSome_some, like.shown]
    | none => cases h
  | none =>
    cases token' with
    | some t' => cases h
    | none =>
      cases h
      rfl

/-- Both runs end with problems, and like ones, or both for want of fuel. -/
theorem StopLike.problem? {stop stop' : Stop} (h : StopLike r stop stop') :
    Option.Rel (LikeProblem r) stop.problem? stop'.problem? := by
  cases h with
  | raised line like => exact .some (.raised line like)
  | unplaced fault => exact .some (.unplaced fault)
  | outOfFuel => exact .none

/-! ### Parts of both runs -/

variable {α β : Type} {w w' : World}

/-- From like worlds, both parts end alike in like worlds, and `post` holds of what they give. -/
def Mirror (r : Renaming) (S : Skeleton) (w w' : World) (act act' : Run α)
    (post : Skeleton → α → α → Prop) : Prop :=
  match act w, act' w' with
  | .ok a u, .ok a' u' => ∃ S', S <+: S' ∧ LikeWorld r S' u u' ∧ post S' a a'
  | .error stop u, .error stop' u' =>
    StopLike r stop stop' ∧ ∃ S', S <+: S' ∧ LikeWorld r S' u u'
  | _, _ => False

section Mirror

variable {act act' : Run α} {post : Skeleton → α → α → Prop}

theorem mirror_pure (twin : LikeWorld r S w w') {a a' : α} (h : post S a a') :
    Mirror r S w w' (pure a) (pure a') post :=
  ⟨S, List.prefix_refl S, twin, h⟩

/-- Both runs stop, for like reasons. -/
theorem mirror_throw (twin : LikeWorld r S w w') {stop stop' : Stop} (h : StopLike r stop stop') :
    Mirror r S w w' (throw stop) (throw stop') post :=
  ⟨h, S, List.prefix_refl S, twin⟩

theorem mirror_raise (twin : LikeWorld r S w w') (t : Token) (fault : Fault) :
    Mirror r S w w' (Run.raise t fault) (Run.raise t fault) post :=
  mirror_throw twin (.raised rfl (.inl rfl))

theorem mirror_fail (twin : LikeWorld r S w w') (fault : Fault) :
    Mirror r S w w' (Run.fail fault) (Run.fail fault) post :=
  mirror_throw twin (.unplaced fault)

/-- Parts that do the same in both runs do so one after the other. -/
theorem Mirror.bind {next next' : α → Run β} {post' : Skeleton → β → β → Prop}
    (h : Mirror r S w w' act act' post)
    (hnext : ∀ S' u u' a a', S <+: S' → LikeWorld r S' u u' → post S' a a' →
      Mirror r S' u u' (next a) (next' a') post') :
    Mirror r S w w' (act >>= next) (act' >>= next') post' := by
  unfold Mirror at h ⊢
  rw [Run.bind_apply, Run.bind_apply]
  -- where one run fails so does the other, and the second parts are not run
  cases hw : act w with
  | ok a u =>
    cases hw' : act' w' with
    | ok a' u' =>
      rw [hw, hw'] at h
      obtain ⟨S', ext, twin, hp⟩ := h
      have after := hnext S' u u' a a' ext twin hp
      unfold Mirror at after
      dsimp only
      cases hu : next a u with
      | ok b x =>
        cases hu' : next' a' u' with
        | ok b' x' =>
          rw [hu, hu'] at after
          obtain ⟨S'', ext', rest⟩ := after
          exact ⟨S'', ext.trans ext', rest⟩
        | error => simp only [hu, hu'] at after
      | error stop x =>
        cases hu' : next' a' u' with
        | ok => simp only [hu, hu'] at after
        | error stop' x' =>
          rw [hu, hu'] at after
          obtain ⟨like, S'', ext', rest⟩ := after
          exact ⟨like, S'', ext.trans ext', rest⟩
    | error => simp only [hw, hw'] at h
  | error stop u =>
    cases hw' : act' w' with
    | ok => simp only [hw, hw'] at h
    | error stop' u' =>
      rw [hw, hw'] at h
      exact h

/-- A value that is not used makes no difference. -/
theorem Mirror.discard (h : Mirror r S w w' act act' post) :
    Mirror r S w w' (Functor.discard act) (Functor.discard act') fun _ _ _ => True := by
  have bound : Mirror r S w w' (act >>= fun _ => pure ()) (act' >>= fun _ => pure ())
      fun _ _ _ => True := h.bind fun _ _ _ _ _ _ twin _ => mirror_pure twin trivial
  unfold Mirror at bound ⊢
  rwa [Run.discard_apply, Run.discard_apply]

/-- Both runs may look at their worlds. -/
theorem mirror_get {next next' : World → Run α} (h : Mirror r S w w' (next w) (next' w') post) :
    Mirror r S w w' (get >>= next) (get >>= next') post := h

end Mirror

end Lox.Twin
