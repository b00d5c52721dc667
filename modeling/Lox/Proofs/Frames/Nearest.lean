import Lox.Proofs.Run.Graph

/-!
Names along a chain of frames and names at a distance. In frames that were made one inside the
other, the nearest frame that binds a name lies at some distance, and what is read or assigned by
name is read or assigned at that distance. An assignment changes one name of one frame, so it is
seen from where that frame is the nearest to bind the name, and from nowhere else.
-/

namespace Lox.Frames

variable {α : Type} {fs : Frames α}

/-! ### What is asked of frames -/

/-- What was found for a name; if nothing was, the name is undefined. -/
def orUndefined {β : Type} (name : String) : Option β → Except Fault β
  | some b => .ok b
  | none => .error (.undefinedVariable name)

/-- What a name stands for along the chain. -/
def read (fs : Frames α) (e : Nat) (name : String) : Except Fault α :=
  orUndefined name (fs.get? e name)

/-- What a name stands for in the frame at a distance. -/
def readAt (fs : Frames α) (e : Nat) (d : Int) (name : String) : Except Fault α :=
  orUndefined name (fs.getAt? e d name)

/-- What is done to frames. -/
inductive Change (α : Type) where
  | new (parent : Option Nat)
  | define (e : Nat) (name : String) (a : α)
  | assign (e : Nat) (name : String) (a : α)
  | assignAt (e : Nat) (d : Int) (name : String) (a : α)

namespace Change

/-- The frames that the change is about are there. -/
def Fits (fs : Frames α) : Change α → Prop
  | new parent => ∀ p ∈ parent, p < fs.size
  | define e _ _ | assign e _ _ | assignAt e _ _ _ => e < fs.size

/-- The frames after the change, or why there is no change. -/
def result (fs : Frames α) : Change α → Except Fault (Frames α)
  | new parent => .ok (fs.push parent [])
  | define e name a => .ok (fs.define e name a)
  | assign e name a => orUndefined name (fs.assign? e name a)
  | assignAt e d name a => orUndefined name (fs.assignAt? e d name a)

/-- The frames after the change; one that fails leaves them as they are. -/
def after (fs : Frames α) (c : Change α) : Frames α :=
  match c.result fs with
  | .ok fs => fs
  | .error _ => fs

end Change

/-- Frames that a sequence of changes has made out of none. -/
inductive Built : Frames α → Prop where
  | none : Built {}
  | change {fs : Frames α} {c : Change α} : Built fs → c.Fits fs → Built (c.after fs)

/-! ### What the answers are -/

/-- The frame `k` steps outward binds the name, and none nearer does. -/
structure IsNearest (fs : Frames α) (e : Nat) (name : String) (k i : Nat) : Prop where
  reached : fs.ancestor? e k = some i
  binds : ∃ a, fs.own? i name = some a
  first : ∀ j < k, ∀ nearer, fs.ancestor? e (j : Nat) = some nearer → fs.own? nearer name = none

/-- At the distance there is no frame, or one that does not bind the name. -/
def Misses (fs : Frames α) (e : Nat) (d : Int) (name : String) : Prop :=
  ∀ i, fs.ancestor? e d = some i → fs.own? i name = none

/-- `after` is `fs` with another value for one name in frame `i`, and that is seen from where frame
`i` is the nearest to bind the name. -/
structure Sets (fs : Frames α) (i : Nat) (name : String) (a : α) (after : Frames α) : Prop where
  size : after.size = fs.size
  parent : ∀ e, after.parent? e = fs.parent? e
  own : ∀ e other, after.own? e other = if e = i ∧ other = name then some a else fs.own? e other
  seen : ∀ e k, fs.IsNearest e name k i → after.read e name = .ok a
  unseen : ∀ e other, (other = name → ∀ k, ¬ fs.IsNearest e name k i) →
    after.read e other = fs.read e other
  unseenAt : ∀ e d other, (other = name → fs.ancestor? e d ≠ some i) →
    after.readAt e d other = fs.readAt e d other

/-- What holds of a name, seen from frame `e`. -/
structure Refines (fs : Frames α) (e : Nat) (name : String) (a : α) : Prop where
  /-- A distance that is not positive stays at the frame. -/
  stays : ∀ d ≤ 0, fs.ancestor? e d = some e
  /-- One step more goes to the frame around. -/
  goesOut : ∀ d : Nat, fs.ancestor? e (d + 1 : Nat) = (fs.ancestor? e d).bind fs.parent?
  /-- A name that is bound is read and assigned in the nearest frame that binds it. -/
  bound : ∀ k i, fs.IsNearest e name k i →
    (∃ b, fs.read e name = .ok b) ∧ fs.read e name = fs.readAt e k name ∧
    (Change.assign e name a).result fs = (Change.assignAt e k name a).result fs ∧
    ∃ after, (Change.assign e name a).result fs = .ok after ∧ fs.Sets i name a after
  /-- A name that no frame on the way out binds is undefined, and stays so. -/
  unbound : (∀ k : Nat, fs.Misses e k name) →
    fs.read e name = .error (.undefinedVariable name) ∧
    (Change.assign e name a).result fs = .error (.undefinedVariable name) ∧
    (Change.assign e name a).after fs = fs
  /-- Nothing but a miss makes an access at a distance fail. -/
  distance : ∀ d,
    (fs.readAt e d name = .error (.undefinedVariable name) ↔ fs.Misses e d name) ∧
    ((Change.assignAt e d name a).result fs = .error (.undefinedVariable name) ↔
      fs.Misses e d name) ∧
    (fs.Misses e d name → (Change.assignAt e d name a).after fs = fs)
  /-- What does not fail reads or sets the name in that frame. -/
  hit : ∀ d, ¬ fs.Misses e d name → ∃ i, fs.ancestor? e d = some i ∧
    (∃ b, fs.own? i name = some b ∧ fs.readAt e d name = .ok b) ∧
    ∃ after, (Change.assignAt e d name a).result fs = .ok after ∧ fs.Sets i name a after

/-! ### Every frame lies in an older one -/

theorem parent?_after {c : Change α} (h : ∀ parent, c ≠ .new parent) (e : Nat) :
    (c.after fs).parent? e = fs.parent? e := by
  have kept (o : Option Nat) (name : String) (a : α) : ∀ after,
      orUndefined name (o.map (fs.define · name a)) = .ok after →
        after.parent? e = fs.parent? e := by
    rintro after found
    cases o with
    | none => cases found
    | some i =>
      cases found
      exact parent?_define ..
  unfold Change.after
  split
  · next after found =>
    cases c with
    | new parent => exact absurd rfl (h parent)
    | define i name a =>
      cases found
      exact parent?_define ..
    | assign | assignAt => exact kept _ _ _ _ found
  · rfl

/-- A frame stands outside of those made after it. -/
theorem Built.older (built : fs.Built) : ∀ e p, fs.parent? e = some p → p < e := by
  induction built with
  | none => nofun
  | @change fs c _ fits ih =>
    intro e p inside
    cases c with
    | new parent =>
      have pushed : (fs.push parent []).parent? e = some p := inside
      rw [parent?_push] at pushed
      split at pushed
      · next new => exact new ▸ fits p pushed
      · exact ih e p pushed
    | _ =>
      rw [parent?_after (by simp)] at inside
      exact ih e p inside

/-! ### The nearest frame -/

section Nearest

variable {e i k : Nat} {name : String} {a : α}

/-- The lookup by name finds the nearest frame that binds it. -/
theorem nearest?_eq_some_iff (older : ∀ e p, fs.parent? e = some p → p < e) :
    fs.nearest? e name = some i ↔ ∃ k, fs.IsNearest e name k i := by
  have out (d : Nat) : fs.ancestor? e d = (fs.outward e)[d]? := (chain_of_older older e).stepsOut? d
  rw [nearest?, List.find?_eq_some_iff_getElem]
  constructor
  · rintro ⟨binds, k, inside, here, first⟩
    refine ⟨k, ?_, Option.isSome_iff_exists.mp binds, fun j hj nearer reached => ?_⟩
    · rw [out, List.getElem?_eq_getElem inside, here]
    · rw [out, List.getElem?_eq_getElem (hj.trans inside)] at reached
      have other := first j hj
      rw [Option.some.inj reached] at other
      simpa using other
  · rintro ⟨k, reached, binds, first⟩
    rw [out, List.getElem?_eq_some_iff] at reached
    obtain ⟨inside, here⟩ := reached
    refine ⟨Option.isSome_iff_exists.mpr binds, k, inside, here, fun j hj => ?_⟩
    have other := first j hj _ (by rw [out, List.getElem?_eq_getElem (hj.trans inside)])
    simp [other]

/-- The lookup by name finds nothing where every distance misses. -/
theorem nearest?_eq_none_iff (older : ∀ e p, fs.parent? e = some p → p < e) :
    fs.nearest? e name = none ↔ ∀ k : Nat, fs.Misses e k name := by
  have out (d : Nat) : fs.ancestor? e d = (fs.outward e)[d]? := (chain_of_older older e).stepsOut? d
  rw [nearest?, List.find?_eq_none]
  constructor
  · intro misses k i reached
    rw [out] at reached
    simpa using misses i (List.mem_of_getElem? reached)
  · intro misses i mem
    obtain ⟨k, here⟩ := List.mem_iff_getElem?.mp mem
    simpa using misses k i (by rw [out, here])

theorem lt_size_of_own? (h : fs.own? i name = some a) : i < fs.size := by
  refine Nat.lt_of_not_le fun outside => ?_
  rw [own?_eq_none fs outside] at h
  cases h

/-- The only error is that the name is not defined. -/
theorem orUndefined_eq_error_iff {β : Type} {o : Option β} :
    orUndefined name o = .error (.undefinedVariable name) ↔ o = none := by
  cases o <;> simp [orUndefined]

end Nearest

/-! ### Distances -/

section Distance

variable (fs) (e : Nat) (d : Int) (name : String) (a : α)

theorem stepsOut?_succ_eq_bind (n : Nat) :
    fs.stepsOut? e (n + 1) = (fs.stepsOut? e n).bind fs.parent? := by
  induction n generalizing e with
  | zero =>
    rw [stepsOut?, stepsOut?, Option.bind_some]
    cases fs.parent? e <;> rfl
  | succ n ih =>
    rw [stepsOut?, stepsOut?]
    cases fs.parent? e with
    | none => rfl
    | some p => exact ih p

/-- A lookup at a distance fails exactly if it misses. -/
theorem misses_iff_getAt? : fs.Misses e d name ↔ fs.getAt? e d name = none :=
  Option.bind_eq_none_iff.symm

theorem misses_iff_assignAt? : fs.Misses e d name ↔ fs.assignAt? e d name a = none := by
  rw [assignAt?, Option.map_eq_none_iff, frameAt?, Option.filter_eq_none_iff]
  simp [Misses]

variable {e d name} {i : Nat}

/-- An access that does not miss is one to a frame that binds the name. -/
theorem assignAt?_eq_some (reached : fs.ancestor? e d = some i)
    (bound : ∃ b, fs.own? i name = some b) :
    fs.assignAt? e d name a = some (fs.define i name a) := by
  rw [assignAt?, frameAt?, reached, Option.filter_some, if_pos (Option.isSome_iff_exists.mpr bound)]
  rfl

end Distance

/-! ### One name of one frame -/

section Sets

variable {after : Frames α} {e i k : Nat} {name : String} {a : α}

/-- Defining a name moves no frame. -/
theorem ancestor?_define (d : Int) :
    (fs.define i name a).ancestor? e d = fs.ancestor? e d := by
  unfold ancestor?
  induction d.toNat with
  | zero => rfl
  | succ n ih =>
    rw [stepsOut?_succ_eq_bind, stepsOut?_succ_eq_bind, ih]
    exact Option.bind_congr fun out _ => parent?_define ..

/-- Setting a name that is bound binds no other. -/
theorem own?_define_eq_none_iff (bound : ∃ b, fs.own? i name = some b) {j : Nat} {other : String} :
    (fs.define i name a).own? j other = none ↔ fs.own? j other = none := by
  rw [own?_define]
  split
  · next here =>
    obtain ⟨rfl, -, rfl⟩ := here
    obtain ⟨b, bound⟩ := bound
    simp [bound]
  · rfl

theorem isNearest_define (bound : ∃ b, fs.own? i name = some b) {j : Nat} {other : String} :
    (fs.define i name a).IsNearest e other k j ↔ fs.IsNearest e other k j := by
  have binds (j : Nat) : (∃ b, (fs.define i name a).own? j other = some b) ↔
      ∃ b, fs.own? j other = some b := by
    rw [← Option.ne_none_iff_exists', ← Option.ne_none_iff_exists', ne_eq,
      own?_define_eq_none_iff bound]
  constructor
  · rintro ⟨reached, bound', first⟩
    simp only [ancestor?_define, own?_define_eq_none_iff bound] at reached first
    exact ⟨reached, (binds j).mp bound', first⟩
  · rintro ⟨reached, bound', first⟩
    refine ⟨?_, (binds j).mpr bound', ?_⟩
    · rwa [ancestor?_define]
    · simpa only [ancestor?_define, own?_define_eq_none_iff bound] using first

/-- Defining a name again where it is bound changes no nearest frame. -/
theorem nearest?_define (older : ∀ e p, fs.parent? e = some p → p < e)
    (bound : ∃ b, fs.own? i name = some b) (other : String) :
    (fs.define i name a).nearest? e other = fs.nearest? e other := by
  have older' : ∀ e p, (fs.define i name a).parent? e = some p → p < e := by
    simpa only [parent?_define] using older
  ext j
  rw [nearest?_eq_some_iff older, nearest?_eq_some_iff older']
  exact exists_congr fun k => isNearest_define bound

/-- Setting a name that is bound is seen from where that frame is the nearest to bind it, and from
nowhere else. -/
theorem sets_define (older : ∀ e p, fs.parent? e = some p → p < e)
    (bound : ∃ b, fs.own? i name = some b) : fs.Sets i name a (fs.define i name a) := by
  obtain ⟨b, held⟩ := bound
  have inside := lt_size_of_own? held
  -- one binding of one frame changes
  have own (e : Nat) (other : String) : (fs.define i name a).own? e other =
      if e = i ∧ other = name then some a else fs.own? e other := by
    rw [own?_define]
    simp only [inside, true_and]
  refine ⟨size_define .., fun e => parent?_define .., own, fun e k nearest => ?_,
    fun e other apart => ?_, fun e d other apart => ?_⟩
  · have found := (nearest?_eq_some_iff older).mpr ⟨k, nearest⟩
    rw [read, get?, nearest?_define older ⟨b, held⟩, found, Option.bind_some, own, if_pos ⟨rfl, rfl⟩]
    rfl
  -- a name that is found elsewhere is found as before
  · rw [read, read, get?, get?, nearest?_define older ⟨b, held⟩]
    refine congrArg _ (Option.bind_congr fun j found => ?_)
    obtain ⟨k, nearest⟩ := (nearest?_eq_some_iff older).mp found
    rw [own, if_neg]
    rintro ⟨rfl, rfl⟩
    exact apart rfl k nearest
  · rw [readAt, readAt, getAt?, getAt?, ancestor?_define]
    refine congrArg _ (Option.bind_congr fun j reached => ?_)
    rw [own, if_neg]
    rintro ⟨rfl, rfl⟩
    exact apart rfl reached

end Sets

/-- What is asked along a chain of frames is asked at the distance of the nearest frame that binds
the name, and a distance fails only where there is no such frame or it does not bind the name. -/
theorem chain_refines (built : fs.Built) (e : Nat) (name : String) (a : α) :
    fs.Refines e name a := by
  have older := built.older
  -- what cannot be assigned stays as it is
  have undefined (d : Int) (miss : fs.Misses e d name) :
      (Change.assignAt e d name a).result fs = .error (.undefinedVariable name) :=
    orUndefined_eq_error_iff.mpr ((misses_iff_assignAt? fs e d name a).mp miss)
  refine ⟨fun d low => ?_, fun d => stepsOut?_succ_eq_bind .., fun k i nearest => ?_,
    fun misses => ?_, fun d => ⟨?_, ?_, fun miss => ?_⟩, fun d hits => ?_⟩
  · rw [ancestor?, Int.toNat_of_nonpos low]
    rfl
  · obtain ⟨b, bound⟩ := nearest.binds
    have found := (nearest?_eq_some_iff older).mpr ⟨k, nearest⟩
    have value : fs.get? e name = some b := by rw [get?, found, Option.bind_some, bound]
    have valueAt : fs.getAt? e k name = some b := by
      rw [getAt?, nearest.reached, Option.bind_some, bound]
    have assigned : fs.assign? e name a = some (fs.define i name a) := by
      rw [assign?, found, Option.map_some]
    have assignedAt := assignAt?_eq_some fs a nearest.reached nearest.binds
    refine ⟨⟨b, by rw [read, value]; rfl⟩, by rw [read, readAt, value, valueAt], ?_, _, ?_,
      sets_define older nearest.binds⟩
    · rw [Change.result, Change.result, assigned, assignedAt]
    · rw [Change.result, assigned]
      rfl
  · have found := (nearest?_eq_none_iff older).mpr misses
    have failed : (Change.assign e name a).result fs = .error (.undefinedVariable name) :=
      orUndefined_eq_error_iff.mpr (by rw [assign?, found]; rfl)
    refine ⟨orUndefined_eq_error_iff.mpr (by rw [get?, found]; rfl), failed, ?_⟩
    rw [Change.after, failed]
  · exact orUndefined_eq_error_iff.trans (misses_iff_getAt? fs e d name).symm
  · exact orUndefined_eq_error_iff.trans (misses_iff_assignAt? fs e d name a).symm
  · rw [Change.after, undefined d miss]
  · obtain ⟨i, reached, binds⟩ : ∃ i, fs.ancestor? e d = some i ∧ fs.own? i name ≠ none := by
      simpa [Misses] using hits
    have bound := Option.ne_none_iff_exists'.mp binds
    have ⟨b, held⟩ := bound
    refine ⟨i, reached, ⟨b, held, ?_⟩, _, ?_, sets_define older bound⟩
    · rw [readAt, getAt?, reached, Option.bind_some, held]
      rfl
    · rw [Change.result, assignAt?_eq_some fs a reached bound]
      rfl

/-- Two frames inside one, and a name that the last of them hides. -/
def siblings : Frames Nat :=
  [Change.new none, .define 0 "a" 1, .new (some 0), .new (some 0), .define 2 "a" 2].foldl
    Change.after {}

theorem built_siblings : siblings.Built := by
  have made : (Change.after {} (.new none) : Frames Nat).Built := .change .none nofun
  have defined := made.change (c := .define 0 "a" 1) (by show 0 < 1; decide)
  have first := defined.change (c := .new (some 0)) (by rintro _ ⟨⟩; decide)
  have second := first.change (c := .new (some 0)) (by rintro _ ⟨⟩; decide)
  exact second.change (c := .define 2 "a" 2) (by show 2 < 3; decide)

/-- What one of them assigns is seen from outside, but not by the one that hides the name. -/
theorem chain_refines_siblings : siblings.Built ∧
    ∃ after, (Change.assign 1 "a" 7).result siblings = .ok after ∧ after.read 0 "a" = .ok 7 ∧
      after.read 1 "a" = .ok 7 ∧ after.read 2 "a" = .ok 2 := by
  have here (e : Nat) (bound : ∃ b, siblings.own? e "a" = some b) :
      siblings.IsNearest e "a" 0 e := ⟨rfl, bound, by simp⟩
  have inner : siblings.IsNearest 1 "a" 1 0 := by
    refine ⟨rfl, ⟨1, rfl⟩, fun j hj nearer reached => ?_⟩
    obtain rfl : j = 0 := by omega
    cases reached
    rfl
  obtain ⟨-, -, -, after, done, sets⟩ := (chain_refines built_siblings 1 "a" 7).bound 1 0 inner
  have hidden : siblings.read 2 "a" = .ok 2 :=
    ((chain_refines built_siblings 2 "a" 7).bound 0 2 (here 2 ⟨2, rfl⟩)).2.1
  refine ⟨built_siblings, after, done, sets.seen 0 0 (here 0 ⟨1, rfl⟩), sets.seen 1 1 inner, ?_⟩
  rw [sets.unseen 2 "a" fun _ k nearest => ?_, hidden]
  -- Frame 2 binds the name itself, so no frame outside of it is the nearest.
  cases k with
  | zero => cases nearest.reached
  | succ k => cases nearest.first 0 (Nat.zero_lt_succ k) 2 rfl

end Lox.Frames
