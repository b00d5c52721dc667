import Lox.Proofs.Run.Label

/-!
Every step of a watched run keeps what holds: names are read and assigned where their addresses say,
and frames, functions, classes and instances are made as the notes describe them.
-/

namespace Lox.Watch

open Scope

variable {s : Watched}

/-! ### Values that are looked up -/

/-- A name that a program can spell is no name that only calls bind. -/
theorem undefined_isInternal {t : Token} (name : t.IsName) :
    (Stop.raised t (.undefinedVariable t.lexeme)).isInternal = false :=
  Stop.isInternal_undefined name.ne_this name.ne_super

/-- To read a name changes nothing; what is found is good. -/
theorem quiet_readRef (sound : Sound s) (env : Nat) {ref : Reference} (name : ref.name.IsName) :
    Quiet s.world (Run.readRef env ref) (GoodValue s) := by
  refine quiet_get ?_
  dsimp only
  split
  · next v found =>
    refine quiet_pure ?_
    have held : ∃ e, s.world.frames.own? e ref.name.lexeme = some v := by
      split at found
      · exact Frames.own?_of_getAt? _ found
      · exact Frames.own?_of_get? _ found
    obtain ⟨e, he⟩ := held
    exact sound.bound e _ v he
  · exact quiet_raise (undefined_isInternal name)

/-- What an initializer answers is bound in its frame. -/
theorem quiet_answer (sound : Sound s) (f : Closure) {completion : Run.Completion}
    (initializer : f.isInit = true → (s.world.frames.own? f.frame "this").isSome)
    (h : ∀ v, completion = .returned v → GoodValue s v) :
    Quiet s.world (Run.answer f completion) (GoodValue s) := by
  unfold Run.answer
  split
  · next init =>
    refine quiet_get ?_
    split
    · next v found =>
      obtain ⟨e, he⟩ := Frames.own?_of_getAt? _ found
      exact quiet_pure (sound.bound e _ v he)
    · next missing =>
      have bound := initializer init
      rw [show s.world.frames.own? f.frame "this" = none from missing] at bound
      cases bound
  · split
    · next v => exact quiet_pure (h v rfl)
    · exact quiet_pure trivial

/-- What is in a field is good. -/
theorem quiet_field? (sound : Sound s) (id : Nat) (name : String) :
    Quiet s.world (Run.field? id name) fun o => ∀ v, o = some v → GoodValue s v := by
  constructor
  · intro o w' run
    cases run
    exact ⟨.refl _, fun v found => sound.fields id name v found⟩
  · intro stop w' run
    cases run

/-! ### The layout of frames -/

section Layout

variable {fs : Frames Value} {labels : List Place} {heirs heirs' : List Heir}
  {received received' : List (Nat × Value)}

/-- A scope that is on record stays there. -/
theorem Recorded.mono (hheirs : heirs ⊆ heirs') (hreceived : received ⊆ received') {e : Nat}
    {π : Place} (h : Recorded heirs received e π) : Recorded heirs' received' e π := by
  unfold Recorded at h ⊢
  split at h
  · obtain ⟨heir, known, made⟩ := h
    exact ⟨heir, hheirs known, made⟩
  · obtain ⟨id, c, known⟩ := h
    exact ⟨id, c, hreceived known⟩
  · trivial

/-- A name that may be set in a frame: it is not one that the frame binds once and for all. -/
def Settable (e : Nat) (name : String) : Prop :=
  e = Frames.root ∨ (name ≠ "this" ∧ name ≠ "super")

/-- A name that a program can spell may be bound anywhere. -/
theorem settable_of_isName {t : Token} (name : t.IsName) (e : Nat) : Settable e t.lexeme :=
  .inr ⟨name.ne_this, name.ne_super⟩

/-- A name that is bound does not change which frame is made for which scope. -/
theorem Layout.define (layout : Layout fs labels heirs received) {e : Nat} {name : String}
    (settable : Settable e name) (v : Value) :
    Layout (fs.define e name v) labels heirs received where
  rooted := by simpa using layout.rooted
  labelled := by simpa using layout.labelled
  ordered e' parent h := layout.ordered e' parent (by rwa [Frames.parent?_define] at h)
  recorded := layout.recorded
  fixed e' name' v' h := by
    obtain ⟨inner, bound⟩ := layout.fixed e' name' v' h
    refine ⟨inner, ?_⟩
    rw [Frames.own?_define, if_neg, bound]
    rintro ⟨rfl, -, rfl⟩
    rcases settable with root | ⟨this, super⟩
    · exact inner root
    · rcases h with ⟨eq, -⟩ | ⟨eq, -⟩
      · exact super eq
      · exact this eq

/-- A new frame, noted with what it binds once and for all. -/
theorem Layout.push (layout : Layout fs labels heirs received) {parent : Nat}
    (inside : parent < fs.size) {bindings : Bindings Value} {π : Place} (hheirs : heirs ⊆ heirs')
    (hreceived : received ⊆ received') (recorded : Recorded heirs' received' fs.size π)
    (fixed : ∀ e name v, Fixed heirs' received' e name v → Fixed heirs received e name v ∨
      (e = fs.size ∧ Bindings.get? name bindings = some v)) :
    Layout (fs.push (some parent) bindings) (labels ++ [π]) heirs' received' where
  rooted := by simp
  labelled := by simp [layout.labelled]
  -- the new frame is the last, so every frame stands inside older ones
  ordered e p h := by
    rw [Frames.parent?_push] at h
    split at h
    · next new =>
      cases h
      exact new ▸ inside
    · exact layout.ordered e p h
  recorded e ρ h := by
    rw [List.getElem?_append] at h
    split at h
    · exact (layout.recorded e ρ h).mono hheirs hreceived
    · obtain ⟨here, rfl⟩ := List.getElem?_eq_some_iff.mp h
      have new : e = fs.size := by
        rw [List.length_singleton] at here
        have := layout.labelled
        omega
      simpa [new] using recorded
  -- what is fixed is fixed in older frames, or just now in the new one
  fixed e name v h := by
    rw [Frames.own?_push]
    rcases fixed e name v h with old | ⟨rfl, new⟩
    · obtain ⟨inner, bound⟩ := layout.fixed e name v old
      refine ⟨inner, ?_⟩
      rw [if_neg, bound]
      rintro rfl
      rw [Frames.own?_eq_none _ (Nat.le_refl _)] at bound
      cases bound
    · exact ⟨Nat.ne_of_gt layout.rooted, by rw [if_pos rfl, new]⟩

end Layout

/-! ### Steps -/

/-- What holds still holds if all that is new is as it should be. -/
theorem Sound.step {t : Watched} (sound : Sound s) (ext : Extends s t)
    (layout : Layout t.world.frames t.notes.labels t.notes.heirs t.notes.received)
    (bound : ∀ e name v, t.world.frames.own? e name = some v →
      s.world.frames.own? e name = some v ∨ GoodValue t v)
    (fields : ∀ (id : Nat) name v, t.world.objects[id]?.bind (Bindings.get? name) = some v →
      s.world.objects[id]?.bind (Bindings.get? name) = some v ∨ GoodValue t v)
    (fresh : ∀ id, t.world.stamp ≤ id → t.notes.origins.lookup id = none)
    (completed : ∀ p ∈ t.notes.completed, p ∈ s.notes.completed ∨
      ∃ e name decl, p = (e, .initializer name :: decl) ∧ (t.world.frames.own? e name).isSome)
    (agree : ∀ u ∈ t.notes.uses, u ∈ s.notes.uses ∨ u.Agrees)
    (dispatch : ∀ u ∈ t.notes.lookups, u ∈ s.notes.lookups ∨ u.Dispatches t.notes)
    (told : ∀ stop ∈ t.notes.told, stop ∈ s.notes.told ∨ stop.isInternal = false) : Sound t where
  layout := layout
  -- what was there before is good still; what is new is good by assumption
  bound e name v found := by
    rcases bound e name v found with old | good
    · exact (sound.bound e name v old).mono ext
    · exact good
  fields id name v found := by
    rcases fields id name v found with old | good
    · exact (sound.fields id name v old).mono ext
    · exact good
  fresh := fresh
  completed e name decl h := by
    rcases completed _ h with old | ⟨e', name', decl', heq, good⟩
    · exact ext.bound e name (sound.completed e name decl old)
    · cases heq
      exact good
  agree u h := by
    rcases agree u h with old | good
    · exact sound.agree u old
    · exact good
  dispatch u h := by
    rcases dispatch u h with old | good
    · exact Dispatches.mono ext (sound.dispatch u old)
    · exact good
  told stop h := (told stop h).elim (sound.told stop) id

/-- What is bound stays bound. -/
theorem isSome_own?_define {fs : Frames Value} {e : Nat} {name : String} {v : Value} {e' : Nat}
    {name' : String} (h : (fs.own? e' name').isSome) :
    ((fs.define e name v).own? e' name').isSome := by
  rw [Frames.own?_define]
  split
  · rfl
  · exact h

/-- A name that is given a value in a frame of its scope has one there. The value has to be good
only once the name is bound, since a function may call itself. -/
theorem safe_declare (sound : Sound s) {v : Value} {e : Nat} {name : String}
    (settable : Settable e name) (good : ∀ t, Extends s t → (∀ c : Context, Fits s c.scopes e →
      Fits t (c.mark name true).scopes e) → GoodValue t v) :
    Safe s (plain (Run.define e name v)) fun _ t => ∀ c : Context, Fits s c.scopes e →
      Fits t (c.mark name true).scopes e ∧ (t.world.frames.own? e name).isSome := by
  constructor
  · intro _ t run
    cases run
    have ext : Extends s { s with world := { s.world with
        frames := s.world.frames.define e name v } } :=
      ⟨fun _ _ h => h, fun e' p h => by rwa [Frames.parent?_define],
        fun e' name' h => isSome_own?_define h, fun _ _ h => h, fun _ h => h, fun _ h => h⟩
    -- the frame was there, and now it has the name
    have held {c : Context} (fits : Fits s c.scopes e) :
        ((s.world.frames.define e name v).own? e name).isSome := by
      rw [Frames.own?_define, if_pos ⟨rfl, fits.lt_size sound, rfl⟩]
      rfl
    -- of the scopes only the innermost changes, and only in this name
    have declared (c : Context) (fits : Fits s c.scopes e) : Fits { s with world := { s.world with
        frames := s.world.frames.define e name v } } (c.mark name true).scopes e := by
      have bound := held fits
      have kept := fits.mono ext
      obtain ⟨scopes, body, family⟩ := c
      cases scopes with
      | nil => exact kept
      | cons scope rest =>
        refine ⟨kept.1, fun other known => ?_, kept.2.2⟩
        dsimp only at known
        rw [Bindings.get?_insert] at known
        split at known
        · next heq => exact heq ▸ bound
        · exact kept.2.1 other known
    refine ⟨ext, ?_, fun c fits => ⟨declared c fits, held fits⟩⟩
    refine sound.step ext (sound.layout.define settable v) ?_ (fun _ _ _ h => .inl h) sound.fresh
      (fun _ h => .inl h) (fun _ h => .inl h) (fun _ h => .inl h) (fun _ h => .inl h)
    intro e' name' v' found
    rw [Frames.own?_define] at found
    split at found
    · cases found
      exact .inr (good _ ext declared)
    · exact .inl found
  · intro stop t run
    cases run

/-- A name that is bound is known from then on in every context that fits. -/
theorem safe_define (sound : Sound s) {v : Value} (good : GoodValue s v) {e : Nat}
    {name : String} (settable : Settable e name) :
    Safe s (plain (Run.define e name v)) fun _ t => ∀ c : Context, Fits s c.scopes e →
      Fits t (c.mark name true).scopes e ∧ (t.world.frames.own? e name).isSome :=
  safe_declare sound settable fun _ ext _ => good.mono ext

/-- To look at the world is safe if what follows is. -/
theorem safe_plain_get {α : Type} {next : World → Run α} {post : α → Watched → Prop}
    (h : Safe s (plain (next s.world)) post) : Safe s (plain (get >>= next)) post :=
  ⟨h.ok, h.error⟩

/-- Assignment changes a name where it is bound. -/
theorem safe_assign (sound : Sound s) {v : Value} (good : GoodValue s v) (env : Nat)
    {ref : Reference} (name : ref.name.IsName) :
    Safe s (plain (Run.assignRef env ref v)) fun _ _ => True := by
  refine safe_plain_get ?_
  dsimp only
  split
  · exact (safe_define sound good (settable_of_isName name _)).mono fun _ _ _ _ => trivial
  · exact safe_raise sound (undefined_isInternal name)

/-! ### Uses -/

/-- The scope that an address selects has a frame at that distance. -/
theorem Fits.selected {scopes : List LocalScope} {env : Nat} (fits : Fits s scopes env)
    {name : String} {d : Nat} (h : hops? (scopes.map (·.names)) name = some d) :
    ∃ frame scope done, s.world.frames.stepsOut? env d = some frame ∧
      s.notes.labels[frame]? = some scope.place ∧ scopes[d]? = some scope ∧
        Bindings.get? name scope.names = some done ∧
          (done = true → (s.world.frames.own? frame name).isSome) := by
  induction scopes generalizing env d with
  | nil => cases h
  | cons scope rest ih =>
    obtain ⟨label, names, parent, hparent, around⟩ := fits
    rw [hops?, List.map_cons, List.findIdx?_cons] at h
    split at h
    · next binds =>
      cases h
      obtain ⟨done, hdone⟩ := Option.isSome_iff_exists.mp binds
      exact ⟨env, scope, done, rfl, label, rfl, hdone, fun h => names name (h ▸ hdone)⟩
    · obtain ⟨d', hd', rfl⟩ := Option.map_eq_some_iff.mp h
      obtain ⟨frame, scope', done, steps, label', nth, found, bound⟩ := ih around hd'
      refine ⟨frame, scope', done, ?_, label', nth, found, bound⟩
      rw [Frames.stepsOut?, hparent]
      exact steps

/-- The use that is noted here. -/
def useAt (s : Watched) (env : Nat) (π : Place) (isAssignment : Bool) (ref : Reference) : Use :=
  { place := π, isAssignment, ref, env, frames := s.world.frames, labels := s.notes.labels,
    completed := s.notes.completed }

/-- A use agrees with the scope that its address selects. A name that is not bound is one without
its value yet, and so the use is inside its initializer. -/
theorem agrees_useAt (sound : Sound s) {c : Context} {π : Place} {env : Nat} {ref : Reference}
    {isAssignment : Bool} (place : c.At π) (fits : Fits s c.scopes env) (refers : c.Refers ref)
    (read : isAssignment = false → Bindings.get? ref.name.lexeme c.innermost ≠ some false) :
    (useAt s env π isAssignment ref).Agrees := by
  intro hops hhops
  -- the distance leads to the frame of the scope that declares the name
  obtain ⟨d, hd, rfl⟩ := Option.map_eq_some_iff.mp (refers.symm.trans hhops)
  obtain ⟨frame, scope, done, steps, label, nth, found, bound⟩ := fits.selected hd
  have selected : (enclosing π)[d]? = some scope.place := by
    rw [← place.places, List.getElem?_map, nth]
    rfl
  refine ⟨frame, scope.place, steps, label, Int.natCast_nonneg d, selected, ?_⟩
  cases done with
  | true => exact .inl (bound rfl)
  | false =>
    -- a name that is not ready may be bound from a run before, or stands in its own initializer
    by_cases held : (s.world.frames.own? frame ref.name.lexeme).isSome
    · exact .inl held
    · obtain ⟨decl, inside⟩ := place.unfinished scope (List.mem_of_getElem? nth) _ found
      refine .inr ⟨?_, decl, inside, fun complete => held (sound.completed _ _ _ complete)⟩
      cases isAssignment with
      | true => exact .inl rfl
      | false =>
        refine .inr fun zero => read rfl ?_
        have first : d = 0 := Int.ofNat_inj.mp zero
        subst first
        have head : c.innermost = scope.names := by
          rw [Context.innermost, Context.names, ← List.head?_eq_getElem?] at *
          simp [List.headD_eq_head?_getD, nth]
        rw [head]
        exact found

/-- A use that agrees is noted. -/
theorem safe_noteUse (sound : Sound s) {env : Nat} {π : Place} {isAssignment : Bool}
    {ref : Reference} (agrees : (useAt s env π isAssignment ref).Agrees) :
    Safe s (noteUse env π isAssignment ref) fun _ _ => True := by
  constructor
  · intro _ t run
    cases run
    have ext : Extends s { s with notes := { s.notes with
        uses := useAt s env π isAssignment ref :: s.notes.uses } } := .of_eq rfl rfl rfl rfl rfl
    refine ⟨ext, sound.step ext sound.layout (fun _ _ _ h => .inl h) (fun _ _ _ h => .inl h)
      sound.fresh (fun _ h => .inl h) ?_ (fun _ h => .inl h) (fun _ h => .inl h), trivial⟩
    intro u hu
    rcases List.mem_cons.mp hu with rfl | hu
    · exact .inr agrees
    · exact .inl hu
  · intro stop t run
    cases run

/-- A name is read in the frame of its scope, or it is read too early. -/
theorem safe_readRef (sound : Sound s) {c : Context} {π : Place} {env : Nat} {ref : Reference}
    (place : c.At π) (fits : Fits s c.scopes env) (reads : c.Reads ref) (name : ref.name.IsName) :
    Safe s (readRef env π ref) fun v t => GoodValue t v := by
  refine (safe_noteUse sound (agrees_useAt sound place fits reads.2 fun _ => reads.1)).bind
    fun _ t ext sound' _ => ?_
  exact safe_plain sound' (quiet_readRef sound' env name) fun _ _ ext' good => good.mono ext'

/-- A name is assigned to in the frame of its scope, or too early. -/
theorem safe_assignRef (sound : Sound s) {c : Context} {π : Place} {env : Nat} {ref : Reference}
    (place : c.At π) (fits : Fits s c.scopes env) (refers : c.Refers ref)
    (name : ref.name.IsName) {v : Value} (good : GoodValue s v) :
    Safe s (assignRef env π ref v) fun _ _ => True :=
  (safe_noteUse sound (agrees_useAt sound place fits refers (by simp))).bind
    fun _ _ ext sound' _ => safe_assign sound' (good.mono ext) env name

/-! ### Frames and identities -/

/-- A new frame for a scope inside those of another frame, noted with what it binds once and for
all. -/
theorem safe_noted (sound : Sound s) (scope : LocalScope) {rest : List LocalScope} {parent : Nat}
    {bindings : Bindings Value} {change : Nat → Notes → Notes} {heirs : List Heir}
    {received : List (Nat × Value)} (fits : Fits s rest parent)
    (names : ∀ name, Bindings.get? name scope.names = some true →
      (Bindings.get? name bindings).isSome)
    (good : ∀ name v, Bindings.get? name bindings = some v → GoodValue s v)
    (changes : change s.world.frames.size s.notes =
      { s.notes.label scope.place with heirs, received })
    (hheirs : s.notes.heirs ⊆ heirs) (hreceived : s.notes.received ⊆ received)
    (recorded : Recorded heirs received s.world.frames.size scope.place)
    (fixed : ∀ e name v, Fixed heirs received e name v →
      Fixed s.notes.heirs s.notes.received e name v ∨
        (e = s.world.frames.size ∧ Bindings.get? name bindings = some v)) :
    Safe s (noting (Run.newFrame parent bindings) change) fun e t => Fits t (scope :: rest) e := by
  constructor
  · intro e t run
    -- the frame is labelled in the same step in which it is made
    have ended : noting (Run.newFrame parent bindings) change s = .ok s.world.frames.size
        ⟨{ s.world with frames := s.world.frames.push (some parent) bindings },
          change s.world.frames.size s.notes⟩ := rfl
    rw [ended, changes] at run
    cases run
    have ext : Extends s ⟨{ s.world with frames := s.world.frames.push (some parent) bindings },
        { s.notes.label scope.place with heirs, received }⟩ := by
      refine ⟨fun e π h => ?_, fun e p h => ?_, fun e name h => ?_, fun _ _ h => h, hheirs,
        hreceived⟩
      · exact (List.getElem?_append_left (List.getElem?_eq_some_iff.mp h).1).trans h
      · have here := Frames.lt_size_of_parent? _ h
        rw [Frames.parent?_push, if_neg (Nat.ne_of_lt here)]
        exact h
      · have here : e ≠ s.world.frames.size := by
          rintro rfl
          rw [Frames.own?_eq_none _ (Nat.le_refl _)] at h
          cases h
        rw [Frames.own?_push, if_neg here]
        exact h
    refine ⟨ext, ?_, ?_⟩
    · refine sound.step ext
        (sound.layout.push (fits.lt_size sound) hheirs hreceived recorded fixed) ?_
        (fun _ _ _ h => .inl h) sound.fresh (fun _ h => .inl h) (fun _ h => .inl h)
        (fun _ h => .inl h) (fun _ h => .inl h)
      intro e name v found
      rw [Frames.own?_push] at found
      split at found
      · exact .inr ((good name v found).mono ext)
      · exact .inl found
    · refine ⟨?_, fun name known => ?_, parent, ?_, fits.mono ext⟩
      · rw [← sound.layout.labelled]
        exact List.getElem?_concat_length ..
      · rw [Frames.own?_push, if_pos rfl]
        exact names name known
      · rw [Frames.parent?_push, if_pos rfl]
  · intro stop t run
    cases run

/-- A new frame of a block or of a function. -/
theorem safe_newFrame (sound : Sound s) (scope : LocalScope) {rest : List LocalScope} {parent : Nat}
    {bindings : Bindings Value} (fits : Fits s rest parent)
    (names : ∀ name, Bindings.get? name scope.names = some true →
      (Bindings.get? name bindings).isSome)
    (good : ∀ name v, Bindings.get? name bindings = some v → GoodValue s v)
    (recorded : Recorded s.notes.heirs s.notes.received s.world.frames.size scope.place) :
    Safe s (newFrame scope.place parent bindings) fun e t => Fits t (scope :: rest) e :=
  safe_noted sound scope fits names good rfl (fun _ h => h) (fun _ h => h) recorded
    fun _ _ _ h => .inl h

section Single

variable {rest : List LocalScope} {parent : Nat} {name : String} {v : Value}

/-- A scope of one name binds that name. -/
theorem isSome_get?_single {scope : Place} (other : String)
    (known : Bindings.get? other (LocalScope.mk scope [(name, true)]).names = some true) :
    (Bindings.get? other [(name, v)]).isSome := by
  rw [Bindings.get?_cons] at known ⊢
  split at known
  · next h =>
    rw [if_pos h]
    rfl
  · cases known

/-- A scope of one name holds what it was made with. -/
theorem good_get?_single (good : GoodValue s v) (other : String) (w : Value)
    (found : Bindings.get? other [(name, v)] = some w) : GoodValue s w :=
  Bindings.eq_of_get?_single found ▸ good

/-- The frame that binds `super` for the methods of a class. -/
theorem safe_superFrame (sound : Sound s) {parentClass : Class} (good : GoodClass s parentClass)
    (fits : Fits s rest parent) (π : Place) :
    Safe s (noting (Run.newFrame parent [("super", .classObj parentClass)]) fun e n =>
        (n.label (.super :: π)).inherit { place := π, superclass := parentClass, frame := e })
      fun e t => Fits t (⟨.super :: π, [("super", true)]⟩ :: rest) e := by
  refine safe_noted sound ⟨.super :: π, [("super", true)]⟩ fits isSome_get?_single
    (good_get?_single good) rfl (List.subset_cons_self _ _) (fun _ h => h)
    ⟨_, List.mem_cons_self, rfl, rfl⟩ fun e name v fixed => ?_
  rcases fixed with ⟨rfl, heir, known, rfl, rfl⟩ | ⟨rfl, known⟩
  · rcases List.mem_cons.mp known with rfl | known
    · exact .inr ⟨rfl, rfl⟩
    · exact .inl (.inl ⟨rfl, heir, known, rfl, rfl⟩)
  · exact .inl (.inr ⟨rfl, known⟩)

/-- The frame that binds `this` for a method of an instance. -/
theorem safe_thisFrame (sound : Sound s) {id : Nat} {c : Class} (good : GoodClass s c)
    (fits : Fits s rest parent) (π : Place) :
    Safe s (noting (Run.newFrame parent [("this", .object id c)]) fun e n =>
        (n.label (.this :: π)).receive e (.object id c))
      fun e t => Fits t (⟨.this :: π, [("this", true)]⟩ :: rest) e := by
  refine safe_noted sound ⟨.this :: π, [("this", true)]⟩ fits isSome_get?_single
    (good_get?_single good) rfl (fun _ h => h) (List.subset_cons_self _ _)
    ⟨id, c, List.mem_cons_self⟩ fun e name v fixed => ?_
  rcases fixed with ⟨rfl, known⟩ | ⟨rfl, known⟩
  · exact .inl (.inl ⟨rfl, known⟩)
  · rcases List.mem_cons.mp known with new | known
    · cases new
      exact .inr ⟨rfl, rfl⟩
    · exact .inl (.inr ⟨rfl, known⟩)

end Single

/-- An identity that is new belongs to the place from then on. -/
theorem safe_freshAt (sound : Sound s) (π : Place) :
    Safe s (freshAt π) fun id t => t.notes.origins.lookup id = some π := by
  constructor
  · intro id t run
    cases run
    -- stamps are given out in order, so this one has no origin yet
    have unknown := sound.fresh _ (Nat.le_refl s.world.stamp)
    have ext : Extends s ⟨{ s.world with stamp := s.world.stamp + 1 },
        s.notes.originate s.world.stamp π⟩ := by
      refine ⟨fun _ _ h => h, fun _ _ h => h, fun _ _ h => h, fun id π' h => ?_, fun _ h => h,
        fun _ h => h⟩
      have other : (id == s.world.stamp) = false := by
        rw [beq_eq_false_iff_ne]
        rintro rfl
        rw [unknown] at h
        cases h
      rw [Notes.originate, List.lookup_cons, other]
      exact h
    refine ⟨ext, sound.step ext sound.layout (fun _ _ _ h => .inl h) (fun _ _ _ h => .inl h)
      (fun id hid => ?_) (fun _ h => .inl h) (fun _ h => .inl h) (fun _ h => .inl h)
      (fun _ h => .inl h), ?_⟩
    · have other : (id == s.world.stamp) = false := by
        rw [beq_eq_false_iff_ne]
        have later : s.world.stamp + 1 ≤ id := hid
        omega
      show ((s.world.stamp, π) :: s.notes.origins).lookup id = none
      rw [List.lookup_cons, other]
      exact sound.fresh id (Nat.le_of_succ_le hid)
    · exact List.lookup_cons_self
  · intro stop t run
    cases run

/-- A new identity changes nothing that is kept. -/
theorem safe_fresh (sound : Sound s) : Safe s (plain Run.fresh) fun _ _ => True := by
  constructor
  · intro id t run
    cases run
    have ext : Extends s { s with world := { s.world with stamp := s.world.stamp + 1 } } :=
      .of_eq rfl rfl rfl rfl rfl
    exact ⟨ext, sound.step ext sound.layout (fun _ _ _ h => .inl h) (fun _ _ _ h => .inl h)
      (fun id hid => sound.fresh id (Nat.le_of_succ_le hid)) (fun _ h => .inl h)
      (fun _ h => .inl h) (fun _ h => .inl h) (fun _ h => .inl h), trivial⟩
  · intro stop t run
    cases run

/-! ### Instances -/

/-- A new instance has no fields yet. -/
theorem safe_newObject (sound : Sound s) : Safe s (plain Run.newObject) fun _ _ => True := by
  constructor
  · intro id t run
    cases run
    have ext : Extends s { s with world := { s.world with objects := s.world.objects.push [] } } :=
      .of_eq rfl rfl rfl rfl rfl
    refine ⟨ext, sound.step ext sound.layout (fun _ _ _ h => .inl h) ?_ sound.fresh
      (fun _ h => .inl h) (fun _ h => .inl h) (fun _ h => .inl h) (fun _ h => .inl h), trivial⟩
    intro id name v found
    dsimp only at found
    rw [Array.getElem?_push] at found
    split at found
    · cases found
    · exact .inl found
  · intro stop t run
    cases run

/-- A field that is set to a good value holds a good value. -/
theorem safe_setField (sound : Sound s) {v : Value} (good : GoodValue s v) (id : Nat)
    (name : String) : Safe s (plain (Run.setField id name v)) fun _ _ => True := by
  constructor
  · intro _ t run
    cases run
    have ext : Extends s { s with world := { s.world with
        objects := s.world.objects.modify id (Bindings.insert name v) } } :=
      .of_eq rfl rfl rfl rfl rfl
    refine ⟨ext, sound.step ext sound.layout (fun _ _ _ h => .inl h) ?_ sound.fresh
      (fun _ h => .inl h) (fun _ h => .inl h) (fun _ h => .inl h) (fun _ h => .inl h), trivial⟩
    intro id' name' v' found
    dsimp only at found
    rw [Array.getElem?_modify] at found
    split at found
    · next heq =>
      subst heq
      obtain ⟨fields, hfields, hfound⟩ := Option.bind_eq_some_iff.mp found
      obtain ⟨old, hold, rfl⟩ := Option.map_eq_some_iff.mp hfields
      -- the field is the one that was set, or was there before
      rw [Bindings.get?_insert] at hfound
      split at hfound
      · cases hfound
        exact .inr (good.mono ext)
      · rw [hold]
        exact .inl hfound
    · exact .inl found
  · intro stop t run
    cases run

/-- A variable that has its value is declared. -/
theorem safe_complete (sound : Sound s) {env : Nat} {name : String} {π : Place}
    (bound : (s.world.frames.own? env name).isSome) :
    Safe s (note fun _ notes => notes.complete env (.initializer name :: π)) fun _ t =>
      t.world = s.world := by
  constructor
  · intro _ t run
    cases run
    have ext : Extends s { s with notes := s.notes.complete env (.initializer name :: π) } :=
      .of_eq rfl rfl rfl rfl rfl
    refine ⟨ext, sound.step ext sound.layout (fun _ _ _ h => .inl h) (fun _ _ _ h => .inl h)
      sound.fresh (fun p hp => ?_) (fun _ h => .inl h) (fun _ h => .inl h) (fun _ h => .inl h), rfl⟩
    rcases List.mem_cons.mp hp with rfl | hp
    · exact .inr ⟨_, _, _, rfl, bound⟩
    · exact .inl hp
  · intro stop t run
    cases run

end Lox.Watch
