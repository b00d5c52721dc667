import Lox.Proofs.Run.Dispatch
import Lox.Proofs.Scope.Walk

/-!
Evaluation keeps what holds: at every use of a local name in any run of any session, the frame at
the distance of its address is one of the scope that the address selects, and the name is bound in
it unless its own declaration is still being carried out; every `super` is dispatched by the class
that was declared around it; and no run stops for an internal reason.
-/

namespace Lox.Watch

open Scope

variable {s : Watched}

/-! ### Functions and methods -/

section Functions

variable {c : Context} {π : Place} {env : Nat} {kind : Body} {params : List Token}
  {body : List Stmt}

/-- A function that is made stands at its place, whatever is known of its context. -/
theorem safe_made (sound : Sound s) (π : Place) (env : Nat) (name : String) (params : List Token)
    (body : List Stmt) (isInit : Bool) :
    Safe s (makeClosure π env name params body isInit) fun f t =>
      ∃ id, f = ⟨id, name, params, body, env, isInit⟩ ∧ t.notes.origins.lookup id = some π :=
  (safe_freshAt sound π).bind fun id _ _ sound' origin => safe_pure sound' ⟨id, rfl, origin⟩

/-- A function that is made stands where its declaration stands. -/
theorem safe_makeClosure (sound : Sound s) (within : c.Within π) (fits : Fits s c.scopes env)
    (names : ∀ t ∈ params, t.IsName)
    (addressed : Stmt.AllAddressed (c.function kind π params) (.body :: π) 0 body)
    (name : String) :
    Safe s (makeClosure π env name params body false) fun f t => GoodClosure t f := by
  refine (safe_made sound π env name params body false).mono ?_
  rintro _ t ext ⟨id, rfl, origin⟩
  exact ⟨c, π, kind, ⟨origin, within.function kind names, addressed⟩, fits.mono ext, by simp⟩

/-- An instance fills in the frame that its methods miss. -/
theorem safe_bindMethod (sound : Sound s) {method : Closure} {id : Nat} {class_ : Class}
    (hmethod : GoodMethod s method) (hobject : GoodClass s class_) :
    Safe s (bindMethod method (.object id class_)) fun f t => GoodClosure t f := by
  obtain ⟨c, π, kind, scope, rest, stands, this, fits⟩ := hmethod
  have origin : s.notes.origin method.id = π := by
    rw [Notes.origin, stands.origin]
    rfl
  have places : c.scopes.map (·.place) = enclosing π := (List.cons.inj stands.within.places).2
  have label : s.notes.thisScope method.id = .this :: scope := by
    rw [Notes.thisScope, origin, ← places, this]
    rfl
  refine safe_get ?_
  dsimp only
  rw [origin, label]
  refine (safe_thisFrame sound hobject fits scope).bind fun e t ext sound' fits' => ?_
  refine (safe_freshAt sound' π).bind fun id u ext' sound'' origin' => safe_pure sound'' ?_
  exact ⟨c, π, kind, ⟨origin', stands.within, stands.addressed⟩, this ▸ fits'.mono ext',
    fun _ => ⟨_, _, this⟩⟩

/-- The methods of a class, whose context gives each of them its place. -/
theorem safe_makeMethods (sound : Sound s) {scope : Place} {rest : List LocalScope}
    (this : c.scopes = ⟨.this :: scope, [("this", true)]⟩ :: rest)
    (within : ∀ (i : Nat) (kind : Body) (params : List Token), (∀ t ∈ params, t.IsName) →
      (c.function kind (.part i :: π) params).Within (.body :: .part i :: π))
    (fits : Fits s rest env) {fs : List Function} {i : Nat}
    (addressed : Function.AllAddressed c π i fs) {methods : Bindings Closure}
    (good : ∀ name f, Bindings.get? name methods = some f → GoodMethod s f) :
    Safe s (makeMethods env π i fs methods) fun methods t =>
      ∀ name f, Bindings.get? name methods = some f → GoodMethod t f := by
  -- method by method: each is made inside the scope of `this`, whatever came before it
  induction fs generalizing s i methods with
  | nil => exact safe_pure sound good
  | cons f fs ih =>
    obtain ⟨name, params, body⟩ := f
    obtain ⟨⟨⟨names, -⟩, hbody⟩, hfs⟩ := addressed
    refine (safe_made sound _ env _ params body _).bind fun method t ext sound' made => ?_
    refine ih sound' (fits.mono ext) hfs fun name g found => ?_
    rw [Bindings.get?_insert] at found
    split at found
    · cases found
      obtain ⟨id, rfl, origin⟩ := made
      exact ⟨c, _, _, scope, rest, ⟨origin, within i _ params names, hbody⟩, this, fits.mono ext⟩
    · exact (good name g found).mono ext

end Functions

/-! ### Classes and members -/

/-- A class is good if what it inherits is and its own methods are. -/
theorem goodClass_mk {id : Nat} {name : String} {superclass : Option Class}
    {methods : Bindings Closure} (inherited : ∀ c, superclass = some c → GoodClass s c)
    (own : ∀ name f, Bindings.get? name methods = some f → GoodMethod s f) :
    GoodClass s ⟨id, name, superclass, methods⟩ := by
  intro other f found
  cases superclass with
  | none => exact own other f found
  | some c =>
    rw [Class.method?] at found
    split at found
    · next h =>
      cases found
      exact own other f h
    · exact inherited c rfl other f found

/-- The superclass is read in the frame of its scope. -/
theorem safe_readSuperclass (sound : Sound s) {c : Context} {π : Place} {env : Nat}
    {ref : Reference} (place : c.At π) (fits : Fits s c.scopes env) (reads : c.Reads ref)
    (name : ref.name.IsName) :
    Safe s (readSuperclass env π ref) fun parent t => GoodClass t parent := by
  have expected : (Stop.raised ref.name .superclassKind).isInternal = false :=
    decide_eq_false name.ne_super
  refine (safe_readRef sound place fits reads name).bind fun v t ext sound' good => ?_
  cases v with
  | classObj parent => exact safe_pure sound' good
  | _ => exact safe_raise sound' expected

/-- A class is declared: what it inherits is on record before any of its methods is made. -/
theorem safe_declareClass (sound : Sound s) {c : Context} {π : Place} {env : Nat} {name : Token}
    {superclass : Option Reference} {methods : List Function} (place : c.At π)
    (fits : Fits s c.scopes env)
    (addressed : (Stmt.classDecl name superclass methods).Addressed c π) :
    Safe s (declareClass env π name superclass methods) fun _ t =>
      Fits t (c.mark name.lexeme true).scopes env := by
  have nil : GoodValue s .nil := trivial
  cases superclass with
  | none =>
    obtain ⟨-, hmethods, isName⟩ := addressed
    have settable := settable_of_isName isName env
    refine (safe_define sound nil settable).bind fun _ t ext sound₁ declared => ?_
    have fits₁ := (declared c fits).1
    refine (safe_makeMethods sound₁ rfl
      (fun i kind params names => (place.mark_true name.lexeme).baseMethod i kind names) fits₁
      hmethods (by simp)).bind fun ms u ext' sound₂ good => ?_
    refine (safe_fresh sound₂).bind fun id v ext'' sound₃ _ => ?_
    -- a class without a superclass inherits nothing
    have made : GoodValue v (.classObj ⟨id, name.lexeme, none, ms⟩) :=
      goodClass_mk (by simp) fun name f found => (good name f found).mono ext''
    refine (safe_define sound₃ made settable).mono fun _ _ _ declared => ?_
    rw [← Context.mark_mark true]
    exact (declared _ ((fits₁.mono ext').mono ext'')).1
  | some ref =>
    obtain ⟨-, other, reads, hmethods, isName, isName'⟩ := addressed
    have settable := settable_of_isName isName env
    refine (safe_readSuperclass sound (place.part 0) fits (reads.of_mark other) isName').bind
      fun parent t ext sound₁ hparent => ?_
    refine (safe_define sound₁ (show GoodValue t .nil from trivial) settable).bind
      fun _ u ext₁ sound₂ declared => ?_
    have fits₂ := (declared c (fits.mono ext)).1
    refine (safe_superFrame sound₂ (hparent.mono ext₁) fits₂ π).bind
      fun inner v ext₂ sound₃ fits₃ => ?_
    refine (safe_makeMethods sound₃ rfl
      (fun i kind params names => (place.mark_true name.lexeme).derivedMethod i kind names) fits₃
      hmethods (by simp)).bind fun ms x ext₃ sound₄ good => ?_
    refine (safe_fresh sound₄).bind fun id y ext₄ sound₅ _ => ?_
    have known := ((ext₁.trans ext₂).trans ext₃).trans ext₄
    have made : GoodValue y (.classObj ⟨id, name.lexeme, some parent, ms⟩) := by
      refine goodClass_mk ?_ fun name f found => (good name f found).mono ext₄
      rintro _ ⟨⟩
      exact hparent.mono known
    refine (safe_define sound₅ made settable).mono fun _ _ _ declared => ?_
    rw [← Context.mark_mark true]
    exact (declared _ (fits₂.mono ((ext₂.trans ext₃).trans ext₄))).1

/-- A property of a good value is good. -/
theorem safe_getMember (sound : Sound s) {object : Value} (good : GoodValue s object)
    (name : Token) : Safe s (getMember object name) fun v t => GoodValue t v := by
  unfold getMember
  cases object with
  | object id c =>
    refine (safe_plain sound (quiet_field? sound id name.lexeme) fun o t ext h =>
      (fun v hv => (h v hv).mono ext : ∀ v, o = some v → GoodValue t v)).bind
        fun field t ext sound' hfield => ?_
    cases field with
    | some v => exact safe_pure sound' (hfield v rfl)
    | none =>
      dsimp only
      cases found : c.method? name.lexeme with
      | some method =>
        exact (safe_bindMethod sound' ((good name.lexeme method found).mono ext)
          (GoodClass.mono ext good)).bind fun f u _ sound'' hf => safe_pure sound'' hf
      | none => exact safe_raise sound' rfl
  | _ => exact safe_raise sound rfl

/-- A method of the superclass is there for the instance at hand, or undefined. -/
theorem safe_superMethod (sound : Sound s) {c : Context} {π : Place} {env : Nat} {ref : Reference}
    (owned : c.Owned π) (fits : Fits s c.scopes env) (derived : c.family = some .derived)
    (lexeme : ref.name.lexeme = "super") (refers : c.Refers ref) (method : Token) :
    Safe s (superMethod env π ref method) fun v t => GoodValue t v := by
  obtain ⟨heir, frame, id, d, n, inherits⟩ :=
    exists_inherits sound owned fits derived lexeme refers
  refine (safe_noteLookup inherits sound method).bind fun _ t ext sound₁ inherits => ?_
  rw [inherits.hops]
  refine safe_reads (readAround_eq (inherits.super? sound₁)) ?_
  refine safe_reads (readAround_eq (inherits.this? sound₁)) ?_
  dsimp only
  have hclass : GoodClass t heir.superclass :=
    sound₁.bound _ _ (.classObj heir.superclass) (own?_super sound₁ inherits.known)
  have hobject : GoodClass t d :=
    sound₁.bound _ _ (.object id d) (own?_this sound₁ inherits.received)
  cases found : heir.superclass.method? method.lexeme with
  | some f =>
    exact (safe_bindMethod sound₁ (hclass method.lexeme f found) hobject).bind
      fun f u _ sound₂ hf => safe_pure sound₂ hf
  | none => exact safe_raise sound₁ rfl

/-! ### Calls -/

/-- A return gives a good value, and there is none outside of functions. -/
def Returned (c : Context) (completion : Run.Completion) (t : Watched) : Prop :=
  ∀ v, completion = .returned v → GoodValue t v ∧ c.body ≠ none

/-- After a statement that ends normally its frame fits what is declared by then. -/
def Ended (c : Context) (env : Nat) (completion : Run.Completion) (t : Watched) : Prop :=
  (completion = .normal → Fits t c.scopes env) ∧ Returned c completion t

/-- A statement that comes to its end leaves its scopes as they are. -/
theorem safe_normal (sound : Sound s) {c : Context} {env : Nat} (fits : Fits s c.scopes env) :
    Safe s (pure .normal) (Ended c env) :=
  safe_pure sound ⟨fun _ => fits, fun v h => by cases h⟩

/-- A statement returns only inside of a body. -/
theorem safe_returned (sound : Sound s) {c : Context} {env : Nat} {v : Value}
    (good : GoodValue s v) (body : c.body ≠ none) :
    Safe s (pure (.returned v)) (Ended c env) := by
  refine safe_pure sound ⟨by simp, ?_⟩
  rintro _ ⟨⟩
  exact ⟨good, body⟩

/-- Statements in the same frame, each in the context after those before it. -/
theorem safe_runAll {exec : Nat → Stmt → Watch Run.Completion} {π : Place} {env : Nat}
    (h : ∀ {t : Watched} {c : Context} {i : Nat} {stmt : Stmt}, Sound t → c.Within (.part i :: π) →
      Fits t c.scopes env → stmt.Addressed c (.part i :: π) →
        Safe t (exec i stmt) (Ended (stmt.after c) env))
    (sound : Sound s) {c : Context} (within : c.Within π) (fits : Fits s c.scopes env)
    {body : List Stmt} {i : Nat} (addressed : Stmt.AllAddressed c π i body) :
    Safe s (runAll exec i body) (Returned c) := by
  induction body generalizing s c i with
  | nil => exact safe_pure sound fun v h => by cases h
  | cons stmt rest ih =>
    refine (h sound (within.part i) fits addressed.1).bind fun completion t ext sound' ended => ?_
    cases completion with
    | normal =>
      refine (ih sound' (within.after addressed.1) (ended.1 rfl) addressed.2).mono
        fun completion u _ returned v hv => ?_
      rw [← Context.body_after stmt]
      exact returned v hv
    | returned v =>
      refine safe_pure sound' fun w hw => ?_
      rw [← Context.body_after stmt]
      exact ended.2 w hw

/-- All parameters are bound, if there are as many arguments. -/
theorem get?_bindArgs {params : List Token} {args : List Value} (len : args.length = params.length)
    {names : Names} {bindings : Bindings Value}
    (h : ∀ x, Bindings.get? x names = some true → (Bindings.get? x bindings).isSome) (x : String)
    (known : Bindings.get? x (Context.paramNames params names) = some true) :
    (Bindings.get? x (Run.bindArgs params args bindings)).isSome := by
  induction params generalizing args names bindings with
  | nil =>
    rw [Run.bindArgs]
    · exact h x known
    · simp
  | cons p params ih =>
    cases args with
    | nil => cases len
    | cons v args =>
      refine ih (Nat.succ.inj len) (fun y hy => ?_) known
      rw [Bindings.get?_insert] at hy ⊢
      split
      · rfl
      · next ne =>
        rw [if_neg ne] at hy
        exact h y hy

/-- The frame of a call is one for the scope of the function's body. -/
theorem safe_callClosure {body : Nat → Place → List Stmt → Watch Run.Completion}
    (h : ∀ {t : Watched} {c : Context} {π : Place} {env : Nat} {ss : List Stmt}, Sound t →
      c.Within π → Fits t c.scopes env → Stmt.AllAddressed c π 0 ss →
        Safe t (body env π ss) (Returned c))
    (sound : Sound s) {f : Closure} {args : List Value} (good : GoodClosure s f)
    (hargs : ∀ v ∈ args, GoodValue s v) :
    Safe s (callClosure body f args) fun v t => GoodValue t v := by
  obtain ⟨c, π, kind, stands, fits, initializer⟩ := good
  unfold callClosure
  split
  · exact safe_fail sound rfl
  · next len =>
    refine safe_get ?_
    -- the stamp of the closure tells where its declaration stands
    have origin : s.notes.origin f.id = π := by
      rw [Notes.origin, stands.origin]
      rfl
    dsimp only
    rw [origin]
    have frame : Safe s (newFrame (.body :: π) f.frame (Run.bindArgs f.params args [])) fun e t =>
        Fits t (c.function kind π f.params).scopes e := by
      refine safe_newFrame sound ⟨.body :: π, Context.paramNames f.params []⟩ fits
        (get?_bindArgs (Decidable.of_not_not len) (by simp)) (fun x v found => ?_) trivial
      rcases Run.mem_of_get?_bindArgs found with mem | old
      · exact hargs v mem
      · cases old
    refine frame.bind fun env t ext sound₁ fits₁ => ?_
    refine (h sound₁ stands.within fits₁ stands.addressed).bind
      fun completion u ext₁ sound₂ returned => ?_
    -- an initializer stands right inside a frame that binds `this`
    have instance_ : f.isInit = true → (u.world.frames.own? f.frame "this").isSome := by
      intro init
      obtain ⟨scope, rest, this⟩ := initializer init
      have outer := (fits.mono ext).mono ext₁
      rw [this] at outer
      exact outer.2.1 "this" rfl
    exact safe_plain sound₂ (quiet_answer sound₂ f instance_ fun v hv => (returned v hv).1)
      fun _ _ ext₂ hv => hv.mono ext₂

/-- An instance of a good class is good, and so is what its initializer gives. -/
theorem safe_construct {callInit : Closure → List Value → Watch Value}
    (h : ∀ {t : Watched} {f : Closure} {args : List Value}, Sound t → GoodClosure t f →
      (∀ v ∈ args, GoodValue t v) → Safe t (callInit f args) fun v u => GoodValue u v)
    (sound : Sound s) {c : Class} {args : List Value} (good : GoodClass s c)
    (hargs : ∀ v ∈ args, GoodValue s v) :
    Safe s (construct callInit c args) fun v t => GoodValue t v := by
  refine (safe_newObject sound).bind fun id t ext sound₁ _ => ?_
  have made : GoodValue t (.object id c) := good.mono ext
  dsimp only
  cases found : c.method? initName with
  | none => exact safe_pure sound₁ made
  | some init =>
    refine (safe_bindMethod sound₁ (made initName init found) made).bind
      fun f u ext₁ sound₂ hf => ?_
    refine (h sound₂ hf fun v hv => ((hargs v hv).mono ext).mono ext₁).discard.bind
      fun _ v ext₂ sound₃ _ => safe_pure sound₃ ?_
    exact GoodValue.mono (v := .object id c) (ext₁.trans ext₂) made

/-- What a native is told of is no internal stop, and so it may be noted. -/
theorem Safe.telling {act : Watch Value} {post : Value → Watched → Prop} (h : Safe s act post) :
    Safe s (telling act) post := by
  constructor
  · intro v t run
    unfold Watch.telling at run
    split at run
    · next done =>
      cases run
      exact h.ok _ _ done
    · cases run
  · intro stop t run
    unfold Watch.telling at run
    split at run
    · cases run
    · next u done =>
      cases run
      -- a fault that a native is told of is one that a program may meet
      obtain ⟨ext, sound, expected⟩ := h.error _ u done
      have ext' : Extends u { u with notes := { u.notes with told := stop :: u.notes.told } } :=
        .of_eq rfl rfl rfl rfl rfl
      refine ⟨Extends.trans ext ext', ?_, expected⟩
      refine Sound.step sound ext' sound.layout (fun _ _ _ h => .inl h) (fun _ _ _ h => .inl h)
        sound.fresh (fun _ h => .inl h) (fun _ h => .inl h) (fun _ h => .inl h) fun other mem => ?_
      rcases List.mem_cons.mp mem with rfl | known
      · exact .inr expected
      · exact .inl known

/-- A fault that is placed is still none of those that never happen. -/
theorem Safe.placedAt {act : Watch Value} {post : Value → Watched → Prop} (h : Safe s act post)
    (token : Token) : Safe s (placedAt token act) post := by
  constructor
  · intro a t run
    unfold Watch.placedAt at run
    split at run
    · next done =>
      cases run
      exact h.ok _ _ done
    · cases run
  · intro stop t run
    unfold Watch.placedAt at run
    split at run
    · cases run
    · next done =>
      cases run
      obtain ⟨ext, sound, expected⟩ := h.error _ _ done
      exact ⟨ext, sound, Stop.isInternal_placed expected token⟩

/-- How many calls are going on is not noted. -/
theorem safe_deeper {act : Watch Value} (sound : Sound s)
    (h : ∀ t, Extends s t → Sound t → Safe t act fun v u => GoodValue u v) :
    Safe s (deeper act) fun v t => GoodValue t v := by
  -- the depth is no part of what the invariant speaks of
  have down : SameHeap s.world { s.world with depth := s.world.depth + 1 } := ⟨rfl, rfl, rfl⟩
  have inner := h _ down.extends (down.sound sound)
  constructor
  · intro a t run
    unfold deeper at run
    split at run
    · next u done =>
      cases run
      obtain ⟨ext, sound', good⟩ := inner.ok _ _ done
      have up : SameHeap u.world { u.world with depth := u.world.depth - 1 } := ⟨rfl, rfl, rfl⟩
      exact ⟨(down.extends.trans ext).trans up.extends, up.sound sound', good.mono up.extends⟩
    · cases run
  · intro stop t run
    unfold deeper at run
    split at run
    · cases run
    · next u done =>
      cases run
      obtain ⟨ext, sound', expected⟩ := inner.error _ _ done
      have up : SameHeap u.world { u.world with depth := u.world.depth - 1 } := ⟨rfl, rfl, rfl⟩
      exact ⟨(down.extends.trans ext).trans up.extends, up.sound sound', expected⟩

/-- A call of a good value gives a good value. -/
theorem safe_call {invoke : Callable → List Value → Watch Value}
    (h : ∀ {t : Watched} {f : Callable} {args : List Value}, Sound t → GoodValue t f.value →
      (∀ v ∈ args, GoodValue t v) → Safe t (invoke f args) fun v u => GoodValue u v)
    (sound : Sound s) {callee : Value} {args : List Value} (good : GoodValue s callee)
    (hargs : ∀ v ∈ args, GoodValue s v) (maxDepth : Nat) (paren : Token) :
    Safe s (call maxDepth invoke paren callee args) fun v t => GoodValue t v := by
  unfold call
  split
  · exact safe_raise sound rfl
  · next f found =>
    rw [Value.callable?_eq_some found] at good
    split
    · exact safe_raise sound rfl
    · refine safe_get ?_
      split
      · exact safe_raise sound rfl
      · refine (safe_deeper sound fun t ext sound' => ?_).placedAt paren
        exact h sound' (good.mono ext) fun v hv => (hargs v hv).mono ext

/-- Arguments are evaluated one after the other, each in the same scopes. -/
theorem safe_evalAll {eval : Nat → Expr → Watch Value} {c : Context} {π : Place} {env : Nat}
    (h : ∀ {t : Watched} {i : Nat} {e : Expr}, Sound t → Fits t c.scopes env →
      e.Addressed c (.part i :: π) → Safe t (eval i e) fun v u => GoodValue u v)
    (sound : Sound s) (fits : Fits s c.scopes env) {es : List Expr} {i : Nat}
    (addressed : Expr.AllAddressed c π i es) :
    Safe s (evalAll eval i es) fun vs t => ∀ v ∈ vs, GoodValue t v := by
  induction es generalizing s i with
  | nil => exact safe_pure sound (by simp)
  | cons e rest ih =>
    refine (h sound fits addressed.1).bind fun v t ext sound₁ hv => ?_
    refine (ih sound₁ (fits.mono ext) addressed.2).bind fun vs u ext₁ sound₂ hvs => ?_
    exact safe_pure sound₂ (List.forall_mem_cons.mpr ⟨hv.mono ext₁, hvs⟩)

/-! ### Evaluation -/

/-- With so much fuel, evaluation keeps what holds. -/
structure Keeps (m : Machine) (n : Nat) : Prop where
  eval : ∀ {s : Watched} {c : Context} {π : Place} {env : Nat} {e : Expr}, Sound s → c.Within π →
    Fits s c.scopes env → e.Addressed c π → Safe s (eval m n env π e) fun v t => GoodValue t v
  exec : ∀ {s : Watched} {c : Context} {π : Place} {env : Nat} {stmt : Stmt}, Sound s → c.Within π →
    Fits s c.scopes env → stmt.Addressed c π →
      Safe s (exec m n env π stmt) (Ended (stmt.after c) env)
  invoke : ∀ {s : Watched} {f : Callable} {args : List Value}, Sound s → GoodValue s f.value →
    (∀ v ∈ args, GoodValue s v) → Safe s (invoke m n f args) fun v t => GoodValue t v

section Round

variable {m : Machine} {n : Nat}

/-- One step inward of an expression that is addressed is safe, and gives a good value. -/
theorem Keeps.evalSucc (ih : Keeps m n) {c : Context} {π : Place} {env : Nat} {e : Expr}
    (sound : Sound s) (within : c.Within π) (fits : Fits s c.scopes env)
    (addressed : e.Addressed c π) :
    Safe s (Watch.eval m (n + 1) env π e) fun v t => GoodValue t v := by
  -- what the context says of the frames goes on to hold: frames are added, none is taken away
  have part {t : Watched} {i : Nat} {e : Expr} (sound : Sound t) (ext : Extends s t)
      (addressed : e.Addressed c (.part i :: π)) :
      Safe t (Watch.eval m n env (.part i :: π) e) fun v u => GoodValue u v :=
    ih.eval sound (within.part i) (fits.mono ext) addressed
  have here {i : Nat} {e : Expr} := part (i := i) (e := e) sound (.refl s)
  cases e with
  | number | string | bool | nil => exact safe_pure sound trivial
  | gap => exact addressed.elim
  | «variable» ref => exact safe_readRef sound within.toAt fits addressed.1 addressed.2
  | assign ref value =>
    refine (here addressed.1).bind fun v t ext sound₁ hv => ?_
    refine (safe_assignRef sound₁ within.toAt (fits.mono ext) addressed.2.1 addressed.2.2 hv).bind
      fun _ u ext₁ sound₂ _ => ?_
    exact safe_pure sound₂ (hv.mono ext₁)
  | unary op operand =>
    refine (here addressed.1).bind fun v t ext sound₁ hv => ?_
    exact safe_plain sound₁ (quiet_applyUnary addressed.2 v) fun _ _ _ h => goodValue_of_isPlain h
  | binary op left right =>
    refine (here addressed.1).bind fun a t ext sound₁ ha => ?_
    refine (part sound₁ ext addressed.2.1).bind fun b u ext₁ sound₂ hb => ?_
    exact safe_plain sound₂ (quiet_applyBinary addressed.2.2 a b) fun _ _ _ h =>
      goodValue_of_isPlain h
  | logical op left right =>
    refine (here addressed.1).bind fun a t ext sound₁ ha => ?_
    split
    · exact safe_pure sound₁ ha
    · exact part sound₁ ext addressed.2
  | group inner => exact here addressed
  | call callee paren args =>
    refine (here addressed.1).bind fun f t ext sound₁ hf => ?_
    refine (safe_evalAll (fun sound fits h => ih.eval sound (within.part _) fits h) sound₁
      (fits.mono ext) addressed.2).bind fun vs u ext₁ sound₂ hvs => ?_
    exact safe_call ih.invoke sound₂ (hf.mono ext₁) hvs _ _
  | get object name =>
    exact (here addressed).bind fun v t ext sound₁ hv => safe_getMember sound₁ hv name
  | set object name value =>
    refine (here addressed.2).bind fun o t ext sound₁ ho => ?_
    refine (safe_plain sound₁ (quiet_fieldOwner o name) fun _ _ _ h => h).bind
      fun owner u ext₁ sound₂ _ => ?_
    refine (part sound₂ (ext.trans ext₁) addressed.1).bind fun v x ext₂ sound₃ hv => ?_
    exact (safe_setField sound₃ hv owner name.lexeme).bind fun _ y ext₃ sound₄ _ =>
      safe_pure sound₄ (hv.mono ext₃)
  | this ref =>
    obtain ⟨lexeme, inside, refers⟩ := addressed
    exact safe_plain sound (quiet_readThis sound within.owned fits inside lexeme refers)
      fun _ _ ext h => h.mono ext
  | «super» ref method =>
    obtain ⟨lexeme, derived, refers⟩ := addressed
    exact safe_superMethod sound within.owned fits derived lexeme refers method
  | lambda keyword params body =>
    exact (safe_makeClosure sound within fits addressed.1.1 addressed.2 "").bind
      fun f t _ sound₁ hf => safe_pure sound₁ hf

/-- Statements are carried out in turn, each in the scopes that the ones before leave. -/
theorem Keeps.runAll (ih : Keeps m n) {c : Context} {π : Place} {env : Nat} {body : List Stmt}
    (sound : Sound s) (within : c.Within π) (fits : Fits s c.scopes env)
    (addressed : Stmt.AllAddressed c π 0 body) :
    Safe s (Watch.runAll (fun i => Watch.exec m n env (.part i :: π)) 0 body) (Returned c) :=
  safe_runAll (fun sound within fits h => ih.exec sound within fits h) sound within fits addressed

/-- A statement that declares nothing and ends normally leaves its frame fitting as it did. -/
theorem Keeps.branch (ih : Keeps m n) {c : Context} {π : Place} {env : Nat} {stmt : Stmt}
    (sound : Sound s) (within : c.Within π) (fits : Fits s c.scopes env)
    (addressed : stmt.Addressed c π ∧ stmt.isDeclaration = false) :
    Safe s (Watch.exec m n env π stmt) (Ended c env) := by
  have run := ih.exec sound within fits addressed.1
  rwa [after_of_not_declaration addressed.2] at run

/-- One step inward of a statement that is addressed is safe, and leaves its scopes extended by what
it declares. -/
theorem Keeps.execSucc (ih : Keeps m n) {c : Context} {π : Place} {env : Nat} {stmt : Stmt}
    (sound : Sound s) (within : c.Within π) (fits : Fits s c.scopes env)
    (addressed : stmt.Addressed c π) :
    Safe s (Watch.exec m (n + 1) env π stmt) (Ended (stmt.after c) env) := by
  have part {i : Nat} {e : Expr} (addressed : e.Addressed c (.part i :: π)) :
      Safe s (Watch.eval m n env (.part i :: π) e) fun v u => GoodValue u v :=
    ih.eval sound (within.part i) fits addressed
  cases stmt with
  | expr e =>
    exact (part addressed).discard.bind fun _ t ext sound₁ _ => safe_normal sound₁ (fits.mono ext)
  | print e =>
    refine (part addressed).bind fun v t ext sound₁ _ => ?_
    refine (safe_plain sound₁ (quiet_write m.sink v.text) fun _ _ _ h => h).bind
      fun _ u ext₁ sound₂ _ => ?_
    exact safe_normal sound₂ (fits.mono (ext.trans ext₁))
  | var name init =>
    cases init with
    | none =>
      exact (safe_define sound (show GoodValue s .nil from trivial)
        (settable_of_isName addressed.1 env)).bind
        fun _ t ext sound₁ declared => safe_normal sound₁ (declared c fits).1
    | some init =>
      refine (ih.eval sound (within.initializer addressed.1.1) (fits.unfinished name.lexeme)
        addressed.2).bind fun v t ext sound₁ hv => ?_
      refine (safe_define sound₁ hv (settable_of_isName addressed.1.1 env)).bind
        fun _ u ext₁ sound₂ declared => ?_
      -- only now the variable is ready
      obtain ⟨fits₂, held⟩ := declared c (fits.mono ext)
      exact (safe_complete sound₂ held).bind fun _ w ext₂ sound₃ _ =>
        safe_normal sound₃ (fits₂.mono ext₂)
  -- the frame is left at the end of the block, and the context is what it was
  | block body =>
    have frame : Safe s (newFrame (.block :: π) env []) fun e t =>
        Fits t (c.enter (.block :: π) []).scopes e :=
      safe_newFrame sound ⟨.block :: π, []⟩ fits (by simp) (by simp) trivial
    refine frame.bind fun inner t ext sound₁ fits₁ => ?_
    refine (ih.runAll sound₁ within.block fits₁ addressed).mono
      fun completion u ext₁ returned => ⟨fun _ => fits.mono (ext.trans ext₁), returned⟩
  | cond test yes no =>
    have branches : test.Addressed c (.part 0 :: π) ∧
        (yes.Addressed c (.part 1 :: π) ∧ yes.isDeclaration = false) ∧
          ∀ s ∈ no, s.Addressed c (.part 2 :: π) ∧ s.isDeclaration = false := by
      cases no with
      | none => exact ⟨addressed.1, addressed.2, by simp⟩
      | some no => exact ⟨addressed.1, addressed.2.1, by simpa using addressed.2.2⟩
    obtain ⟨htest, hyes, hno⟩ := branches
    refine (part htest).bind fun v t ext sound₁ _ => ?_
    split
    · exact ih.branch sound₁ (within.part 1) (fits.mono ext) hyes
    · cases no with
      | none => exact safe_normal sound₁ (fits.mono ext)
      | some no => exact ih.branch sound₁ (within.part 2) (fits.mono ext) (hno no rfl)
  | loop test body =>
    obtain ⟨htest, hbody⟩ := addressed
    refine (part htest).bind fun v t ext sound₁ _ => ?_
    split
    · refine (ih.branch sound₁ (within.part 1) (fits.mono ext) hbody).bind
        fun completion u ext₁ sound₂ ended => ?_
      cases completion with
      | returned v => exact safe_returned sound₂ (ended.2 v rfl).1 (ended.2 v rfl).2
      | normal => exact ih.exec sound₂ within (ended.1 rfl) ⟨htest, hbody⟩
    · exact safe_normal sound₁ (fits.mono ext)
  | function decl =>
    obtain ⟨name, params, body⟩ := decl
    obtain ⟨-, ⟨⟨names, -⟩, hbody⟩, isName⟩ := addressed
    refine (safe_made sound π env name.lexeme params body false).bind fun f t ext sound₁ made => ?_
    obtain ⟨id, rfl, origin⟩ := made
    refine (safe_declare sound₁ (settable_of_isName isName env) fun u ext₁ declared => ?_).bind
      fun _ u _ sound₂ fits₂ => safe_normal sound₂ (fits₂ c (fits.mono ext)).1
    exact ⟨_, π, .function, ⟨ext₁.origins _ _ origin,
      (within.mark_true isName).function .function names, hbody⟩, declared c (fits.mono ext),
      by simp⟩
  | ret keyword value =>
    cases value with
    | none => exact safe_returned sound trivial addressed.1
    | some value =>
      exact (part addressed.2).bind fun v t _ sound₁ hv =>
        safe_returned sound₁ hv addressed.1.1
  | classDecl name superclass methods =>
    exact (safe_declareClass sound within.toAt fits addressed).bind fun _ t _ sound₁ fits₁ =>
      safe_normal sound₁ fits₁
  | gap => exact addressed.elim

theorem Keeps.invokeSucc (ih : Keeps m n) {f : Callable} {args : List Value} (sound : Sound s)
    (good : GoodValue s f.value)
    (hargs : ∀ v ∈ args, GoodValue s v) :
    Safe s (Watch.invoke m (n + 1) f args) fun v t => GoodValue t v := by
  cases f with
  | function f => exact safe_callClosure ih.runAll sound good hargs
  | native f =>
    refine (safe_plain sound quiet_ask fun _ _ _ h => h).bind fun before t ext sound₁ _ => ?_
    exact Invariant.safe_perform lasting (fun _ => rfl) (fun _ => rfl)
      (fun sound good hargs => (ih.invoke sound good hargs).telling) sound₁
      (fun v hv => (hargs v hv).mono ext) (by simp) _
  | classObj c =>
    exact safe_construct (fun sound good hargs => safe_callClosure ih.runAll sound good hargs) sound
      good hargs

end Round

end Lox.Watch
