import Lox.Proofs.Native.Perform
import Lox.Proofs.Rename.Steps

/-!
Functions, members and calls in both runs.
-/

namespace Lox.Twin

open Scope Renaming

variable {r : Renaming} {S : Skeleton} {w w' : World} {v v' : Value}

/-! ### Frames at a place -/

section Place

variable {π : Place} {env : Nat}

/-- The frame at a place is marked where declarations belong to the scope. -/
theorem Around.marked (around : Around r S (enclosing π) env) : S.marked env = r.holds π := by
  rw [around.marks 0 env rfl, Renaming.holds, List.head?_eq_getElem?]

/-- A declaration that does not have the new name gets its name in the scope by swapping. -/
theorem name_eq_swap_of_admits {t : Token} (admits : r.Admits π t) :
    (r.declared π t).lexeme = r.swap (r.holds π) t.lexeme :=
  name_eq_swap_of_leaves admits

/-- A declaration that is spared has neither of the names where they count. -/
theorem swap_of_spares {t : Token} (spares : r.Spares π t) :
    t.lexeme = r.swap (r.holds π) t.lexeme := by
  cases holds : r.holds π with
  | true => exact (swap_of_ne (spares holds).1 (spares holds).2 true).symm
  | false => simp [swap]

/-- The place of a scope ends with the step that opens it. -/
theorem enclosing_opens {place : Place} {scopes : List Place} (h : enclosing π = place :: scopes) :
    ∃ step ρ, place = step :: ρ ∧ step.opens = true := by
  induction π with
  | nil => cases h
  | cons step π ih =>
    rw [enclosing] at h
    split at h
    · next opens =>
      cases h
      exact ⟨step, π, rfl, opens⟩
    · exact ih h

end Place

/-! ### Functions and methods -/

/-- A function is made of the body that it has in each program. -/
theorem mirror_makeClosure (like : LikeWorld r S w w') {π : Place} {params : List Token}
    {body : List Stmt} (admits : ∀ t ∈ params, r.Admits (.body :: π) t)
    (suits : Stmt.AllSuit r (.body :: π) 0 body) (env : Nat) (name : String) (isInit : Bool) :
    Mirror r S w w' (Run.makeClosure env name params body isInit)
      (Run.makeClosure env name (params.map (r.declared (.body :: π)))
        (Stmt.renameAll r (.body :: π) 0 body) isInit)
      fun _ f f' => Renamed r π f f' ∧ f.frame = env := by
  refine (mirror_fresh like).bind fun S' u u' id id' ext like' same => ?_
  subst same
  exact mirror_pure like' ⟨⟨rfl, admits, suits⟩, rfl⟩

/-- What a class binds has the same name in both runs. -/
theorem rel_keyword (proper : r.Proper) (b : Bool) {keyword : String}
    (h : Token.Kind.ofWord keyword ≠ .identifier) (hv : Like r S v v') (n : String) :
    Option.Rel (Like r S) (Bindings.get? n [(keyword, v)])
      (Bindings.get? (r.swap b n) [(keyword, v')]) := by
  rw [Bindings.get?_cons, Bindings.get?_cons]
  have same : r.swap b n = keyword ↔ n = keyword := by
    rw [swap_name_eq_iff, proper.swap_keyword h]
  by_cases here : n = keyword
  · rw [if_pos here, if_pos (same.mpr here)]
    exact .some hv
  · rw [if_neg here, if_neg (mt same.mp here)]
    exact .none

/-- A method is bound in a frame for its instance, which is no scope of the variable. -/
theorem mirror_bindMethod (proper : r.Proper) (like : LikeWorld r S w w') {f f' : Closure}
    (hf : LikeMethod r S f f') (hv : Like r S v v') :
    Mirror r S w w' (Run.bindMethod f v) (Run.bindMethod f' v') (LikeClosure r) := by
  obtain ⟨π, place, scopes, renamed, enclosed, around⟩ := hf
  obtain ⟨step, ρ, rfl, opens⟩ := enclosing_opens enclosed
  obtain ⟨rfl, params, body⟩ := renamed
  refine (mirror_newFrame like around step opens ρ
    (rel_keyword proper _ (by decide) hv)).bind fun S₁ u u' env env' ext like₁ frame => ?_
  obtain ⟨rfl, around₁⟩ := frame
  refine (mirror_fresh like₁).bind fun S₂ x x' id id' ext₁ like₂ same => ?_
  subst same
  refine mirror_pure like₂ ⟨π, ⟨rfl, params, body⟩, ?_⟩
  rw [enclosed]
  exact around₁.mono like₁.closed ext₁

/-- Methods by their names. -/
def LikeMethods (r : Renaming) (S : Skeleton) (methods methods' : Bindings Closure) : Prop :=
  ∀ n, Option.Rel (LikeMethod r S) (Bindings.get? n methods) (Bindings.get? n methods')

/-- Like methods stay alike when frames are added. -/
theorem LikeMethods.mono {S' : Skeleton} (closed : S.Closed) (h : S <+: S')
    {methods methods' : Bindings Closure} (like : LikeMethods r S methods methods') :
    LikeMethods r S' methods methods' :=
  fun n => rel_mono (fun _ _ hf => hf.mono closed h) (like n)

section Class

variable {methods methods' : Bindings Closure} (id : Nat) (name : String)

/-- A class without a superclass is alike if its methods are. -/
theorem likeClass_base (made : LikeMethods r S methods methods') :
    LikeClass r S { id, name, superclass := none, methods }
      { id, name, superclass := none, methods := methods' } := by
  refine ⟨rfl, rfl, fun n => ?_⟩
  rw [Class.method?, Class.method?]
  exact made n

/-- A class has a method of its own before one that it inherits. -/
theorem likeClass_derived {c c' : Class} (hc : LikeClass r S c c')
    (made : LikeMethods r S methods methods') :
    LikeClass r S { id, name, superclass := some c, methods }
      { id, name, superclass := some c', methods := methods' } := by
  refine ⟨rfl, rfl, fun n => ?_⟩
  have own := made n
  rw [Class.method?, Class.method?]
  generalize Bindings.get? n methods = f at own ⊢
  generalize Bindings.get? n methods' = f' at own ⊢
  cases own with
  | some hf => exact .some hf
  | none => exact hc.methods n

end Class

/-- The methods of a class are made in both runs, under the same names. -/
theorem mirror_makeMethods {π place : Place} {scopes : List Place} {env : Nat}
    (enclosed : enclosing π = place :: scopes) {fs : List Function} {i : Nat}
    (suits : Function.AllSuit r π i fs) (like : LikeWorld r S w w')
    (around : Around r S scopes env) {methods methods' : Bindings Closure}
    (before : LikeMethods r S methods methods') :
    Mirror r S w w' (Run.makeMethods env fs methods)
      (Run.makeMethods env (Function.renameAll r π i fs) methods') (LikeMethods r) := by
  -- each method gets a stamp of its own, so the worlds and the skeleton go on changing
  induction fs generalizing S w w' i methods methods' with
  | nil => exact mirror_pure like before
  | cons f rest ih =>
    obtain ⟨name, params, body⟩ := f
    obtain ⟨⟨admits, first⟩, others⟩ := suits
    refine (mirror_makeClosure like (π := .part i :: π) admits first env name.lexeme
      (Function.isInit ⟨name, params, body⟩)).bind fun S' u u' f f' ext like' made => ?_
    have around' := around.mono like.closed ext
    -- methods are told by names that no renaming touches
    have after : LikeMethods r S' (Bindings.insert name.lexeme f methods)
        (Bindings.insert name.lexeme f' methods') := by
      intro n
      rw [Bindings.get?_insert, Bindings.get?_insert]
      split
      · exact .some ⟨.part i :: π, place, scopes, made.1, enclosed, made.2 ▸ around'⟩
      · exact rel_mono (fun _ _ h => h.mono like.closed ext) (before n)
    exact ih others like' around' after

/-- The superclass is alike in both runs, or it is no class in either. -/
theorem mirror_readSuperclass (like : LikeWorld r S w w') {π : Place} {env : Nat}
    (around : Around r S (enclosing π) env) {ref : Reference} (leaves : r.Leaves π ref) :
    Mirror r S w w' (Run.readSuperclass env ref) (Run.readSuperclass env (r.used π ref))
      (LikeClass r) := by
  refine (mirror_readRef like around leaves).bind fun S' u u' v v' ext like' hv => ?_
  have wrong : Mirror r S' u u' (Run.raise ref.name .superclassKind)
      (Run.raise (r.used π ref).name .superclassKind) (LikeClass r) :=
    mirror_throw like' (.raised rfl (.inl rfl))
  cases hv with
  | plain hv => cases v <;> first | exact wrong | cases hv
  | classObj hc => exact mirror_pure like' hc
  | _ => exact wrong

/-- A class is declared in both runs, under the name that it has in both. -/
theorem mirror_declareClass (proper : r.Proper) (like : LikeWorld r S w w') {π : Place} {env : Nat}
    (around : Around r S (enclosing π) env) {name : Token} {superclass : Option Reference}
    {methods : List Function} (suits : (Stmt.classDecl name superclass methods).Suits r π) :
    match Stmt.rename r π (.classDecl name superclass methods) with
    | .classDecl name' superclass' methods' =>
      Mirror r S w w' (Run.declareClass env name superclass methods)
        (Run.declareClass env name' superclass' methods') fun _ _ _ => True
    | _ => False := by
  cases superclass with
  | none =>
    obtain ⟨spares, suits⟩ := suits
    -- the class itself is not what is renamed
    have named : name.lexeme = r.swap (S.marked env) name.lexeme := by
      rw [around.marked]
      exact swap_of_spares spares
    refine (mirror_define like (.plain rfl) env named).bind fun S₁ u u' _ _ ext₁ like₁ _ => ?_
    have around₁ := around.mono like.closed ext₁
    refine (mirror_makeMethods (enclosing_this π) suits like₁ around₁ fun n => .none).bind
      fun S₂ x x' methods methods' ext₂ like₂ made => ?_
    refine (mirror_fresh like₂).bind fun S₃ y y' id id' ext₃ like₃ same => ?_
    subst same
    have hclass := likeClass_base id' name.lexeme (made.mono like₂.closed ext₃)
    refine mirror_define like₃ (.classObj hclass) env ?_
    rw [((around₁.mono like₁.closed ext₂).mono like₂.closed ext₃).marked]
    exact swap_of_spares spares
  -- with a superclass there is one frame more, and what is known of it has to be carried along
  | some ref =>
    obtain ⟨spares, leaves, suits⟩ := suits
    refine (mirror_readSuperclass like around leaves).bind fun S₀ t t' c c' ext₀ like₀ hc => ?_
    have around₀ := around.mono like.closed ext₀
    have named : name.lexeme = r.swap (Skeleton.marked S₀ env) name.lexeme := by
      rw [around₀.marked]
      exact swap_of_spares spares
    refine (mirror_define like₀ (.plain rfl) env named).bind fun S₁ u u' _ _ ext₁ like₁ _ => ?_
    have around₁ := around₀.mono like₀.closed ext₁
    have hc₁ := hc.mono like₀.closed ext₁
    refine (mirror_newFrame like₁ around₁ .super rfl π
      (rel_keyword proper _ (by decide) (.classObj hc₁))).bind
        fun S₂ x x' inner inner' ext₂ like₂ frame => ?_
    obtain ⟨rfl, around₂⟩ := frame
    refine (mirror_makeMethods (enclosing_this (.super :: π)) suits like₂ around₂
      fun n => .none).bind fun S₃ y y' methods methods' ext₃ like₃ made => ?_
    refine (mirror_fresh like₃).bind fun S₄ z z' id id' ext₄ like₄ same => ?_
    subst same
    have hc₄ := ((hc₁.mono like₁.closed ext₂).mono like₂.closed ext₃).mono like₃.closed ext₄
    have hclass := likeClass_derived id' name.lexeme hc₄ (made.mono like₃.closed ext₄)
    refine mirror_define like₄ (.classObj hclass) env ?_
    rw [(((around₁.mono like₁.closed ext₂).mono like₂.closed ext₃).mono like₃.closed ext₄).marked]
    exact swap_of_spares spares

/-! ### Members -/

/-- A property of like values is alike: fields and methods have the same names in both runs. -/
theorem mirror_getMember (proper : r.Proper) (like : LikeWorld r S w w') (hv : Like r S v v')
    (name : Token) :
    Mirror r S w w' (Run.getMember v name) (Run.getMember v' name) (Like r) := by
  have wrong : Mirror r S w w' (Run.raise name (.noProperties v.kind))
      (Run.raise name (.noProperties v'.kind)) (Like r) := by
    rw [hv.kind]
    exact mirror_raise like _ _
  cases hv with
  | plain hv => cases v <;> first | exact wrong | cases hv
  | function => exact wrong
  | classObj => exact wrong
  -- fields first, then methods: both under the name of the property, which stays
  | object id hc =>
    refine (mirror_field? like id name.lexeme).bind fun S₁ u u' o o' ext like₁ found => ?_
    cases found with
    | some hv => exact mirror_pure like₁ hv
    | none =>
      have hc₁ := hc.mono like.closed ext
      have method := hc₁.methods name.lexeme
      dsimp only
      -- which of the two lookups succeeds does not matter, but they do so together
      revert method
      generalize Class.method? name.lexeme _ = f
      generalize Class.method? name.lexeme _ = f'
      intro method
      cases method with
      | some hf =>
        exact (mirror_bindMethod proper like₁ hf (.object id hc₁)).bind
          fun _ _ _ _ _ _ like₂ bound => mirror_pure like₂ (.function bound)
      | none => exact mirror_raise like₁ _ _

/-- Both runs set the field of the same instance, or find none. -/
theorem mirror_fieldOwner (like : LikeWorld r S w w') (hv : Like r S v v') (name : Token) :
    Mirror r S w w' (Run.fieldOwner v name) (Run.fieldOwner v' name) fun _ id id' => id' = id := by
  have wrong : Mirror r S w w' (Run.raise name (.noFields v.kind))
      (Run.raise name (.noFields v'.kind)) fun _ (id id' : Nat) => id' = id := by
    rw [hv.kind]
    exact mirror_raise like _ _
  cases hv with
  | plain hv => cases v <;> first | exact wrong | cases hv
  | object id => exact mirror_pure like rfl
  | _ => exact wrong

section Super

variable {scopes : List Place} {env : Nat}

/-- What a class binds is found under its name in both runs. -/
theorem LikeWorld.getAt?_keyword (proper : r.Proper) (like : LikeWorld r S w w')
    (around : Around r S scopes env) (d : Int) {keyword : String}
    (h : Token.Kind.ofWord keyword ≠ .identifier) :
    Option.Rel (Like r S) (w.frames.getAt? env d keyword) (w'.frames.getAt? env d keyword) := by
  have found := like.getAt? around d keyword
  rwa [proper.swap_keyword h] at found

/-- What only calls bind is found under the same name in both runs. -/
theorem mirror_readAround (proper : r.Proper) (like : LikeWorld r S w w')
    (around : Around r S scopes env) (d : Int) (token : Token) {keyword : String}
    (h : Token.Kind.ofWord keyword ≠ .identifier) :
    Mirror r S w w' (Run.readAround env d token keyword) (Run.readAround env d token keyword)
      (Like r) := by
  have found := like.getAt?_keyword proper around d h
  refine mirror_get ?_
  generalize w.frames.getAt? env d keyword = o at found ⊢
  generalize w'.frames.getAt? env d keyword = o' at found ⊢
  cases found with
  | some hv => exact mirror_pure like hv
  | none => exact mirror_raise like _ _

/-- The method is found in like classes and bound to like instances. -/
theorem mirror_superMethod (proper : r.Proper) (like : LikeWorld r S w w')
    (around : Around r S scopes env) (ref : Reference) (method : Token) :
    Mirror r S w w' (Run.superMethod env ref method) (Run.superMethod env ref method) (Like r) := by
  unfold Run.superMethod
  cases ref.hops with
  | none => exact mirror_raise like _ _
  | some d =>
    refine (mirror_readAround proper like around d ref.name (by decide)).bind
      fun S₁ u u' v v' ext like₁ hv => ?_
    have wrong : Mirror r S₁ u u' (Run.raise ref.name .superclassKind)
        (Run.raise ref.name .superclassKind) (Like r) := mirror_raise like₁ _ _
    cases hv with
    | plain hv => cases v <;> first | exact wrong | cases hv
    | function => exact wrong
    | object => exact wrong
    | classObj hc =>
      -- the instance is in the frame inside that of the superclass
      have around₁ := around.mono like.closed ext
      refine (mirror_readAround proper like₁ around₁ (d - 1) ref.name (by decide)).bind
        fun S₂ x x' o o' ext₁ like₂ ho => ?_
      have alone : Mirror r S₂ x x' (Run.raise ref.name .superWithoutInstance)
          (Run.raise ref.name .superWithoutInstance) (Like r) := mirror_raise like₂ _ _
      cases ho with
      | plain ho => cases o <;> first | exact alone | cases ho
      | function => exact alone
      | classObj => exact alone
      | object id hd =>
        have found := (hc.mono like₁.closed ext₁).methods method.lexeme
        dsimp only
        revert found
        generalize Class.method? method.lexeme _ = f
        generalize Class.method? method.lexeme _ = f'
        intro found
        cases found with
        | some hf =>
          exact (mirror_bindMethod proper like₂ hf (.object id hd)).bind
            fun _ _ _ _ _ _ like₃ bound => mirror_pure like₃ (.function bound)
        | none => exact mirror_raise like₂ _ _

end Super

/-! ### Calls -/

/-- Statements that end alike. -/
inductive LikeEnd (r : Renaming) (S : Skeleton) : Run.Completion → Run.Completion → Prop where
  | normal : LikeEnd r S .normal .normal
  | returned {v v' : Value} : Like r S v v' → LikeEnd r S (.returned v) (.returned v')

/-- Statements end alike if each of them does. -/
theorem mirror_runAll {exec exec' : Stmt → Run Run.Completion} {π : Place} {env : Nat}
    (h : ∀ {S w w' i stmt}, LikeWorld r S w w' → Around r S (enclosing π) env →
      stmt.Suits r (.part i :: π) →
        Mirror r S w w' (exec stmt) (exec' (stmt.rename r (.part i :: π))) (LikeEnd r))
    (like : LikeWorld r S w w') (around : Around r S (enclosing π) env) {body : List Stmt} {i : Nat}
    (suits : Stmt.AllSuit r π i body) :
    Mirror r S w w' (Run.runAll exec body) (Run.runAll exec' (Stmt.renameAll r π i body))
      (LikeEnd r) := by
  induction body generalizing S w w' i with
  | nil => exact mirror_pure like .normal
  | cons stmt rest ih =>
    refine (h like around suits.1).bind fun S₁ u u' _ _ ext like₁ ended => ?_
    cases ended with
    | normal => exact ih like₁ (around.mono like.closed ext) suits.2
    | returned hv => exact mirror_pure like₁ (.returned hv)

/-- Where a body is, the scope is that of its parameters. -/
theorem holds_body (r : Renaming) (π : Place) :
    r.holds (.body :: π) = decide (.body :: π = r.scope) := by
  simp [Renaming.holds]

/-- Parameters have like arguments, under their names in each run. -/
theorem rel_bindArgs {π : Place} {params : List Token} (admits : ∀ t ∈ params, r.Admits π t)
    {args args' : List Value} (hargs : List.Forall₂ (Like r S) args args')
    {bindings bindings' : Bindings Value}
    (before : ∀ n, Option.Rel (Like r S) (Bindings.get? n bindings)
      (Bindings.get? (r.swap (r.holds π) n) bindings')) (n : String) :
    Option.Rel (Like r S) (Bindings.get? n (Run.bindArgs params args bindings))
      (Bindings.get? (r.swap (r.holds π) n)
        (Run.bindArgs (params.map (r.declared π)) args' bindings')) := by
  induction params generalizing args args' bindings bindings' with
  | nil =>
    rw [List.map_nil, Run.bindArgs, Run.bindArgs]
    · exact before n
    · simp
    · simp
  | cons p params ih =>
    cases hargs with
    | nil =>
      rw [Run.bindArgs, Run.bindArgs]
      · exact before n
      · simp
      · simp
    | cons hv rest =>
      refine ih (fun t ht => admits t (List.mem_cons_of_mem _ ht)) rest fun m => ?_
      -- swapping names is its own inverse, so the parameters stay apart
      have same : r.swap (r.holds π) m = r.swap (r.holds π) p.lexeme ↔ m = p.lexeme := by
        rw [swap_name_eq_iff, swap_swap]
      rw [Bindings.get?_insert, Bindings.get?_insert,
        name_eq_swap_of_admits (admits p List.mem_cons_self)]
      by_cases here : m = p.lexeme
      · rw [if_pos here, if_pos (same.mpr here)]
        exact .some hv
      · rw [if_neg here, if_neg (mt same.mp here)]
        exact before m

/-- A call answers its instance in both runs, or what its body returned. -/
theorem mirror_answer (proper : r.Proper) (like : LikeWorld r S w w') {f f' : Closure}
    (hf : LikeClosure r S f f') {c c' : Run.Completion} (hc : LikeEnd r S c c') :
    Mirror r S w w' (Run.answer f c) (Run.answer f' c') (Like r) := by
  obtain ⟨π, ⟨rfl, -, -⟩, around⟩ := hf
  have keyword : Token.Kind.ofWord "this" ≠ .identifier := by decide
  have found := like.getAt?_keyword proper around 0 keyword
  unfold Run.answer Closure.rename
  dsimp only
  split
  · refine mirror_get ?_
    generalize w.frames.getAt? f.frame 0 "this" = o at found ⊢
    generalize w'.frames.getAt? f.frame 0 "this" = o' at found ⊢
    cases found with
    | some hv => exact mirror_pure like hv
    | none => exact mirror_fail like _
  · cases hc with
    | normal => exact mirror_pure like (.plain rfl)
    | returned hv => exact mirror_pure like hv

/-- A body is carried out in a new frame in both runs, with like arguments. -/
theorem mirror_callClosure (proper : r.Proper)
    {body body' : Nat → List Stmt → Run Run.Completion}
    (h : ∀ {S w w' π env ss}, LikeWorld r S w w' → Around r S (enclosing π) env →
      Stmt.AllSuit r π 0 ss →
        Mirror r S w w' (body env ss) (body' env (Stmt.renameAll r π 0 ss)) (LikeEnd r))
    (like : LikeWorld r S w w') {f f' : Closure} (hf : LikeClosure r S f f')
    {args args' : List Value} (hargs : List.Forall₂ (Like r S) args args') :
    Mirror r S w w' (Run.callClosure body f args) (Run.callClosure body' f' args') (Like r) := by
  have hf' := hf
  obtain ⟨π, renamed, around⟩ := hf
  have arity := renamed.length_params
  unfold Run.callClosure
  rw [arity, ← hargs.length_eq]
  split
  · exact mirror_fail like _
  -- only here the body is looked at: it was renamed where it was declared
  · obtain ⟨rfl, admits, suits⟩ := renamed
    refine (mirror_newFrame like around .body rfl π ?_).bind
      fun S₁ u u' env env' ext like₁ frame => ?_
    · intro n
      rw [← holds_body]
      exact rel_bindArgs admits hargs (fun _ => .none) n
    · obtain ⟨rfl, around₁⟩ := frame
      refine (h (π := .body :: π) like₁ around₁ suits).bind fun S₂ x x' c c' ext₁ like₂ ended => ?_
      exact mirror_answer proper like₂ ((hf'.mono like.closed ext).mono like₁.closed ext₁) ended

/-- Both runs make the instance with the same number, and call its initializer. -/
theorem mirror_construct (proper : r.Proper) {callInit callInit' : Closure → List Value → Run Value}
    (h : ∀ {S w w' f f' args args'}, LikeWorld r S w w' → LikeClosure r S f f' →
      List.Forall₂ (Like r S) args args' →
        Mirror r S w w' (callInit f args) (callInit' f' args') (Like r))
    (like : LikeWorld r S w w') {c c' : Class} (hc : LikeClass r S c c') {args args' : List Value}
    (hargs : List.Forall₂ (Like r S) args args') :
    Mirror r S w w' (Run.construct callInit c args) (Run.construct callInit' c' args')
      (Like r) := by
  refine (mirror_newObject like).bind fun S₁ u u' id id' ext like₁ same => ?_
  subst same
  have hc₁ := hc.mono like.closed ext
  have init := hc₁.methods initName
  dsimp only
  -- both classes have an initializer or none has
  generalize c.method? initName = f at init ⊢
  generalize c'.method? initName = f' at init ⊢
  cases init with
  | none => exact mirror_pure like₁ (.object id' hc₁)
  | some hf =>
    refine (mirror_bindMethod proper like₁ hf (.object id' hc₁)).bind
      fun S₂ x x' g g' ext₁ like₂ hg => ?_
    have hargs₂ : List.Forall₂ (Like r S₂) args args' :=
      hargs.imp fun _ _ hv => (hv.mono like.closed ext).mono like₁.closed ext₁
    refine (h like₂ hg hargs₂).discard.bind fun S₃ y y' _ _ ext₂ like₃ _ => ?_
    exact mirror_pure like₃
      (.object id' ((hc₁.mono like₁.closed ext₁).mono like₂.closed ext₂))

/-! ### Natives -/

/-- What comes of a part in each run: like values, or like problems. -/
inductive LikeResult (r : Renaming) (S : Skeleton) :
    Except Problem Value → Except Problem Value → Prop where
  | ok {v v' : Value} : Like r S v v' → LikeResult r S (.ok v) (.ok v')
  | error {p p' : Problem} : LikeProblem r p p' → LikeResult r S (.error p) (.error p')

/-- Parts that end alike give a native like values, or tell it of like problems. -/
theorem mirror_attempt {act act' : Run Value} (h : Mirror r S w w' act act' (Like r)) :
    Mirror r S w w' (Run.attempt act) (Run.attempt act') (LikeResult r) := by
  unfold Mirror at h ⊢
  rw [Run.attempt_apply, Run.attempt_apply]
  cases hw : act w with
  | ok v u =>
    cases hw' : act' w' with
    | ok v' u' =>
      simp only [hw, hw'] at h
      obtain ⟨S', ext, like, hv⟩ := h
      exact ⟨S', ext, like, .ok hv⟩
    | error => simp only [hw, hw'] at h
  | error stop u =>
    cases hw' : act' w' with
    | ok => simp only [hw, hw'] at h
    | error stop' u' =>
      simp only [hw, hw'] at h
      obtain ⟨stops, S', ext, like⟩ := h
      -- problems are related as stops are; what cannot be caught goes on as it is
      have met := stops.problem?
      dsimp only
      generalize stop.problem? = p at met ⊢
      generalize stop'.problem? = p' at met ⊢
      cases met with
      | some hp => exact ⟨S', ext, like, .error hp⟩
      | none => exact ⟨stops, S', ext, like⟩

/-- Lists that are related are so at each place. -/
theorem rel_getElem? {α : Type} {R : α → α → Prop} {l l' : List α} (h : List.Forall₂ R l l')
    (i : Nat) : Option.Rel R l[i]? l'[i]? := by
  induction h generalizing i with
  | nil => exact .none
  | cons first _ ih =>
    cases i with
    | zero => exact .some first
    | succ i => exact ih i

section Natives

variable {invoke invoke' : Callable → List Value → Run Value}

/-- What a native asks for is called in both runs, or can be called in neither. -/
theorem mirror_request
    (h : ∀ {f f' args args'}, Like r S f.value f'.value → List.Forall₂ (Like r S) args args' →
      Mirror r S w w' (invoke f args) (invoke' f' args') (Like r))
    (like : LikeWorld r S w w') {callee callee' : Value} (hcallee : Like r S callee callee')
    {args args' : List Value} (hargs : List.Forall₂ (Like r S) args args') :
    Mirror r S w w' (Run.request invoke callee args) (Run.request invoke' callee' args')
      (LikeResult r) := by
  unfold Run.request
  obtain ⟨none₁, none₂⟩ | ⟨f, f', some₁, some₂, hf, -⟩ := (likeness r S).callable? hcallee
  · rw [none₁, none₂, hcallee.kind]
    exact mirror_pure like (.error (.unplaced _))
  · rw [some₁, some₂]
    exact mirror_attempt (h hf hargs)

/-- What a native does is carried out alike in both runs, for it is shown the same. -/
theorem mirror_perform
    (h : ∀ {S w w' f f' args args'}, LikeWorld r S w w' → Like r S f.value f'.value →
      List.Forall₂ (Like r S) args args' →
        Mirror r S w w' (invoke f args) (invoke' f' args') (Like r))
    (like : LikeWorld r S w w') {given given' : List Value}
    (hgiven : List.Forall₂ (Like r S) given given') {met met' : List Problem}
    (hmet : List.Forall₂ (LikeProblem r) met met') (reply : Reply) :
    Mirror r S w w' (Run.perform invoke given met reply) (Run.perform invoke' given' met' reply)
      (Like r) := by
  -- one reply for both, since what the natives are shown is equal: by induction on it
  induction reply generalizing S w w' given given' met met' with
  | answer d => exact mirror_pure like (d.related (fun _ => .plain) hgiven)
  | fail message => exact mirror_fail like _
  | pass i =>
    have found := rel_getElem? hmet i
    unfold Run.perform
    generalize met[i]? = p at found ⊢
    generalize met'[i]? = p' at found ⊢
    cases found with
    | some hp => exact mirror_throw like hp
    | none => exact mirror_pure like (.plain rfl)
  | call callee args resume ih =>
    have plain (v : Value) (hv : v.isPlain = true) : Like r S v v := .plain hv
    unfold Run.perform
    refine (mirror_request (fun hf hargs => h like hf hargs) like
      (callee.related plain hgiven) (Datum.related_map plain hgiven args)).bind
        fun S₁ u u' result result' ext like₁ came => ?_
    have hgiven₁ : List.Forall₂ (Like r S₁) given given' :=
      hgiven.imp fun _ _ hv => hv.mono like.closed ext
    cases came with
    | ok hv =>
      dsimp only
      -- the native sees the value, so it has to look the same
      rw [← (likeness r S₁).alike _ _ hv]
      exact ih _ like₁ (List.rel_append hgiven₁ (.cons hv .nil)) hmet
    | error hp =>
      dsimp only
      -- the native sees what went wrong, but neither names nor lines
      rw [hp.mishap]
      exact ih _ like₁ hgiven₁ (List.rel_append hmet (.cons hp .nil))

end Natives

/-- A call is refused in both runs with the same message, or carried out in both. -/
theorem mirror_call {invoke invoke' : Callable → List Value → Run Value}
    (h : ∀ {S w w' f f' args args'}, LikeWorld r S w w' → Like r S f.value f'.value →
      List.Forall₂ (Like r S) args args' →
        Mirror r S w w' (invoke f args) (invoke' f' args') (Like r))
    (like : LikeWorld r S w w') (hv : Like r S v v') {args args' : List Value}
    (hargs : List.Forall₂ (Like r S) args args') (maxDepth : Nat) (paren : Token) :
    Mirror r S w w' (Run.call maxDepth invoke paren v args)
      (Run.call maxDepth invoke' paren v' args') (Like r) := by
  unfold Run.call
  -- both can be called or neither can, and with as many arguments
  obtain ⟨none₁, none₂⟩ | ⟨f, f', some₁, some₂, hf, arity⟩ :=
    (likeness r S).callable? hv
  · rw [none₁, none₂, hv.kind]
    exact mirror_raise like _ _
  · rw [some₁, some₂]
    dsimp only
    rw [← hargs.length_eq, ← arity, Callable.description_eq ((likeness r S).alike _ _ hf)]
    split
    · exact mirror_raise like _ _
    · refine mirror_get ?_
      rw [like.depth]
      split
      · exact mirror_raise like _ _
      · exact mirror_placedAt (mirror_deeper like fun u u' like₁ => h like₁ hf hargs) paren

end Lox.Twin
