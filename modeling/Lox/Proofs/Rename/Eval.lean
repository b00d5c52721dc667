import Lox.Proofs.Rename.Member
import Lox.Run.Eval

/-!
Evaluation in both runs: a program and the same program with another name for a variable do the
same, step by step, from like worlds.
-/

namespace Lox.Twin

open Scope Renaming

variable {r : Renaming} {S : Skeleton} {w w' : World}

/-- Arguments are evaluated in turn, to like values. -/
theorem mirror_mapM {eval eval' : Expr → Run Value} {π : Place} {env : Nat}
    (h : ∀ {S w w' i e}, LikeWorld r S w w' → Around r S (enclosing π) env →
      e.Suits r (.part i :: π) →
        Mirror r S w w' (eval e) (eval' (e.rename r (.part i :: π))) (Like r))
    (like : LikeWorld r S w w') (around : Around r S (enclosing π) env) {es : List Expr} {i : Nat}
    (suits : Expr.AllSuit r π i es) :
    Mirror r S w w' (es.mapM eval) ((Expr.renameAll r π i es).mapM eval')
      fun S => List.Forall₂ (Like r S) := by
  induction es generalizing S w w' i with
  | nil => exact mirror_pure like .nil
  | cons e rest ih =>
    rw [Expr.renameAll, List.mapM_cons, List.mapM_cons]
    refine (h like around suits.1).bind fun S₁ u u' v v' ext like₁ hv => ?_
    refine (ih like₁ (around.mono like.closed ext) suits.2).bind
      fun S₂ x x' vs vs' ext₁ like₂ hvs => ?_
    exact mirror_pure like₂ (.cons (hv.mono like₁.closed ext₁) hvs)

/-- With so much fuel, both runs do the same. -/
structure Mirrors (r : Renaming) (m : Machine) (n : Nat) : Prop where
  eval : ∀ {S w w' π env} {e : Expr}, LikeWorld r S w w' → Around r S (enclosing π) env →
    e.Suits r π → Mirror r S w w' (Run.eval m n env e) (Run.eval m n env (e.rename r π)) (Like r)
  exec : ∀ {S w w' π env} {stmt : Stmt}, LikeWorld r S w w' → Around r S (enclosing π) env →
    stmt.Suits r π →
      Mirror r S w w' (Run.exec m n env stmt) (Run.exec m n env (stmt.rename r π)) (LikeEnd r)
  invoke : ∀ {S w w'} {f f' : Callable} {args args' : List Value}, LikeWorld r S w w' →
    Like r S f.value f'.value → List.Forall₂ (Like r S) args args' →
      Mirror r S w w' (Run.invoke m n f args) (Run.invoke m n f' args') (Like r)

section Round

variable {m : Machine} {n : Nat} {π : Place} {env : Nat}

/-- `this` keeps its name. -/
theorem used_this (proper : r.Proper) {ref : Reference}
    (h : r.reaches π ref.hops = true → ref.name.lexeme = "this") : r.used π ref = ref := by
  unfold Renaming.used Renaming.token Renaming.name
  split
  · next reaches =>
    have keyword := h reaches.1
    rw [reaches.2] at keyword
    exact absurd (keyword ▸ proper.old) (by decide)
  · rfl

/-- `this` is not the new name. -/
theorem leaves_this (proper : r.Proper) {ref : Reference}
    (h : r.reaches π ref.hops = true → ref.name.lexeme = "this") : r.Leaves π ref := by
  intro reaches same
  rw [h reaches] at same
  exact absurd (same ▸ proper.new) (by decide)

/-- One step inward of an expression, both runs get like values. -/
theorem Mirrors.evalSucc (proper : r.Proper) (ih : Mirrors r m n) {e : Expr}
    (like : LikeWorld r S w w') (around : Around r S (enclosing π) env) (suits : e.Suits r π) :
    Mirror r S w w' (Run.eval m (n + 1) env e) (Run.eval m (n + 1) env (e.rename r π))
      (Like r) := by
  -- the skeleton may have grown in between, which changes nothing around the expression
  have part {S' : Skeleton} {u u' : World} {i : Nat} {e : Expr} (ext : S <+: S')
      (like' : LikeWorld r S' u u') (suits : e.Suits r (.part i :: π)) :
      Mirror r S' u u' (Run.eval m n env e) (Run.eval m n env (e.rename r (.part i :: π)))
        (Like r) :=
    ih.eval like' (around.mono like.closed ext) suits
  have here {i : Nat} {e : Expr} := part (i := i) (e := e) (List.prefix_refl S) like
  cases e with
  | number | string | bool | nil => exact mirror_pure like (.plain rfl)
  | gap => exact mirror_fail like _
  -- the only two cases in which the two expressions differ in a name: reading and assigning
  | «variable» ref => exact mirror_readRef like around suits
  | this ref =>
    have read := mirror_readRef like around (leaves_this proper suits)
    rwa [used_this proper suits] at read
  | assign ref value =>
    refine (here suits.2).bind fun S₁ u u' v v' ext like₁ hv => ?_
    refine (mirror_assignRef like₁ (around.mono like.closed ext) suits.1 hv).bind
      fun S₂ x x' _ _ ext₁ like₂ _ => ?_
    exact mirror_pure like₂ (hv.mono like₁.closed ext₁)
  | unary op operand =>
    exact (here suits).bind fun S₁ u u' v v' ext like₁ hv => mirror_applyUnary like₁ op hv
  | binary op left right =>
    refine (here suits.1).bind fun S₁ u u' a a' ext like₁ ha => ?_
    refine (part ext like₁ suits.2).bind fun S₂ x x' b b' ext₁ like₂ hb => ?_
    exact mirror_applyBinary like₂ op (ha.mono like₁.closed ext₁) hb
  | logical op left right =>
    refine (here suits.1).bind fun S₁ u u' a a' ext like₁ ha => ?_
    rw [ha.isTruthy]
    split
    · exact mirror_pure like₁ ha
    · exact part ext like₁ suits.2
  | group inner => exact here suits
  | call callee paren args =>
    refine (here suits.1).bind fun S₁ u u' f f' ext like₁ hf => ?_
    refine (mirror_mapM (fun like around suits => ih.eval like around suits) like₁
      (around.mono like.closed ext) suits.2).bind fun S₂ x x' vs vs' ext₁ like₂ hvs => ?_
    exact mirror_call ih.invoke like₂ (hf.mono like₁.closed ext₁) hvs _ _
  | get object name =>
    exact (here suits).bind fun S₁ u u' v v' ext like₁ hv =>
      mirror_getMember proper like₁ hv name
  | set object name value =>
    refine (here suits.1).bind fun S₁ u u' o o' ext like₁ ho => ?_
    refine (mirror_fieldOwner like₁ ho name).bind fun S₂ x x' id id' ext₁ like₂ same => ?_
    subst same
    refine (part (ext.trans ext₁) like₂ suits.2).bind fun S₃ y y' v v' ext₂ like₃ hv => ?_
    exact (mirror_setField like₃ hv id' name.lexeme).bind fun S₄ z z' _ _ ext₃ like₄ _ =>
      mirror_pure like₄ (hv.mono like₃.closed ext₃)
  | «super» ref method => exact mirror_superMethod proper like around ref method
  | lambda keyword params body =>
    refine (mirror_makeClosure like suits.1 suits.2 env "" false).bind
      fun S₁ u u' f f' ext like₁ made => ?_
    exact mirror_pure like₁ (.function ⟨π, made.1, made.2 ▸ around.mono like.closed ext⟩)

/-- Declarations get their names. -/
theorem mirror_declare {S' : Skeleton} {u u' : World} {v v' : Value} {t : Token}
    (around : Around r S' (enclosing π) env) (admits : r.Admits π t) (like : LikeWorld r S' u u')
    (hv : Like r S' v v') :
    Mirror r S' u u' (do Run.define env t.lexeme v; return .normal)
      (do Run.define env (r.declared π t).lexeme v'; return .normal) (LikeEnd r) := by
  refine (mirror_define like hv env ?_).bind fun S₁ x x' _ _ _ like₁ _ =>
    mirror_pure like₁ .normal
  rw [around.marked]
  exact name_eq_swap_of_admits admits

/-- One step inward of a statement, both runs end alike. -/
theorem Mirrors.execSucc (proper : r.Proper) (ih : Mirrors r m n) {stmt : Stmt}
    (like : LikeWorld r S w w') (around : Around r S (enclosing π) env) (suits : stmt.Suits r π) :
    Mirror r S w w' (Run.exec m (n + 1) env stmt) (Run.exec m (n + 1) env (stmt.rename r π))
      (LikeEnd r) := by
  have part {i : Nat} {e : Expr} (suits : e.Suits r (.part i :: π)) :
      Mirror r S w w' (Run.eval m n env e) (Run.eval m n env (e.rename r (.part i :: π)))
        (Like r) :=
    ih.eval like around suits
  have branch {S' : Skeleton} {u u' : World} {i : Nat} {s : Stmt} (ext : S <+: S')
      (like' : LikeWorld r S' u u') (suits : s.Suits r (.part i :: π)) :
      Mirror r S' u u' (Run.exec m n env s) (Run.exec m n env (s.rename r (.part i :: π)))
        (LikeEnd r) :=
    ih.exec like' (around.mono like.closed ext) suits
  -- the cases follow `Run.exec`; a declaration may be the renamed one
  cases stmt with
  | expr e =>
    exact (part suits).discard.bind fun S₁ u u' _ _ ext like₁ _ => mirror_pure like₁ .normal
  | print e =>
    refine (part suits).bind fun S₁ u u' v v' ext like₁ hv => ?_
    rw [hv.text]
    exact (mirror_write like₁ m.sink v.text).bind fun S₂ x x' _ _ ext₁ like₂ _ =>
      mirror_pure like₂ .normal
  | var name init =>
    cases init with
    | none => exact mirror_declare around suits like (.plain rfl)
    | some init =>
      refine (ih.eval like (π := .initializer name.lexeme :: π) around suits.2).bind
        fun S₁ u u' v v' ext like₁ hv => ?_
      exact mirror_declare (around.mono like.closed ext) suits.1 like₁ hv
  | block body =>
    refine (mirror_newFrame like around .block rfl π fun _ => .none).bind
      fun S₁ u u' inner inner' ext like₁ frame => ?_
    obtain ⟨rfl, around₁⟩ := frame
    exact mirror_runAll (π := .block :: π) (fun like around suits => ih.exec like around suits)
      like₁ around₁ suits
  | cond test yes no =>
    cases no with
    | none =>
      refine (part suits.1).bind fun S₁ u u' v v' ext like₁ hv => ?_
      rw [hv.isTruthy]
      split
      · exact branch ext like₁ suits.2
      · exact mirror_pure like₁ .normal
    | some no =>
      refine (part suits.1).bind fun S₁ u u' v v' ext like₁ hv => ?_
      rw [hv.isTruthy]
      split
      · exact branch ext like₁ suits.2.1
      · exact branch ext like₁ suits.2.2
  | loop test body =>
    refine (part suits.1).bind fun S₁ u u' v v' ext like₁ hv => ?_
    rw [hv.isTruthy]
    split
    · refine (branch ext like₁ suits.2).bind fun S₂ x x' _ _ ext₁ like₂ ended => ?_
      cases ended with
      | returned hv => exact mirror_pure like₂ (.returned hv)
      | normal =>
        have around₂ := (around.mono like.closed ext).mono like₁.closed ext₁
        -- a loop goes round with one level less, as the same statement
        have again : (Stmt.loop test body).Suits r π := suits
        exact ih.exec like₂ around₂ again
    · exact mirror_pure like₁ .normal
  | function decl =>
    obtain ⟨name, params, body⟩ := decl
    obtain ⟨spares, admits, suits⟩ := suits
    refine (mirror_makeClosure like admits suits env name.lexeme false).bind
      fun S₁ u u' f f' ext like₁ made => ?_
    have around₁ := around.mono like.closed ext
    refine (mirror_define like₁ (.function ⟨π, made.1, made.2 ▸ around₁⟩) env ?_).bind
      fun S₂ x x' _ _ ext₁ like₂ _ => mirror_pure like₂ .normal
    rw [around₁.marked]
    exact swap_of_spares spares
  | ret keyword value =>
    cases value with
    | none => exact mirror_pure like (.returned (.plain rfl))
    | some value =>
      exact (part suits).bind fun S₁ u u' v v' ext like₁ hv => mirror_pure like₁ (.returned hv)
  | classDecl name superclass methods =>
    have declared := mirror_declareClass proper like around suits
    cases superclass with
    | none =>
      exact declared.bind fun S₁ u u' _ _ ext like₁ _ => mirror_pure like₁ .normal
    | some ref =>
      exact declared.bind fun S₁ u u' _ _ ext like₁ _ => mirror_pure like₁ .normal
  | gap => exact mirror_fail like _

/-- The statements of a body end alike in both runs. -/
theorem Mirrors.runAll (ih : Mirrors r m n) {body : List Stmt} (like : LikeWorld r S w w')
    (around : Around r S (enclosing π) env) (suits : Stmt.AllSuit r π 0 body) :
    Mirror r S w w' (Run.runAll (Run.exec m n env) body)
      (Run.runAll (Run.exec m n env) (Stmt.renameAll r π 0 body)) (LikeEnd r) :=
  mirror_runAll (fun like around suits => ih.exec like around suits) like around suits

/-- One step inward of a call, both runs get like values; a native is shown the same in both. -/
theorem Mirrors.invokeSucc (proper : r.Proper) (ih : Mirrors r m n)
    {f f' : Callable} {args args' : List Value} (like : LikeWorld r S w w')
    (hf : Like r S f.value f'.value) (hargs : List.Forall₂ (Like r S) args args') :
    Mirror r S w w' (Run.invoke m (n + 1) f args) (Run.invoke m (n + 1) f' args') (Like r) := by
  have closures {S w w' f f' args args'} (like : LikeWorld r S w w') (hf : LikeClosure r S f f')
      (hargs : List.Forall₂ (Like r S) args args') :
      Mirror r S w w' (Run.callClosure (fun env => Run.runAll (Run.exec m n env)) f args)
        (Run.callClosure (fun env => Run.runAll (Run.exec m n env)) f' args') (Like r) :=
    mirror_callClosure proper ih.runAll like hf hargs
  -- what can be called is of the same kind on both sides
  have same := (likeness r S).alike _ _ hf
  cases f with
  | function f =>
    cases f' with
    | function f' =>
      generalize hv : Callable.value (.function f) = v at hf
      generalize hv' : Callable.value (.function f') = v' at hf
      cases hf with
      | plain plain =>
        subst hv
        cases plain
      | function hf =>
        cases hv
        cases hv'
        exact closures like hf hargs
      | classObj => cases hv
      | object => cases hv
    | _ => exact Appearance.noConfusion same
  | native f =>
    cases f' with
    | native f' =>
      cases Appearance.native.inj same
      -- both natives are asked as often, and shown the same: they reply the same
      refine (mirror_ask like).bind fun S₁ u u' before before' ext like₁ same => ?_
      subst same
      rw [(likeness r S).shown hargs]
      exact mirror_perform ih.invoke like₁ (hargs.imp fun _ _ hv => hv.mono like.closed ext) .nil _
    | _ => exact Appearance.noConfusion same
  | classObj c =>
    cases f' with
    | classObj c' =>
      generalize hv : Callable.value (.classObj c) = v at hf
      generalize hv' : Callable.value (.classObj c') = v' at hf
      cases hf with
      | plain plain =>
        subst hv
        cases plain
      | classObj hc =>
        cases hv
        cases hv'
        exact mirror_construct proper closures like hc hargs
      | function => cases hv
      | object => cases hv
    | _ => exact Appearance.noConfusion same

end Round

/-- Both runs do the same, whatever the fuel. -/
theorem mirrors (proper : r.Proper) (m : Machine) (n : Nat) : Mirrors r m n := by
  induction n with
  | zero =>
    exact ⟨fun like _ _ => mirror_throw like .outOfFuel,
      fun like _ _ => mirror_throw like .outOfFuel,
      fun like _ _ => mirror_throw like .outOfFuel⟩
  | succ n ih =>
    exact ⟨ih.evalSucc proper, ih.execSucc proper, ih.invokeSucc proper⟩

end Lox.Twin
