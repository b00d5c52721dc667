import Lox.Proofs.Rename.Suits

/-!
What does not touch a scope is not changed by another name for its variable.
-/

namespace Lox.Scope.Renaming

variable {r : Renaming} {π : Place}

/-- The scope lies neither around the place nor inside of it. -/
structure Apart (r : Renaming) (π : Place) : Prop where
  inside : ¬ π <:+ r.scope
  around : r.scope ∉ enclosing π

/-- What is inside of something apart is apart. -/
theorem Apart.step (h : r.Apart π) (step : Step) : r.Apart (step :: π) := by
  constructor
  · intro inside
    exact h.inside ((List.suffix_cons step π).trans inside)
  · rw [enclosing]
    split
    · rw [List.mem_cons, not_or]
      refine ⟨fun same => h.inside ?_, h.around⟩
      rw [same]
      exact List.suffix_cons step π
    · exact h.around

/-- Declarations outside the scope are none of its variables. -/
theorem Apart.holds (h : r.Apart π) : r.holds π = false := by
  refine decide_eq_false fun head => h.around ?_
  exact List.mem_of_head? head

/-- Uses outside the scope do not reach it. -/
theorem Apart.reaches (h : r.Apart π) (hops : Option Int) : r.reaches π hops = false := by
  refine decide_eq_false fun found => h.around ?_
  obtain ⟨d, -, found⟩ := Option.bind_eq_some_iff.mp found
  exact List.mem_of_getElem? found

@[simp] theorem token_false (t : Token) : r.token false t = t := by
  simp [token, name]

/-- A declaration outside the scope keeps its name. -/
theorem Apart.declared (h : r.Apart π) (t : Token) : r.declared π t = t := by
  rw [Renaming.declared, h.holds, token_false]

/-- Parameters outside the scope keep their names. -/
theorem Apart.params (h : r.Apart π) (params : List Token) :
    params.map (r.declared (.body :: π)) = params := by
  rw [List.map_congr_left fun t _ => (h.step .body).declared t, List.map_id']

/-- A use outside the scope keeps its name. -/
theorem Apart.used (h : r.Apart π) (ref : Reference) : r.used π ref = ref := by
  rw [Renaming.used, h.reaches, token_false]

theorem Apart.admits (h : r.Apart π) (t : Token) : r.Admits π t := by
  intro holds
  rw [h.holds] at holds
  cases holds

theorem Apart.spares (h : r.Apart π) (t : Token) : r.Spares π t := by
  intro holds
  rw [h.holds] at holds
  cases holds

theorem Apart.leaves (h : r.Apart π) (ref : Reference) : r.Leaves π ref := by
  intro reaches
  rw [h.reaches] at reaches
  cases reaches

end Lox.Scope.Renaming

namespace Lox

open Scope

variable {r : Renaming}

mutual

/-- An expression outside the scope stays as it is, and nothing in it stands in the way. -/
theorem apart_expr : (e : Expr) → (π : Place) → r.Apart π → e.rename r π = e ∧ e.Suits r π
  | .number _, _, _ | .string _, _, _ | .bool _, _, _ | .nil, _, _ | .gap, _, _
  | .super _ _, _, _ => ⟨rfl, trivial⟩
  | .variable ref, π, h => ⟨by rw [Expr.rename, h.used], h.leaves ref⟩
  | .this ref, π, h => by
    refine ⟨rfl, fun reaches => ?_⟩
    rw [h.reaches] at reaches
    cases reaches
  -- no path that goes on from here leads into the renamed scope
  | .assign ref value, π, h => by
    obtain ⟨same, suits⟩ := apart_expr value _ (h.step (.part 0))
    exact ⟨by rw [Expr.rename, h.used, same], h.leaves ref, suits⟩
  | .unary _ operand, π, h | .group operand, π, h | .get operand _, π, h => by
    obtain ⟨same, suits⟩ := apart_expr operand _ (h.step (.part 0))
    exact ⟨by rw [Expr.rename, same], suits⟩
  | .binary _ left right, π, h | .logical _ left right, π, h | .set left _ right, π, h => by
    obtain ⟨same, suits⟩ := apart_expr left _ (h.step (.part 0))
    obtain ⟨same', suits'⟩ := apart_expr right _ (h.step (.part 1))
    exact ⟨by rw [Expr.rename, same, same'], suits, suits'⟩
  | .call callee _ args, π, h => by
    obtain ⟨same, suits⟩ := apart_expr callee _ (h.step (.part 0))
    obtain ⟨same', suits'⟩ := apart_exprs args π 1 h
    exact ⟨by rw [Expr.rename, same, same'], suits, suits'⟩
  | .lambda _ params body, π, h => by
    obtain ⟨same, suits⟩ := apart_stmts body (.body :: π) 0 fun i => (h.step .body).step _
    exact ⟨by rw [Expr.rename, h.params, same], fun t _ => (h.step .body).admits t, suits⟩

/-- Expressions outside the scope stay as they are. -/
theorem apart_exprs : (es : List Expr) → (π : Place) → (i : Nat) → r.Apart π →
    Expr.renameAll r π i es = es ∧ Expr.AllSuit r π i es
  | [], _, _, _ => ⟨rfl, trivial⟩
  | e :: rest, π, i, h => by
    obtain ⟨same, suits⟩ := apart_expr e _ (h.step (.part i))
    obtain ⟨same', suits'⟩ := apart_exprs rest π (i + 1) h
    exact ⟨by rw [Expr.renameAll, same, same'], suits, suits'⟩

/-- A statement outside the scope stays as it is. -/
theorem apart_stmt : (s : Stmt) → (π : Place) → r.Apart π → s.rename r π = s ∧ s.Suits r π
  | .ret _ none, _, _ | .gap, _, _ => ⟨rfl, trivial⟩
  | .expr e, π, h | .print e, π, h | .ret _ (some e), π, h => by
    obtain ⟨same, suits⟩ := apart_expr e _ (h.step (.part 0))
    exact ⟨by rw [Stmt.rename, same], suits⟩
  | .var name none, π, h => ⟨by rw [Stmt.rename, h.declared], h.admits name⟩
  | .var name (some init), π, h => by
    obtain ⟨same, suits⟩ := apart_expr init _ (h.step (.initializer name.lexeme))
    exact ⟨by rw [Stmt.rename, h.declared, same], h.admits name, suits⟩
  | .block body, π, h => by
    obtain ⟨same, suits⟩ := apart_stmts body (.block :: π) 0 fun i => (h.step .block).step _
    exact ⟨by rw [Stmt.rename, same], suits⟩
  | .cond test yes none, π, h | .loop test yes, π, h => by
    obtain ⟨same, suits⟩ := apart_expr test _ (h.step (.part 0))
    obtain ⟨same', suits'⟩ := apart_stmt yes _ (h.step (.part 1))
    exact ⟨by rw [Stmt.rename, same, same'], suits, suits'⟩
  | .cond test yes (some no), π, h => by
    obtain ⟨same, suits⟩ := apart_expr test _ (h.step (.part 0))
    obtain ⟨same', suits'⟩ := apart_stmt yes _ (h.step (.part 1))
    obtain ⟨same'', suits''⟩ := apart_stmt no _ (h.step (.part 2))
    exact ⟨by rw [Stmt.rename, same, same', same''], suits, suits', suits''⟩
  | .function ⟨name, params, body⟩, π, h => by
    obtain ⟨same, suits⟩ := apart_function ⟨name, params, body⟩ π h
    exact ⟨by rw [Stmt.rename, same], h.spares name, suits⟩
  | .classDecl name none methods, π, h => by
    obtain ⟨same, suits⟩ := apart_functions methods (.this :: π) 0 (h.step .this)
    exact ⟨by rw [Stmt.rename, same], h.spares name, suits⟩
  | .classDecl name (some superclass) methods, π, h => by
    obtain ⟨same, suits⟩ :=
      apart_functions methods (.this :: .super :: π) 0 ((h.step .super).step .this)
    exact ⟨by rw [Stmt.rename, h.used, same], h.spares name, h.leaves superclass, suits⟩

/-- Statements apart from the scope, even where what is around them is not. -/
theorem apart_stmts : (body : List Stmt) → (π : Place) → (i : Nat) →
    (∀ j, r.Apart (.part j :: π)) → Stmt.renameAll r π i body = body ∧ Stmt.AllSuit r π i body
  | [], _, _, _ => ⟨rfl, trivial⟩
  | s :: rest, π, i, h => by
    obtain ⟨same, suits⟩ := apart_stmt s _ (h i)
    obtain ⟨same', suits'⟩ := apart_stmts rest π (i + 1) h
    exact ⟨by rw [Stmt.renameAll, same, same'], suits, suits'⟩

/-- A function outside the scope stays as it is. -/
theorem apart_function : (f : Function) → (π : Place) → r.Apart π →
    f.rename r π = f ∧ f.Suits r π
  | ⟨_, params, body⟩, π, h => by
    obtain ⟨same, suits⟩ := apart_stmts body (.body :: π) 0 fun i => (h.step .body).step _
    exact ⟨by rw [Function.rename, h.params, same], fun t _ => (h.step .body).admits t, suits⟩

/-- Methods outside the scope stay as they are. -/
theorem apart_functions : (fs : List Function) → (π : Place) → (i : Nat) → r.Apart π →
    Function.renameAll r π i fs = fs ∧ Function.AllSuit r π i fs
  | [], _, _, _ => ⟨rfl, trivial⟩
  | f :: rest, π, i, h => by
    obtain ⟨same, suits⟩ := apart_function f _ (h.step (.part i))
    obtain ⟨same', suits'⟩ := apart_functions rest π (i + 1) h
    exact ⟨by rw [Function.renameAll, same, same'], suits, suits'⟩

end

end Lox
