import Lox.Proofs.Rename.Basic
import Lox.Proofs.Scope.Walk

/-!
What a scope of an addressed program declares: a name once, so that a variable never shares its name
with a function or a class.
-/

namespace Lox

open Scope

/-- A variable of the scope is no keyword, and no function or class of the scope has its name. -/
def LocalBody.Sound (b : LocalBody) : Prop :=
  ∀ x ∈ b.variables, Token.Kind.ofWord x = .identifier ∧ x ∉ b.titles

/-- The statement declares the name. -/
def Stmt.Declares (s : Stmt) (n : String) : Prop := s.variable? = some n ∨ s.title? = some n

section OneScope

variable {c : Context} {π : Place} {s : Stmt} {n : String}

/-- What a statement declares was not declared before in the scope. -/
theorem new_of_declares (addressed : s.Addressed c π) (h : s.Declares n) :
    Bindings.binds n c.innermost = false := by
  cases s with
  | var name init =>
    obtain h | h := h <;> cases h
    cases init with
    | none => exact addressed.2
    | some init => exact addressed.1.2
  | function decl =>
    obtain h | h := h <;> cases h
    exact addressed.1
  | classDecl name superclass methods =>
    obtain h | h := h <;> cases h
    cases superclass <;> exact addressed.1
  | _ => obtain h | h := h <;> cases h

/-- A scope binds what is marked in it, and what it bound before. -/
theorem binds_mark (inside : c.scopes ≠ []) (m : String) (done : Bool) :
    Bindings.binds n (c.mark m done).innermost =
      (decide (n = m) || Bindings.binds n c.innermost) := by
  obtain ⟨scopes, body, family⟩ := c
  cases scopes with
  | nil => exact absurd rfl inside
  | cons scope rest =>
    show Bindings.binds n (Bindings.insert m done scope.names) =
      (decide (n = m) || Bindings.binds n scope.names)
    unfold Bindings.binds
    rw [Bindings.get?_insert]
    split <;> simp_all

/-- What is declared in a scope stays declared. -/
theorem binds_after (inside : c.scopes ≠ []) (h : Bindings.binds n c.innermost = true) (s : Stmt) :
    Bindings.binds n (s.after c).innermost = true := by
  cases s with
  | var | function | classDecl =>
    unfold Stmt.after
    rw [binds_mark inside, h, Bool.or_true]
  | _ => exact h

/-- After a declaration its name is declared. -/
theorem binds_after_of_declares (inside : c.scopes ≠ []) (h : s.Declares n) :
    Bindings.binds n (s.after c).innermost = true := by
  cases s with
  | var | function | classDecl =>
    obtain h | h := h <;> cases h
    unfold Stmt.after
    rw [binds_mark inside, decide_eq_true rfl, Bool.true_or]
  | _ => obtain h | h := h <;> cases h

/-- A statement inside a scope leaves that scope open. -/
theorem after_inside (inside : c.scopes ≠ []) (s : Stmt) : (s.after c).scopes ≠ [] := by
  have marked (name : String) : (c.mark name true).scopes ≠ [] := by
    unfold Context.mark
    split
    · exact inside
    · exact List.cons_ne_nil _ _
  cases s with
  | var | function | classDecl => exact marked _
  | _ => exact inside

/-- What is declared already is not declared again. -/
theorem not_declares_of_binds {body : List Stmt} {i : Nat} (inside : c.scopes ≠ [])
    (bound : Bindings.binds n c.innermost = true) (addressed : Stmt.AllAddressed c π i body) :
    ∀ s ∈ body, ¬ s.Declares n := by
  induction body generalizing c i with
  | nil => simp
  | cons first rest ih =>
    refine List.forall_mem_cons.mpr ⟨fun h => ?_, ?_⟩
    · rw [new_of_declares addressed.1 h] at bound
      cases bound
    · exact ih (after_inside inside first) (binds_after inside bound first) addressed.2

/-- A variable among statements has its name to itself. -/
theorem variable_of_allAddressed {body : List Stmt} {i : Nat} (inside : c.scopes ≠ [])
    (addressed : Stmt.AllAddressed c π i body) (h : n ∈ body.filterMap Stmt.variable?) :
    Token.Kind.ofWord n = .identifier ∧ n ∉ body.filterMap Stmt.title? := by
  -- statement by statement: what was declared before is bound, and nothing is declared twice
  induction body generalizing c i with
  | nil => cases h
  | cons first rest ih =>
    have later := after_inside inside first
    rw [List.mem_filterMap] at h
    obtain ⟨s, hs, hn⟩ := h
    simp only [List.mem_filterMap, List.mem_cons, not_exists, not_and]
    rcases List.mem_cons.mp hs with rfl | hrest
    · have others := not_declares_of_binds later
        (binds_after_of_declares inside (.inl hn)) addressed.2
      cases s with
      | var name init =>
        cases hn
        refine ⟨?_, ?_⟩
        · cases init with
          | none => exact addressed.1.1
          | some init => exact addressed.1.1.1
        · rintro t (rfl | ht) title
          · cases title
          · exact others t ht (.inr title)
      | _ => cases hn
    · obtain ⟨word, apart⟩ := ih later addressed.2 (List.mem_filterMap.mpr ⟨s, hrest, hn⟩)
      refine ⟨word, ?_⟩
      rintro t (rfl | ht) title
      · exact not_declares_of_binds later (binds_after_of_declares inside (.inr title)) addressed.2
          s hrest (.inl hn)
      · exact apart (List.mem_filterMap.mpr ⟨t, ht, title⟩)

end OneScope

/-- The parameters are declared before the body. -/
theorem binds_paramNames {n : String} (params : List Token) {names : Names}
    (h : n ∈ params.map (·.lexeme) ∨ Bindings.binds n names = true) :
    Bindings.binds n (Context.paramNames params names) = true := by
  induction params generalizing names with
  | nil => exact h.resolve_left (by simp)
  | cons p rest ih =>
    refine ih ?_
    have inserted : Bindings.binds n (Bindings.insert p.lexeme true names) =
        (decide (n = p.lexeme) || Bindings.binds n names) := by
      unfold Bindings.binds
      rw [Bindings.get?_insert]
      split <;> simp_all
    rw [inserted]
    obtain h | h := h
    · rcases List.mem_cons.mp h with rfl | h
      · exact .inr (by simp)
      · exact .inl h
    · exact .inr (by simp [h])

/-- The variables of a body have different names, none of which its uses may mistake. -/
theorem sound_of_addressed {c : Context} {place π : Place} {params : List Token}
    {body : List Stmt} {kind : Option Body} {i : Nat} (words : ∀ t ∈ params, t.IsName)
    (addressed : Stmt.AllAddressed
      { c.enter place (Context.paramNames params []) with body := kind } π i body) :
    LocalBody.Sound ⟨params, body⟩ := by
  have inside : ({ c.enter place (Context.paramNames params []) with body := kind } : Context).scopes
      ≠ [] := List.cons_ne_nil _ _
  intro x hx
  rcases List.mem_append.mp hx with hx | hx
  · obtain ⟨t, ht, rfl⟩ := List.mem_map.mp hx
    refine ⟨words t ht, fun title => ?_⟩
    obtain ⟨s, hs, title⟩ := List.mem_filterMap.mp title
    exact not_declares_of_binds inside (binds_paramNames params (.inl hx)) addressed s hs
      (.inr title)
  · exact variable_of_allAddressed inside addressed hx

/-! ### Every scope of a program -/

mutual

/-- Each scope inside an expression is sound. -/
theorem sound_exprScope {c : Context} {π : Place} {b : LocalBody} :
    (e : Expr) → (path : List Step) → e.Addressed c π → e.scope? path = some b → b.Sound
  | .number _, _, _, h | .string _, _, _, h | .bool _, _, _, h | .nil, _, _, h | .gap, _, _, h
  | .variable _, _, _, h | .this _, _, _, h | .super _ _, _, _, h => by cases h
  -- a path into a part is found in that part, or there is none
  | .assign _ operand, path, addressed, h => by
    unfold Expr.scope? at h
    split at h
    · exact sound_exprScope operand _ addressed.1 h
    · cases h
  | .unary _ operand, path, addressed, h => by
    unfold Expr.scope? at h
    split at h
    · exact sound_exprScope operand _ addressed.1 h
    · cases h
  | .group operand, path, addressed, h | .get operand _, path, addressed, h => by
    unfold Expr.scope? at h
    split at h
    · exact sound_exprScope operand _ addressed h
    · cases h
  | .binary _ left right, path, addressed, h => by
    unfold Expr.scope? at h
    split at h
    · exact sound_exprScope left _ addressed.1 h
    · exact sound_exprScope right _ addressed.2.1 h
    · cases h
  | .logical _ left right, path, addressed, h => by
    unfold Expr.scope? at h
    split at h
    · exact sound_exprScope left _ addressed.1 h
    · exact sound_exprScope right _ addressed.2 h
    · cases h
  | .set object _ value, path, addressed, h => by
    unfold Expr.scope? at h
    split at h
    · exact sound_exprScope object _ addressed.2 h
    · exact sound_exprScope value _ addressed.1 h
    · cases h
  | .call callee _ args, path, addressed, h => by
    unfold Expr.scope? at h
    split at h
    · exact sound_exprScope callee _ addressed.1 h
    · exact sound_exprScopes args _ _ addressed.2 h
    · cases h
  | .lambda _ params body, path, addressed, h => by
    unfold Expr.scope? at h
    split at h
    · cases h
      exact sound_of_addressed addressed.1.1 addressed.2
    · exact sound_stmtScopes body _ _ addressed.2 h
    · cases h

/-- Each scope inside of several expressions is sound. -/
theorem sound_exprScopes {c : Context} {π : Place} {i : Nat} {b : LocalBody} :
    (es : List Expr) → (j : Nat) → (path : List Step) → Expr.AllAddressed c π i es →
      Expr.scopeOf? es j path = some b → b.Sound
  | [], _, _, _, h => by cases h
  | e :: _, 0, path, addressed, h => sound_exprScope e path addressed.1 h
  | _ :: rest, j + 1, path, addressed, h => sound_exprScopes rest j path addressed.2 h

/-- Each scope inside a statement is sound. -/
theorem sound_stmtScope {c : Context} {π : Place} {b : LocalBody} :
    (s : Stmt) → (path : List Step) → s.Addressed c π → s.scope? path = some b → b.Sound
  | .var _ none, _, _, h | .ret _ none, _, _, h | .gap, _, _, h => by cases h
  | .expr e, path, addressed, h | .print e, path, addressed, h => by
    unfold Stmt.scope? at h
    split at h
    · exact sound_exprScope e _ addressed h
    · cases h
  | .ret _ (some e), path, addressed, h => by
    unfold Stmt.scope? at h
    split at h
    · exact sound_exprScope e _ addressed.2 h
    · cases h
  | .var name (some init), path, addressed, h => by
    unfold Stmt.scope? at h
    split at h
    · split at h
      · exact sound_exprScope init _ addressed.2 h
      · cases h
    · cases h
  -- a path that ends here has found the block itself
  | .block body, path, addressed, h => by
    unfold Stmt.scope? at h
    split at h
    · cases h
      exact sound_of_addressed (by simp) addressed
    · exact sound_stmtScopes body _ _ addressed h
    · cases h
  | .cond test yes none, path, addressed, h | .loop test yes, path, addressed, h => by
    unfold Stmt.scope? at h
    split at h
    · exact sound_exprScope test _ addressed.1 h
    · exact sound_stmtScope yes _ addressed.2.1 h
    · cases h
  | .cond test yes (some no), path, addressed, h => by
    unfold Stmt.scope? at h
    split at h
    · exact sound_exprScope test _ addressed.1 h
    · exact sound_stmtScope yes _ addressed.2.1.1 h
    · exact sound_stmtScope no _ addressed.2.2.1 h
    · cases h
  | .function decl, path, addressed, h => sound_functionScope decl path addressed.2.1 h
  | .classDecl _ none methods, path, addressed, h => by
    unfold Stmt.scope? at h
    split at h
    · exact sound_functionScopes methods _ _ addressed.2.1 h
    · cases h
  | .classDecl _ (some _) methods, path, addressed, h => by
    unfold Stmt.scope? at h
    split at h
    · exact sound_functionScopes methods _ _ addressed.2.2.2.1 h
    · cases h

theorem sound_stmtScopes {c : Context} {π : Place} {i : Nat} {b : LocalBody} :
    (body : List Stmt) → (j : Nat) → (path : List Step) → Stmt.AllAddressed c π i body →
      Stmt.scopeOf? body j path = some b → b.Sound
  | [], _, _, _, h => by cases h
  | s :: _, 0, path, addressed, h => sound_stmtScope s path addressed.1 h
  | _ :: rest, j + 1, path, addressed, h => sound_stmtScopes rest j path addressed.2 h

/-- The scope of a function is sound, and each inside it. -/
theorem sound_functionScope {c : Context} {π : Place} {kind : Body} {b : LocalBody} :
    (f : Function) → (path : List Step) → f.Addressed c π kind → f.scope? path = some b → b.Sound
  | ⟨_, params, body⟩, path, addressed, h => by
    unfold Function.scope? at h
    split at h
    · cases h
      exact sound_of_addressed addressed.1.1 addressed.2
    · exact sound_stmtScopes body _ _ addressed.2 h
    · cases h

/-- Each scope inside the methods of a class is sound. -/
theorem sound_functionScopes {c : Context} {π : Place} {i : Nat} {b : LocalBody} :
    (fs : List Function) → (j : Nat) → (path : List Step) → Function.AllAddressed c π i fs →
      Function.scopeOf? fs j path = some b → b.Sound
  | [], _, _, _, h => by cases h
  | f :: _, 0, path, addressed, h => sound_functionScope f path addressed.1 h
  | _ :: rest, j + 1, path, addressed, h => sound_functionScopes rest j path addressed.2 h

end

end Lox
