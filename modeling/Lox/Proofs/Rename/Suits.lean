import Lox.Proofs.Rename.Scopes

/-!
When another name suits a program: where it would stand nothing has it already, and no function or
class has the name of the variable. A name that is new to an addressed program suits every variable
of it, and every name suits a program that does not touch the scope.
-/

namespace Lox.Scope.Renaming

/-- Both names are names and no keywords. -/
structure Proper (r : Renaming) : Prop where
  old : Token.Kind.ofWord r.old = .identifier
  new : Token.Kind.ofWord r.new = .identifier

/-- What a class binds for its methods is no name. -/
theorem Proper.swap_keyword {r : Renaming} (proper : r.Proper) {keyword : String}
    (h : Token.Kind.ofWord keyword ≠ .identifier) (b : Bool) : r.swap b keyword = keyword := by
  refine swap_of_ne ?_ ?_ b
  · rintro rfl
    exact h proper.old
  · rintro rfl
    exact h proper.new

/-- In the scope, a variable does not have the new name. -/
def Admits (r : Renaming) (π : Place) (t : Token) : Prop := r.holds π = true → t.lexeme ≠ r.new

/-- In the scope, a function or class has neither name. -/
def Spares (r : Renaming) (π : Place) (t : Token) : Prop :=
  r.holds π = true → t.lexeme ≠ r.old ∧ t.lexeme ≠ r.new

/-- A use that leads to the scope does not have the new name. -/
def Leaves (r : Renaming) (π : Place) (ref : Reference) : Prop :=
  r.reaches π ref.hops = true → ref.name.lexeme ≠ r.new

end Lox.Scope.Renaming

namespace Lox

open Scope

mutual

/-- In the scope the new name stands for nothing, and the old one for a variable. -/
def Expr.Suits (r : Renaming) (π : Place) : Expr → Prop
  | .number _ | .string _ | .bool _ | .nil | .gap | .super _ _ => True
  | .variable ref => r.Leaves π ref
  | .this ref => r.reaches π ref.hops = true → ref.name.lexeme = "this"
  | .assign ref value => r.Leaves π ref ∧ value.Suits r (.part 0 :: π)
  | .unary _ operand | .group operand | .get operand _ => operand.Suits r (.part 0 :: π)
  | .binary _ left right | .logical _ left right | .set left _ right =>
    left.Suits r (.part 0 :: π) ∧ right.Suits r (.part 1 :: π)
  | .call callee _ args => callee.Suits r (.part 0 :: π) ∧ Expr.AllSuit r π 1 args
  | .lambda _ params body =>
    (∀ t ∈ params, r.Admits (.body :: π) t) ∧ Stmt.AllSuit r (.body :: π) 0 body

def Expr.AllSuit (r : Renaming) (π : Place) (i : Nat) : List Expr → Prop
  | [] => True
  | e :: rest => e.Suits r (.part i :: π) ∧ Expr.AllSuit r π (i + 1) rest

def Stmt.Suits (r : Renaming) (π : Place) : Stmt → Prop
  | .expr e | .print e | .ret _ (some e) => e.Suits r (.part 0 :: π)
  | .var name none => r.Admits π name
  | .var name (some init) =>
    r.Admits π name ∧ init.Suits r (.initializer name.lexeme :: π)
  | .block body => Stmt.AllSuit r (.block :: π) 0 body
  | .cond test yes none | .loop test yes =>
    test.Suits r (.part 0 :: π) ∧ yes.Suits r (.part 1 :: π)
  | .cond test yes (some no) =>
    test.Suits r (.part 0 :: π) ∧ yes.Suits r (.part 1 :: π) ∧ no.Suits r (.part 2 :: π)
  | .function decl => r.Spares π decl.name ∧ decl.Suits r π
  | .ret _ none | .gap => True
  | .classDecl name none methods =>
    r.Spares π name ∧ Function.AllSuit r (.this :: π) 0 methods
  | .classDecl name (some superclass) methods =>
    r.Spares π name ∧ r.Leaves π superclass ∧
      Function.AllSuit r (.this :: .super :: π) 0 methods

def Stmt.AllSuit (r : Renaming) (π : Place) (i : Nat) : List Stmt → Prop
  | [] => True
  | s :: rest => s.Suits r (.part i :: π) ∧ Stmt.AllSuit r π (i + 1) rest

def Function.Suits (r : Renaming) (π : Place) : Function → Prop
  | ⟨_, params, body⟩ =>
    (∀ t ∈ params, r.Admits (.body :: π) t) ∧ Stmt.AllSuit r (.body :: π) 0 body

def Function.AllSuit (r : Renaming) (π : Place) (i : Nat) : List Function → Prop
  | [] => True
  | f :: rest => f.Suits r (.part i :: π) ∧ Function.AllSuit r π (i + 1) rest

end

/-! ### New names suit -/

/-- If the scope lies at the end of a path from the place, it has no function or class of the old
name. -/
def Clear (r : Renaming) (π : Place) (find : List Step → Option LocalBody) : Prop :=
  ∀ path b, r.scope = path.reverse ++ π → find path = some b → r.old ∉ b.titles

/-- The same for parts that are found by their numbers, from `i` on. -/
def ClearAll (r : Renaming) (π : Place) (i : Nat)
    (find : Nat → List Step → Option LocalBody) : Prop :=
  ∀ j, Clear r (.part (i + j) :: π) (find j)

section Clear

variable {r : Renaming} {π : Place} {find : List Step → Option LocalBody}

/-- What is clear is clear inside, one step on. -/
theorem Clear.step (h : Clear r π find) {step : Step} {find' : List Step → Option LocalBody}
    (same : ∀ path, find (step :: path) = find' path) : Clear r (step :: π) find' := by
  intro path b scope found
  refine h (step :: path) b ?_ ((same path).trans found)
  rw [scope, List.reverse_cons, List.append_assoc]
  rfl

/-- What is clear for several parts is clear for all but the first. -/
theorem ClearAll.tail {i : Nat} {find find' : Nat → List Step → Option LocalBody}
    (h : ClearAll r π i find) (same : ∀ j, find (j + 1) = find' j) : ClearAll r π (i + 1) find' := by
  intro j
  rw [← same j, Nat.add_right_comm]
  exact h (j + 1)

/-- In a scope itself. -/
theorem Clear.titles {step : Step} (h : Clear r π find) (opens : step.opens = true)
    {params : List Token} {body : List Stmt} (found : find [step] = some ⟨params, body⟩)
    (holds : r.holds (step :: π) = true) : r.old ∉ body.filterMap Stmt.title? := by
  refine h [step] ⟨params, body⟩ ?_ found
  rw [Renaming.holds, enclosing, if_pos opens] at holds
  exact (Option.some.inj (of_decide_eq_true holds)).symm

end Clear

section Fresh

variable {r : Renaming}

/-- What is no declaration has no title. -/
theorem title?_of_not_declaration {s : Stmt} (h : s.isDeclaration = false) : s.title? = none := by
  cases s with
  | function | classDecl => cases h
  | _ => rfl

/-- No parameter has the new name. -/
theorem fresh_params {params : List Token} (h : r.new ∉ params.map (·.lexeme)) :
    ∀ t ∈ params, t.lexeme ≠ r.new :=
  fun t ht same => h (List.mem_map.mpr ⟨t, ht, same⟩)

/-- A name is spared if it is not the new one, and not the old one in the scope. -/
theorem spares_of_fresh {π : Place} {t : Token} (fresh : r.new ≠ t.lexeme)
    (other : r.holds π = true → some t.lexeme ≠ some r.old) : r.Spares π t :=
  fun holds => ⟨fun same => other holds (congrArg some same), fresh.symm⟩

mutual

/-- A fresh name suits an expression in which the old one is nothing but the variable. -/
theorem suits_expr {c : Context} : (e : Expr) → (π : Place) → e.Addressed c π → r.new ∉ e.names →
    Clear r π e.scope? → e.Suits r π
  | .number _, _, _, _, _ | .string _, _, _, _, _ | .bool _, _, _, _, _ | .nil, _, _, _, _
  -- a property and a keyword are not names of variables, so there is nothing to ask
  | .super _ _, _, _, _, _ => trivial
  | .variable ref, _, _, fresh, _ => by
    simp only [Expr.names, List.mem_singleton] at fresh
    exact fun _ => Ne.symm fresh
  | .this ref, _, addressed, _, _ => fun _ => addressed.1
  | .assign ref value, π, addressed, fresh, clear => by
    simp only [Expr.names, List.mem_cons, not_or] at fresh
    exact ⟨fun _ => Ne.symm fresh.1,
      suits_expr value _ addressed.1 fresh.2 (clear.step fun _ => rfl)⟩
  | .unary _ operand, π, addressed, fresh, clear =>
    suits_expr operand _ addressed.1 fresh (clear.step fun _ => rfl)
  | .group operand, π, addressed, fresh, clear | .get operand _, π, addressed, fresh, clear =>
    suits_expr operand _ addressed fresh (clear.step fun _ => rfl)
  | .binary _ left right, π, addressed, fresh, clear => by
    simp only [Expr.names, List.mem_append, not_or] at fresh
    exact ⟨suits_expr left _ addressed.1 fresh.1 (clear.step fun _ => rfl),
      suits_expr right _ addressed.2.1 fresh.2 (clear.step fun _ => rfl)⟩
  | .logical _ left right, π, addressed, fresh, clear => by
    simp only [Expr.names, List.mem_append, not_or] at fresh
    exact ⟨suits_expr left _ addressed.1 fresh.1 (clear.step fun _ => rfl),
      suits_expr right _ addressed.2 fresh.2 (clear.step fun _ => rfl)⟩
  | .set object _ value, π, addressed, fresh, clear => by
    simp only [Expr.names, List.mem_append, not_or] at fresh
    exact ⟨suits_expr object _ addressed.2 fresh.1 (clear.step fun _ => rfl),
      suits_expr value _ addressed.1 fresh.2 (clear.step fun _ => rfl)⟩
  | .call callee _ args, π, addressed, fresh, clear => by
    simp only [Expr.names, List.mem_append, not_or] at fresh
    refine ⟨suits_expr callee _ addressed.1 fresh.1 (clear.step fun _ => rfl),
      suits_exprs args π 1 addressed.2 fresh.2 fun j => clear.step fun _ => ?_⟩
    rw [Nat.add_comm]
    rfl
  -- here the scope may be the renamed one: then its declarations decide
  | .lambda _ params body, π, addressed, fresh, clear => by
    simp only [Expr.names, List.mem_append, not_or] at fresh
    refine ⟨fun t ht _ => fresh_params fresh.1 t ht,
      suits_stmts body _ 0 addressed.2 fresh.2 (fun j => ?_) (clear.titles rfl rfl)⟩
    rw [Nat.zero_add]
    exact (clear.step fun _ => rfl).step fun _ => rfl

/-- A fresh name suits several expressions. -/
theorem suits_exprs {c : Context} : (es : List Expr) → (π : Place) → (i : Nat) →
    Expr.AllAddressed c π i es → r.new ∉ Expr.allNames es →
      ClearAll r π i (Expr.scopeOf? es) → Expr.AllSuit r π i es
  | [], _, _, _, _, _ => trivial
  | e :: rest, π, i, addressed, fresh, clear => by
    simp only [Expr.allNames, List.mem_append, not_or] at fresh
    exact ⟨suits_expr e _ addressed.1 fresh.1 (clear 0),
      suits_exprs rest π (i + 1) addressed.2 fresh.2 (clear.tail fun _ => rfl)⟩

/-- A fresh name suits a statement that does not declare something else under the old one. -/
theorem suits_stmt {c : Context} : (s : Stmt) → (π : Place) → s.Addressed c π → r.new ∉ s.names →
    Clear r π s.scope? → (r.holds π = true → s.title? ≠ some r.old) → s.Suits r π
  | .ret _ none, _, _, _, _, _ => trivial
  | .expr e, π, addressed, fresh, clear, _ | .print e, π, addressed, fresh, clear, _ =>
    suits_expr e _ addressed fresh (clear.step fun _ => rfl)
  | .ret _ (some e), π, addressed, fresh, clear, _ =>
    suits_expr e _ addressed.2 fresh (clear.step fun _ => rfl)
  | .var name none, _, _, fresh, _, _ => by
    simp only [Stmt.names, List.mem_singleton] at fresh
    exact fun _ => Ne.symm fresh
  | .var name (some init), π, addressed, fresh, clear, _ => by
    simp only [Stmt.names, List.mem_cons, not_or] at fresh
    exact ⟨fun _ => Ne.symm fresh.1,
      suits_expr init _ addressed.2 fresh.2 (clear.step fun _ => if_pos rfl)⟩
  | .block body, π, addressed, fresh, clear, _ => by
    refine suits_stmts body _ 0 addressed fresh (fun j => ?_) (clear.titles rfl rfl)
    rw [Nat.zero_add]
    exact (clear.step fun _ => rfl).step fun _ => rfl
  -- a branch is no declaration, so nothing is declared there
  | .cond test yes none, π, addressed, fresh, clear, _
  | .loop test yes, π, addressed, fresh, clear, _ => by
    simp only [Stmt.names, List.mem_append, not_or] at fresh
    refine ⟨suits_expr test _ addressed.1 fresh.1 (clear.step fun _ => rfl),
      suits_stmt yes _ addressed.2.1 fresh.2 (clear.step fun _ => rfl) fun _ => ?_⟩
    rw [title?_of_not_declaration addressed.2.2]
    exact nofun
  | .cond test yes (some no), π, addressed, fresh, clear, _ => by
    simp only [Stmt.names, List.mem_append, not_or] at fresh
    refine ⟨suits_expr test _ addressed.1 fresh.1 (clear.step fun _ => rfl),
      suits_stmt yes _ addressed.2.1.1 fresh.2.1 (clear.step fun _ => rfl) fun _ => ?_,
      suits_stmt no _ addressed.2.2.1 fresh.2.2 (clear.step fun _ => rfl) fun _ => ?_⟩
    · rw [title?_of_not_declaration addressed.2.1.2]
      exact nofun
    · rw [title?_of_not_declaration addressed.2.2.2]
      exact nofun
  | .function decl, π, addressed, fresh, clear, other => by
    simp only [Stmt.names, List.mem_cons, not_or] at fresh
    exact ⟨spares_of_fresh fresh.1 other,
      suits_function decl π addressed.2.1 fresh.2 clear⟩
  | .classDecl name none methods, π, addressed, fresh, clear, other => by
    simp only [Stmt.names, List.mem_cons, not_or] at fresh
    refine ⟨spares_of_fresh fresh.1 other,
      suits_functions methods _ 0 addressed.2.1 fresh.2 fun j => ?_⟩
    rw [Nat.zero_add]
    exact (clear.step fun _ => rfl).step fun _ => rfl
  | .classDecl name (some superclass) methods, π, addressed, fresh, clear, other => by
    simp only [Stmt.names, List.mem_cons, not_or] at fresh
    refine ⟨spares_of_fresh fresh.1 other,
      fun _ => Ne.symm fresh.2.1, suits_functions methods _ 0 addressed.2.2.2.1 fresh.2.2
        fun j => ?_⟩
    rw [Nat.zero_add]
    exact ((clear.step fun _ => rfl).step fun _ => rfl).step fun _ => rfl

theorem suits_stmts {c : Context} : (body : List Stmt) → (π : Place) → (i : Nat) →
    Stmt.AllAddressed c π i body → r.new ∉ Stmt.allNames body →
      ClearAll r π i (Stmt.scopeOf? body) →
        (r.holds π = true → r.old ∉ body.filterMap Stmt.title?) → Stmt.AllSuit r π i body
  | [], _, _, _, _, _, _ => trivial
  | s :: rest, π, i, addressed, fresh, clear, other => by
    simp only [Stmt.allNames, List.mem_append, not_or] at fresh
    refine ⟨suits_stmt s _ addressed.1 fresh.1 (clear 0) fun holds title => ?_,
      suits_stmts rest π (i + 1) addressed.2 fresh.2 (clear.tail fun _ => rfl) fun holds title => ?_⟩
    · exact other holds (List.mem_filterMap.mpr ⟨s, List.mem_cons_self, title⟩)
    · obtain ⟨t, ht, title⟩ := List.mem_filterMap.mp title
      exact other holds (List.mem_filterMap.mpr ⟨t, List.mem_cons_of_mem _ ht, title⟩)

/-- A fresh name suits a function. -/
theorem suits_function {c : Context} {kind : Body} : (f : Function) → (π : Place) →
    f.Addressed c π kind → r.new ∉ f.names → Clear r π f.scope? → f.Suits r π
  | ⟨_, params, body⟩, π, addressed, fresh, clear => by
    simp only [Function.names, List.mem_append, not_or] at fresh
    refine ⟨fun t ht _ => fresh_params fresh.1 t ht,
      suits_stmts body _ 0 addressed.2 fresh.2 (fun j => ?_) (clear.titles rfl rfl)⟩
    rw [Nat.zero_add]
    exact (clear.step fun _ => rfl).step fun _ => rfl

theorem suits_functions {c : Context} : (fs : List Function) → (π : Place) → (i : Nat) →
    Function.AllAddressed c π i fs → r.new ∉ Function.allNames fs →
      ClearAll r π i (Function.scopeOf? fs) → Function.AllSuit r π i fs
  | [], _, _, _, _, _ => trivial
  | f :: rest, π, i, addressed, fresh, clear => by
    simp only [Function.allNames, List.mem_append, not_or] at fresh
    exact ⟨suits_function f _ addressed.1 fresh.1 (clear 0),
      suits_functions rest π (i + 1) addressed.2 fresh.2 (clear.tail fun _ => rfl)⟩

end

end Fresh

/-! ### In a program -/

variable {p : Program} {r : Renaming}

end Lox
