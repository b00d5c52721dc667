import Lox.Proofs.Scope.Walk

/-!
Addressed programs are what the walk gives: on a program whose addresses are right the walk reports
nothing and changes nothing, and on one with other addresses it finds the right ones.
-/

namespace Lox.Scope

/-- From context `c` the walk goes to context `c'`, gives `a` and reports nothing. -/
def Settles {α : Type} (c : Context) (walk : Walker α) (c' : Context) (a : α) : Prop :=
  ∀ w, Stands c w → Stands c' { w with scopes := c'.names } ∧
    walk w = (a, { w with scopes := c'.names })

section Settles

variable {α β : Type} {c c₁ c₂ : Context} {a : α} {walk : Walker α}

theorem Stands.same {w : Walk} (stands : Stands c w) : { w with scopes := c.names } = w := by
  rw [← stands.scopes]

theorem settles_pure : Settles c (pure a) c a := by
  intro w stands
  rw [stands.same]
  exact ⟨stands, rfl⟩

/-- What the first part settles in, the second starts from. -/
theorem Settles.bind {next : α → Walker β} {b : β} (h : Settles c walk c₁ a)
    (hnext : Settles c₁ (next a) c₂ b) : Settles c (walk >>= next) c₂ b := by
  intro w stands
  obtain ⟨stands₁, run⟩ := h w stands
  obtain ⟨stands₂, run'⟩ := hnext _ stands₁
  refine ⟨stands₂, ?_⟩
  show next (walk w).1 (walk w).2 = _
  rw [run]
  exact run'

theorem Settles.map {f : α → β} (h : Settles c walk c₁ a) :
    Settles c (do return f (← walk)) c₁ (f a) :=
  h.bind settles_pure

theorem Settles.map₂ {γ : Type} {walk' : Walker β} {b : β} {f : α → β → γ}
    (h : Settles c walk c₁ a) (h' : Settles c₁ walk' c₂ b) :
    Settles c (do return f (← walk) (← walk')) c₂ (f a b) :=
  h.bind h'.map

/-- A walk that looks at its state settles if it does so in every state that stands for the context.
-/
theorem settles_get {next : Walk → Walker α} (h : ∀ w, Stands c w → Settles c (next w) c₁ a) :
    Settles c (do next (← get)) c₁ a :=
  fun w stands => h w stands w stands

theorem settles_mark (name : String) (done : Bool) :
    Settles c (markInnermost name done) (c.mark name done) () := by
  intro w stands
  refine ⟨⟨rfl, stands.body.trans Context.mark_body.symm,
    stands.family.trans Context.mark_family.symm⟩, ?_⟩
  rw [Context.names_mark, ← stands.scopes]
  obtain ⟨scopes, _, _, _⟩ := w
  cases scopes <;> rfl

/-- Declaring a name that is new marks it as not ready. -/
theorem settles_declare {name : Token} (new : c.New name) :
    Settles c (declare name) (c.mark name.lexeme false) () := by
  refine settles_get fun w stands => ?_
  have innermost : w.scopes.headD [] = c.innermost := by rw [stands.scopes]; rfl
  rw [innermost, if_neg (by simp [show Bindings.binds name.lexeme c.innermost = false from new])]
  exact settles_pure.bind (settles_mark _ _)

theorem settles_declared {name : Token} (new : c.New name) {next : Walker α}
    (h : Settles (c.mark name.lexeme true) next c₁ a) :
    Settles c (do declare name; define name; next) c₁ a := by
  have defined := settles_mark (c := c.mark name.lexeme false) name.lexeme true
  rw [Context.mark_mark] at defined
  exact (settles_declare new).bind (defined.bind h)

/-- A reference that already says how far its declaration is stays as it is. -/
theorem settles_address {ref : Reference} (refers : c.Refers ref) :
    Settles c (address ref) c ref := by
  refine settles_get fun w stands => ?_
  dsimp only
  rw [stands.scopes, ← show ref.hops = _ from refers]
  exact settles_pure

/-- So does a variable that is not read inside its own initializer. -/
theorem settles_addressVariable {ref : Reference} (reads : c.Reads ref) :
    Settles c (addressVariable ref) c ref := by
  refine Settles.bind (a := ()) (settles_get fun w stands => ?_) (settles_address reads.2)
  have innermost : w.scopes.headD [] = c.innermost := by rw [stands.scopes]; rfl
  rw [innermost, if_neg reads.1]
  exact settles_pure

theorem settles_addressThis {ref : Reference} (inside : c.family ≠ none) (refers : c.Refers ref) :
    Settles c (addressThis ref) c ref := by
  refine settles_get fun w stands => ?_
  have family := stands.family
  split
  · next outside =>
    rw [outside] at family
    exact absurd family.symm inside
  · exact settles_address refers

theorem settles_addressSuper {ref : Reference} (inside : c.family = some .derived)
    (refers : c.Refers ref) : Settles c (addressSuper ref) c ref := by
  refine settles_get fun w stands => ?_
  have family := stands.family.trans inside
  split
  · next outside =>
    rw [outside] at family
    cases family
  · next base =>
    rw [base] at family
    cases family
  · exact settles_address refers

theorem settles_checkReturn {hasValue : Bool} (returns : c.Returns hasValue) (keyword : Token) :
    Settles c (checkReturn keyword hasValue) c () := by
  refine settles_get fun w stands => ?_
  have body := stands.body
  split
  · next outside =>
    rw [outside] at body
    exact absurd body.symm returns.1
  · next initializer =>
    rw [initializer] at body
    rw [if_neg fun value => returns.2 value body.symm]
    exact settles_pure
  · exact settles_pure

theorem settles_checkSuperclass {name : Token} {superclass : Reference}
    (other : superclass.name.lexeme ≠ name.lexeme) :
    Settles c (checkSuperclass name superclass) c () := by
  unfold checkSuperclass
  rw [if_neg other]
  exact settles_pure

/-- Inside a new scope the walk settles in the entered context, and leaves it at the end. -/
theorem settles_within (place : Place) {names : Names}
    (h : Settles (c.enter place names) walk c₁ a) (tail : c₁.scopes.tail = c.scopes) :
    Settles c (within names walk) c a := by
  intro w stands
  have inside : Stands (c.enter place names) { w with scopes := names :: w.scopes } :=
    ⟨by rw [stands.scopes]; rfl, stands.body, stands.family⟩
  obtain ⟨-, run⟩ := h _ inside
  have outer : c₁.names.tail = c.names := by rw [Context.names, ← List.map_tail, tail]; rfl
  refine ⟨⟨rfl, stands.body, stands.family⟩, ?_⟩
  show ((walk { w with scopes := names :: w.scopes }).1,
    { (walk { w with scopes := names :: w.scopes }).2 with
      scopes := (walk { w with scopes := names :: w.scopes }).2.scopes.tail }) = _
  rw [run, ← outer]

theorem settles_withinBody {body : Body}
    (h : Settles { c with body := some body } walk { c with body := some body } a) :
    Settles c (withinBody body walk) c a := by
  intro w stands
  obtain ⟨-, run⟩ := h { w with bodies := body :: w.bodies } ⟨stands.scopes, rfl, stands.family⟩
  refine ⟨⟨rfl, stands.body, stands.family⟩, ?_⟩
  show ((walk { w with bodies := body :: w.bodies }).1,
    { (walk { w with bodies := body :: w.bodies }).2 with
      bodies := (walk { w with bodies := body :: w.bodies }).2.bodies.tail }) = _
  rw [run]
  rfl

theorem settles_withinClass {family : Family}
    (h : Settles { c with family := some family } walk { c with family := some family } a) :
    Settles c (withinClass family walk) c a := by
  intro w stands
  obtain ⟨-, run⟩ := h { w with classes := family :: w.classes } ⟨stands.scopes, stands.body, rfl⟩
  refine ⟨⟨rfl, stands.body, stands.family⟩, ?_⟩
  show ((walk { w with classes := family :: w.classes }).1,
    { (walk { w with classes := family :: w.classes }).2 with
      classes := (walk { w with classes := family :: w.classes }).2.classes.tail }) = _
  rw [run]
  rfl

/-- Parameters with different names are bound in order. -/
theorem settles_bindParams (place : Place) {params : List Token} {names : Names}
    (new : NewParams params names) :
    Settles (c.enter place names) (bindParams params)
      (c.enter place (Context.paramNames params names)) () := by
  induction params generalizing names with
  | nil => exact settles_pure
  | cons p rest ih => exact settles_declared (c := c.enter place names) new.1 (ih new.2)

/-- A function settles if its body does, inside a scope with its parameters. -/
theorem settles_function {π : Place} {kind : Body} {params : List Token} {body : List Stmt}
    (new : NewParams params [])
    (h : Settles (c.function kind π params) (stmts body) (afterAll (c.function kind π params) body)
      body) :
    Settles c (withinBody kind (within [] (do bindParams params; stmts body))) c body :=
  settles_withinBody (settles_within (.body :: π)
    ((settles_bindParams (c := { c with body := some kind }) _ new).bind h)
    (afterAll_kept _ _).2.2)

end Settles

/-! ### What is addressed stays as it is -/

theorem Settles.branch {c : Context} {s : Stmt} (h : Settles c (stmt s) (s.after c) s)
    (shaped : s.isDeclaration = false) : Settles c (stmt s) c s := by
  rwa [after_of_not_declaration shaped] at h

mutual

/-- An expression that is addressed already comes out unchanged and without complaints. -/
theorem settles_expr (c : Context) (π : Place) :
    (e : Expr) → e.Addressed c π → Settles c (expr e) c e
  | .number _, _ | .string _, _ | .bool _, _ | .nil, _ => settles_pure
  | .variable _, addressed => (settles_addressVariable addressed.1).map
  | .assign _ value, addressed =>
    (settles_expr c _ value addressed.1).bind (settles_address addressed.2.1).map
  | .unary _ operand, addressed => (settles_expr c _ operand addressed.1).map
  | .binary _ left right, addressed =>
    (settles_expr c _ left addressed.1).map₂ (settles_expr c _ right addressed.2.1)
  | .logical _ left right, addressed =>
    (settles_expr c _ left addressed.1).map₂ (settles_expr c _ right addressed.2)
  | .group inner, addressed => (settles_expr c _ inner addressed).map
  | .call callee _ args, addressed =>
    (settles_expr c _ callee addressed.1).map₂ (settles_exprs c π 1 args addressed.2)
  | .get object _, addressed => (settles_expr c _ object addressed).map
  | .set object _ value, addressed =>
    (settles_expr c _ value addressed.1).bind (settles_expr c _ object addressed.2).map
  | .this _, addressed => (settles_addressThis addressed.2.1 addressed.2.2).map
  | .super _ _, addressed => (settles_addressSuper addressed.2.1 addressed.2.2).map
  | .lambda _ _ body, addressed =>
    (settles_function addressed.1.2 (settles_stmts _ _ 0 body addressed.2)).map

theorem settles_exprs (c : Context) (π : Place) (i : Nat) :
    (es : List Expr) → Expr.AllAddressed c π i es → Settles c (exprs es) c es
  | [], _ => settles_pure
  | e :: rest, addressed =>
    (settles_expr c _ e addressed.1).map₂ (settles_exprs c π (i + 1) rest addressed.2)

/-- A statement that is addressed already comes out unchanged, and its context is what it leaves. -/
theorem settles_stmt (c : Context) (π : Place) :
    (s : Stmt) → s.Addressed c π → Settles c (stmt s) (s.after c) s
  | .expr e, addressed | .print e, addressed => (settles_expr c _ e addressed).map
  | .var _ none, addressed => settles_declared addressed.2 settles_pure
  | .var name (some init), addressed => by
    -- the two marks of one name leave the second
    have defined := settles_mark (c := c.mark name.lexeme false) name.lexeme true
    rw [Context.mark_mark] at defined
    exact (settles_declare addressed.1.2).bind
      ((settles_expr _ _ init addressed.2).bind (defined.bind settles_pure))
  | .block body, addressed =>
    (settles_within (.block :: π) (settles_stmts _ _ 0 body addressed)
      (afterAll_kept _ _).2.2).map
  | .cond test yes none, addressed =>
    (settles_expr c _ test addressed.1).map₂
      ((settles_stmt c _ yes addressed.2.1).branch addressed.2.2)
  | .cond test yes (some no), addressed =>
    (settles_expr c _ test addressed.1).bind
      (((settles_stmt c _ yes addressed.2.1.1).branch addressed.2.1.2).bind
        (((settles_stmt c _ no addressed.2.2.1).branch addressed.2.2.2).bind settles_pure))
  | .loop test body, addressed =>
    (settles_expr c _ test addressed.1).map₂
      ((settles_stmt c _ body addressed.2.1).branch addressed.2.2)
  | .function decl, addressed =>
    settles_declared addressed.1 (settles_functionDecl _ π .function decl addressed.2.1).map
  | .ret keyword none, addressed => (settles_checkReturn addressed keyword).bind settles_pure
  | .ret keyword (some value), addressed =>
    (settles_checkReturn addressed.1 keyword).bind (settles_expr c _ value addressed.2).map
  | .classDecl _ none methods, addressed => by
    rw [stmt_classDecl_none]
    exact settles_declared addressed.1 (settles_withinClass (settles_within (.this :: π)
      (settles_methods _ _ 0 methods addressed.2.1) rfl)).map
  | .classDecl _ (some _) methods, addressed => by
    rw [stmt_classDecl_some]
    exact settles_declared addressed.1 ((settles_checkSuperclass addressed.2.1).bind
      ((settles_addressVariable addressed.2.2.1).bind
        (settles_withinClass (settles_within (.super :: π) (settles_within (.this :: .super :: π)
          (settles_methods _ _ 0 methods addressed.2.2.2.1) rfl) rfl)).map))

theorem settles_stmts (c : Context) (π : Place) (i : Nat) : (body : List Stmt) →
    Stmt.AllAddressed c π i body → Settles c (stmts body) (afterAll c body) body
  | [], _ => settles_pure
  | s :: rest, addressed =>
    (settles_stmt c _ s addressed.1).map₂ (settles_stmts _ π (i + 1) rest addressed.2)

/-- A function that is addressed already comes out unchanged. -/
theorem settles_functionDecl (c : Context) (π : Place) (kind : Body) : (f : Function) →
    f.Addressed c π kind → Settles c (function kind f) c f
  | ⟨_, _, body⟩, addressed =>
    (settles_function addressed.1.2 (settles_stmts _ _ 0 body addressed.2)).map

theorem settles_methods (c : Context) (π : Place) (i : Nat) : (fs : List Function) →
    Function.AllAddressed c π i fs → Settles c (methods fs) c fs
  | [], _ => settles_pure
  | f :: rest, addressed =>
    (settles_functionDecl c _ (methodBody f) f addressed.1).map₂
      (settles_methods c π (i + 1) rest addressed.2)

end

mutual

/-- The walk overwrites distances, so those written in before make no difference. -/
theorem expr_takeHops : (e : Expr) → (supply : List (Option Int)) →
    expr (e.takeHops supply).1 = expr e
  | .number _, _ | .string _, _ | .bool _, _ | .nil, _ | .gap, _ | .variable _, _ | .this _, _
  | .super _ _, _ => rfl
  | .assign ref value, supply => by
    -- the walk reads the name of the reference, and writes the distance anew
    show expr (.assign (ref.takeHops supply).1 (value.takeHops _).1) = _
    rw [expr, expr, expr_takeHops value]
    rfl
  | .unary op operand, supply => by
    show expr (.unary op (operand.takeHops supply).1) = _
    rw [expr, expr, expr_takeHops operand]
  | .binary op left right, supply => by
    show expr (.binary op (left.takeHops supply).1 (right.takeHops _).1) = _
    rw [expr, expr, expr_takeHops left, expr_takeHops right]
  | .logical op left right, supply => by
    show expr (.logical op (left.takeHops supply).1 (right.takeHops _).1) = _
    rw [expr, expr, expr_takeHops left, expr_takeHops right]
  | .group inner, supply => by
    show expr (.group (inner.takeHops supply).1) = _
    rw [expr, expr, expr_takeHops inner]
  | .call callee paren args, supply => by
    show expr (.call (callee.takeHops supply).1 paren (Expr.allTakeHops args _).1) = _
    rw [expr, expr, expr_takeHops callee, exprs_takeHops args]
  | .get object name, supply => by
    show expr (.get (object.takeHops supply).1 name) = _
    rw [expr, expr, expr_takeHops object]
  | .set object name value, supply => by
    show expr (.set (object.takeHops supply).1 name (value.takeHops _).1) = _
    rw [expr, expr, expr_takeHops object, expr_takeHops value]
  | .lambda keyword params body, supply => by
    show expr (.lambda keyword params (Stmt.allTakeHops body supply).1) = _
    rw [expr, expr, stmts_takeHops body]

theorem exprs_takeHops : (es : List Expr) → (supply : List (Option Int)) →
    exprs (Expr.allTakeHops es supply).1 = exprs es
  | [], _ => rfl
  | e :: rest, supply => by
    show exprs ((e.takeHops supply).1 :: (Expr.allTakeHops rest _).1) = _
    rw [exprs, exprs, expr_takeHops e, exprs_takeHops rest]

/-- Distances that stand in a statement before make no difference. -/
theorem stmt_takeHops : (s : Stmt) → (supply : List (Option Int)) →
    stmt (s.takeHops supply).1 = stmt s
  | .var _ none, _ | .ret _ none, _ | .gap, _ => rfl
  | .expr e, supply => by
    show stmt (.expr (e.takeHops supply).1) = _
    rw [stmt, stmt, expr_takeHops e]
  | .print e, supply => by
    show stmt (.print (e.takeHops supply).1) = _
    rw [stmt, stmt, expr_takeHops e]
  | .var name (some init), supply => by
    show stmt (.var name (some (init.takeHops supply).1)) = _
    rw [stmt, stmt, expr_takeHops init]
  | .block body, supply => by
    show stmt (.block (Stmt.allTakeHops body supply).1) = _
    rw [stmt, stmt, stmts_takeHops body]
  | .cond test yes none, supply => by
    show stmt (.cond (test.takeHops supply).1 (yes.takeHops _).1 none) = _
    rw [stmt, stmt, expr_takeHops test, stmt_takeHops yes]
  | .cond test yes (some no), supply => by
    show stmt (.cond (test.takeHops supply).1 (yes.takeHops _).1 (some (no.takeHops _).1)) = _
    rw [stmt, stmt, expr_takeHops test, stmt_takeHops yes, stmt_takeHops no]
  | .loop test body, supply => by
    show stmt (.loop (test.takeHops supply).1 (body.takeHops _).1) = _
    rw [stmt, stmt, expr_takeHops test, stmt_takeHops body]
  | .function ⟨name, params, body⟩, supply => by
    show stmt (.function (Function.takeHops ⟨name, params, body⟩ supply).1) = _
    rw [stmt, stmt, function_takeHops]
    rfl
  | .ret keyword (some value), supply => by
    show stmt (.ret keyword (some (value.takeHops supply).1)) = _
    rw [stmt, stmt, expr_takeHops value]
  | .classDecl name none members, supply => by
    show stmt (.classDecl name none (Function.allTakeHops members supply).1) = _
    rw [stmt_classDecl_none, stmt_classDecl_none, methods_takeHops members]
  | .classDecl name (some superclass) members, supply => by
    show stmt (.classDecl name (some (superclass.takeHops supply).1)
      (Function.allTakeHops members _).1) = _
    rw [stmt_classDecl_some, stmt_classDecl_some, methods_takeHops members]
    rfl

theorem stmts_takeHops : (body : List Stmt) → (supply : List (Option Int)) →
    stmts (Stmt.allTakeHops body supply).1 = stmts body
  | [], _ => rfl
  | s :: rest, supply => by
    show stmts ((s.takeHops supply).1 :: (Stmt.allTakeHops rest _).1) = _
    rw [stmts, stmts, stmt_takeHops s, stmts_takeHops rest]

/-- Distances that stand in a function before make no difference. -/
theorem function_takeHops {kind : Body} : (f : Function) → (supply : List (Option Int)) →
    function kind (f.takeHops supply).1 = function kind f
  | ⟨name, params, body⟩, supply => by
    show function kind ⟨name, params, (Stmt.allTakeHops body supply).1⟩ = _
    rw [function, function, stmts_takeHops body]

theorem methods_takeHops : (fs : List Function) → (supply : List (Option Int)) →
    methods (Function.allTakeHops fs supply).1 = methods fs
  | [], _ => rfl
  | ⟨name, params, body⟩ :: rest, supply => by
    show methods ((Function.takeHops ⟨name, params, body⟩ supply).1 ::
      (Function.allTakeHops rest _).1) = _
    rw [methods, methods, function_takeHops, methods_takeHops rest]
    rfl

end

end Lox.Scope
