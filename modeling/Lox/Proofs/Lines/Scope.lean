import Lox.Proofs.Lines.Tree
import Lox.Proofs.Scope.Classes

/-!
Addresses on other lines. The walk over a program compares names and never lines: a program that is
moved gets the same addresses, and what is wrong with it is wrong at the tokens that are moved.
-/

namespace Lox.Scope

variable {α β γ δ : Type}

def ScopeError.move (φ : Nat → Nat) (e : ScopeError) : ScopeError :=
  { e with token := e.token.move φ }

def Walk.move (φ : Nat → Nat) (w : Walk) : Walk :=
  { w with errors := w.errors.map (ScopeError.move φ) }

/-- The second walk does on other lines what the first does. -/
structure Moves (φ : Nat → Nat) (f : α → β) (walk : Walker α) (walk' : Walker β) : Prop where
  run : ∀ w, walk' (w.move φ) = (f (walk w).1, (walk w).2.move φ)

section Steps

variable {φ : Nat → Nat} {f : α → β} {g : γ → δ} {walk : Walker α} {walk' : Walker β}

theorem moves_pure {a : α} {b : β} (h : b = f a) : Moves φ f (pure a) (pure b) := by
  subst h
  exact ⟨fun _ => rfl⟩

/-- A walk that looks at its state moves if it does so from every state. -/
theorem moves_get {next : Walk → Walker γ} {next' : Walk → Walker δ}
    (h : ∀ w, Moves φ g (next w) (next' (w.move φ))) :
    Moves φ g (get >>= next) (get >>= next') :=
  ⟨fun w => (h w).run w⟩

theorem moves_modify {change : Walk → Walk} (h : ∀ w, change (w.move φ) = (change w).move φ) :
    Moves φ id (modify change) (modify change) :=
  ⟨fun w => congrArg (Prod.mk ()) (h w)⟩

/-- What the second part is given is what the first gives, moved. -/
theorem Moves.bind {next : α → Walker γ} {next' : β → Walker δ} (h : Moves φ f walk walk')
    (hnext : ∀ a, Moves φ g (next a) (next' (f a))) :
    Moves φ g (walk >>= next) (walk' >>= next') := by
  constructor
  intro w
  change next' (walk' (w.move φ)).1 (walk' (w.move φ)).2 = _
  rw [h.run]
  exact (hnext (walk w).1).run (walk w).2

theorem Moves.map {k : α → γ} {k' : β → δ} (h : Moves φ f walk walk')
    (same : ∀ a, k' (f a) = g (k a)) :
    Moves φ g (do return k (← walk)) (do return k' (← walk')) :=
  h.bind fun a => moves_pure (same a)

/-- A complaint is made at the moved token. -/
theorem moves_report (token : Token) (complaint : Complaint) :
    Moves φ id (report token complaint) (report (token.move φ) complaint) := by
  constructor
  intro w
  change ((), { w.move φ with errors := (w.move φ).errors ++ [⟨token.move φ, complaint⟩] }) =
    ((), Walk.move φ { w with errors := w.errors ++ [⟨token, complaint⟩] })
  simp only [Walk.move, List.map_append, List.map_cons, List.map_nil]
  rfl

theorem moves_mark (name : String) (done : Bool) :
    Moves φ id (markInnermost name done) (markInnermost name done) := by
  refine moves_modify fun w => ?_
  rw [show (w.move φ).scopes = w.scopes from rfl]
  split <;> rfl

/-- A name is declared by its lexeme, so its line does not matter. -/
theorem moves_declare (name : Token) : Moves φ id (declare name) (declare (name.move φ)) := by
  refine moves_get fun w => ?_
  rw [show (w.move φ).scopes = w.scopes from rfl, Token.lexeme_move]
  split
  · exact (moves_report ..).bind fun _ => moves_mark ..
  · exact moves_mark ..

theorem moves_define (name : Token) : Moves φ id (define name) (define (name.move φ)) :=
  moves_mark ..

/-- A distance is found by names, so lines do not matter. -/
theorem moves_address (ref : Reference) :
    Moves φ (Reference.move φ) (address ref) (address (ref.move φ)) :=
  moves_get fun _ => moves_pure rfl

/-- A walk between a change and its undoing. -/
theorem Moves.between {enter leave : Walk → Walk} (h : Moves φ f walk walk')
    (henter : ∀ w, enter (w.move φ) = (enter w).move φ)
    (hleave : ∀ w, leave (w.move φ) = (leave w).move φ) :
    Moves φ f (do modify enter; let a ← walk; modify leave; return a)
      (do modify enter; let a ← walk'; modify leave; return a) := by
  apply (moves_modify henter).bind
  intro _
  apply h.bind
  intro a
  exact (moves_modify hleave).bind fun _ => moves_pure rfl

theorem Moves.within (h : Moves φ f walk walk') (names : Names) :
    Moves φ f (within names walk) (within names walk') :=
  h.between (fun _ => rfl) fun _ => rfl

theorem Moves.withinBody (h : Moves φ f walk walk') (body : Body) :
    Moves φ f (withinBody body walk) (withinBody body walk') :=
  h.between (fun _ => rfl) fun _ => rfl

theorem Moves.withinClass (h : Moves φ f walk walk') (family : Family) :
    Moves φ f (withinClass family walk) (withinClass family walk') :=
  h.between (fun _ => rfl) fun _ => rfl

theorem moves_bindParams (params : List Token) :
    Moves φ id (bindParams params) (bindParams (params.map (Token.move φ))) := by
  induction params with
  | nil => exact moves_pure rfl
  | cons param rest ih =>
    exact ((moves_declare param).bind fun _ => moves_define param).bind fun _ => ih

theorem moves_addressVariable (ref : Reference) :
    Moves φ (Reference.move φ) (addressVariable ref) (addressVariable (ref.move φ)) := by
  have check : Moves φ id (checkRead ref.name) (checkRead (ref.name.move φ)) := by
    refine moves_get fun w => ?_
    rw [show (w.move φ).scopes = w.scopes from rfl, Token.lexeme_move]
    split
    · exact moves_report ..
    · exact moves_pure rfl
  exact check.bind fun _ => moves_address ref

theorem moves_addressThis (ref : Reference) :
    Moves φ (Reference.move φ) (addressThis ref) (addressThis (ref.move φ)) := by
  refine moves_get fun w => ?_
  rw [show (w.move φ).classes = w.classes from rfl]
  split
  · exact (moves_report ..).bind fun _ => moves_pure rfl
  · exact moves_address ref

theorem moves_addressSuper (ref : Reference) :
    Moves φ (Reference.move φ) (addressSuper ref) (addressSuper (ref.move φ)) := by
  refine moves_get fun w => ?_
  rw [show (w.move φ).classes = w.classes from rfl]
  split
  · exact (moves_report ..).bind fun _ => moves_pure rfl
  · exact (moves_report ..).bind fun _ => moves_pure rfl
  · exact moves_address ref

theorem moves_checkReturn (keyword : Token) (hasValue : Bool) :
    Moves φ id (checkReturn keyword hasValue) (checkReturn (keyword.move φ) hasValue) := by
  refine moves_get fun w => ?_
  rw [show (w.move φ).bodies = w.bodies from rfl]
  split
  · exact moves_report ..
  · split
    · exact moves_report ..
    · exact moves_pure rfl
  · exact moves_pure rfl

theorem moves_checkSuperclass (name : Token) (superclass : Reference) :
    Moves φ id (checkSuperclass name superclass)
      (checkSuperclass (name.move φ) (superclass.move φ)) := by
  unfold checkSuperclass
  rw [Reference.name_move, Token.lexeme_move, Token.lexeme_move]
  split
  · exact moves_report ..
  · exact moves_pure rfl

end Steps

/-! ### The walk -/

/-- Parameters and body of a function. -/
theorem moves_body {φ : Nat → Nat} {body : List Stmt}
    (h : Moves φ (Stmt.moveAll φ) (stmts body) (stmts (Stmt.moveAll φ body))) (kind : Body)
    (params : List Token) :
    Moves φ (Stmt.moveAll φ)
      (withinBody kind (within [] (do bindParams params; stmts body)))
      (withinBody kind (within [] (do
        bindParams (params.map (Token.move φ)); stmts (Stmt.moveAll φ body)))) :=
  (((moves_bindParams params).bind fun _ => h).within []).withinBody kind

mutual

/-- An expression with moved lines is given the same distances. -/
theorem moves_expr (φ : Nat → Nat) : (e : Expr) →
    Moves φ (Expr.move φ) (expr e) (expr (e.move φ))
  | .number _ | .string _ | .bool _ | .nil | .gap => moves_pure rfl
  | .variable ref => (moves_addressVariable ref).map fun _ => rfl
  | .assign ref value =>
    (moves_expr φ value).bind fun _ => (moves_address ref).map fun _ => rfl
  | .unary _ operand => (moves_expr φ operand).map fun _ => rfl
  | .binary _ left right | .logical _ left right =>
    (moves_expr φ left).bind fun _ => (moves_expr φ right).map fun _ => rfl
  | .group inner => (moves_expr φ inner).map fun _ => rfl
  | .call callee _ args =>
    (moves_expr φ callee).bind fun _ => (moves_exprs φ args).map fun _ => rfl
  | .get object _ => (moves_expr φ object).map fun _ => rfl
  | .set object _ value =>
    (moves_expr φ value).bind fun _ => (moves_expr φ object).map fun _ => rfl
  | .this ref => (moves_addressThis ref).map fun _ => rfl
  | .super ref _ => (moves_addressSuper ref).map fun _ => rfl
  | .lambda _ params body =>
    (moves_body (moves_stmts φ body) .function params).map fun _ => rfl

theorem moves_exprs (φ : Nat → Nat) : (es : List Expr) →
    Moves φ (Expr.moveAll φ) (exprs es) (exprs (Expr.moveAll φ es))
  | [] => moves_pure rfl
  | e :: rest => (moves_expr φ e).bind fun _ => (moves_exprs φ rest).map fun _ => rfl

/-- A statement with moved lines is given the same distances. -/
theorem moves_stmt (φ : Nat → Nat) : (s : Stmt) →
    Moves φ (Stmt.move φ) (stmt s) (stmt (s.move φ))
  | .expr e | .print e => (moves_expr φ e).map fun _ => rfl
  | .var name none =>
    (moves_declare name).bind fun _ => (moves_define name).bind fun _ => moves_pure rfl
  | .var name (some init) =>
    (moves_declare name).bind fun _ => (moves_expr φ init).bind fun _ =>
      (moves_define name).bind fun _ => moves_pure rfl
  | .block body => ((moves_stmts φ body).within []).map fun _ => rfl
  | .cond test yes none =>
    (moves_expr φ test).bind fun _ => (moves_stmt φ yes).map fun _ => rfl
  | .cond test yes (some no) =>
    (moves_expr φ test).bind fun _ => (moves_stmt φ yes).bind fun _ =>
      (moves_stmt φ no).map fun _ => rfl
  | .loop test body => (moves_expr φ test).bind fun _ => (moves_stmt φ body).map fun _ => rfl
  | .function ⟨name, params, body⟩ =>
    (moves_declare name).bind fun _ => (moves_define name).bind fun _ =>
      (moves_function φ .function ⟨name, params, body⟩).map fun _ => rfl
  | .ret keyword none => (moves_checkReturn keyword false).bind fun _ => moves_pure rfl
  | .ret keyword (some value) =>
    (moves_checkReturn keyword true).bind fun _ => (moves_expr φ value).map fun _ => rfl
  | .classDecl name none members => by
    show Moves φ _ _ (stmt (.classDecl (name.move φ) none (Function.moveAll φ members)))
    rw [stmt_classDecl_none, stmt_classDecl_none]
    exact (moves_declare name).bind fun _ => (moves_define name).bind fun _ =>
      (((moves_methods φ members).within _).withinClass .base).map fun _ => rfl
  | .classDecl name (some superclass) members => by
    show Moves φ _ _ (stmt (.classDecl (name.move φ) (some (superclass.move φ))
      (Function.moveAll φ members)))
    rw [stmt_classDecl_some, stmt_classDecl_some]
    exact (moves_declare name).bind fun _ => (moves_define name).bind fun _ =>
      (moves_checkSuperclass name superclass).bind fun _ =>
        (moves_addressVariable superclass).bind fun _ =>
          ((((moves_methods φ members).within _).within _).withinClass .derived).map fun _ => rfl
  | .gap => moves_pure rfl

theorem moves_stmts (φ : Nat → Nat) : (body : List Stmt) →
    Moves φ (Stmt.moveAll φ) (stmts body) (stmts (Stmt.moveAll φ body))
  | [] => moves_pure rfl
  | s :: rest => (moves_stmt φ s).bind fun _ => (moves_stmts φ rest).map fun _ => rfl

/-- A function with moved lines is given the same distances. -/
theorem moves_function (φ : Nat → Nat) (kind : Body) : (f : Function) →
    Moves φ (Function.move φ) (function kind f) (function kind (f.move φ))
  | ⟨_, params, body⟩ => (moves_body (moves_stmts φ body) kind params).map fun _ => rfl

theorem moves_methods (φ : Nat → Nat) : (fs : List Function) →
    Moves φ (Function.moveAll φ) (methods fs) (methods (Function.moveAll φ fs))
  | [] => moves_pure rfl
  | ⟨name, params, body⟩ :: rest =>
    (moves_function φ _ ⟨name, params, body⟩).bind fun _ =>
      (moves_methods φ rest).map fun _ => rfl

end

end Lox.Scope
