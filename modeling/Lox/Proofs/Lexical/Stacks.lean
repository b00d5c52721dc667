import Lox.Proofs.Lexical.Spot
import Lox.Proofs.Scope.Walk

/-!
The stacks of a walk. Whatever it walks through, and whatever is wrong there, a walk leaves every
scope, body and class that it enters. Where it stands afterwards differs from where it stood in what
was declared directly in the innermost scope, and in nothing else. So nothing is left after a
program, and a walk that is used again finds what a fresh one finds.
-/

namespace Lox.Scope

variable {α β : Type}

/-! ### What is left of a part -/

/-- The scope is the one before with the names in it, each with its value. -/
def Gains (names : List String) (before after : Names) : Prop :=
  ∀ name, Bindings.get? name after =
    if name ∈ names then some true else Bindings.get? name before

/-- The walk stands where it stood, except that the innermost scope has the names too. -/
structure Restores (names : List String) (before after : Walk) : Prop where
  bodies : after.bodies = before.bodies
  classes : after.classes = before.classes
  depth : after.scopes.length = before.scopes.length
  /-- The scopes around the innermost are as they were. -/
  around : after.scopes.tail = before.scopes.tail
  innermost : ∀ scope ∈ before.scopes.head?, ∃ scope' ∈ after.scopes.head?, Gains names scope scope'

/-- Puts names with their values into a scope. -/
def putAll (names : List String) (scope : Names) : Names :=
  names.foldl (fun scope name => Bindings.insert name true scope) scope

/-- Names that are put one after the other are put together. -/
theorem putAll_append (names more : List String) :
    putAll (names ++ more) = putAll more ∘ putAll names := by
  funext scope
  exact List.foldl_append

/-- Names that are put are gained, and the others are as they were. -/
theorem gains_putAll (names : List String) (scope : Names) :
    Gains names scope (putAll names scope) := by
  induction names generalizing scope with
  | nil =>
    intro name
    rw [if_neg List.not_mem_nil]
    rfl
  | cons first rest ih =>
    intro name
    have later := ih (Bindings.insert first true scope) name
    rw [Bindings.get?_insert] at later
    refine later.trans ?_
    by_cases hrest : name ∈ rest
    · rw [if_pos hrest, if_pos (List.mem_cons_of_mem first hrest)]
    · by_cases hfirst : name = first
      · rw [if_neg hrest, if_pos hfirst, if_pos (List.mem_cons.mpr (.inl hfirst))]
      · rw [if_neg hrest, if_neg hfirst, if_neg (List.not_mem_cons_of_ne_of_not_mem hfirst hrest)]

/-- Changes the innermost scope, if there is one. -/
def changeInnermost (change : Names → Names) : List Names → List Names
  | [] => []
  | names :: rest => change names :: rest

theorem changeInnermost_id (scopes : List Names) : changeInnermost id scopes = scopes := by
  cases scopes <;> rfl

/-- Two changes of the innermost scope are one. -/
theorem changeInnermost_comp (f g : Names → Names) (scopes : List Names) :
    changeInnermost (g ∘ f) scopes = changeInnermost g (changeInnermost f scopes) := by
  cases scopes <;> rfl

/-- From everywhere the walk comes back to where it stood, with the innermost scope changed as said.
-/
def Changes (change : Names → Names) (walk : Walker α) : Prop :=
  ∀ w, ∃ found, (walk w).2 =
    { w with scopes := changeInnermost change w.scopes, errors := w.errors ++ found }

section Changes

variable {f g : Names → Names} {walk : Walker α}

/-- What changes only the innermost scope restores the stacks. -/
theorem Changes.restores {names : List String} (h : Changes (putAll names) walk) (w : Walk) :
    Restores names w (walk w).2 := by
  obtain ⟨found, left⟩ := h w
  rw [left]
  obtain ⟨scopes, bodies, classes, errors⟩ := w
  cases scopes with
  | nil => exact ⟨rfl, rfl, rfl, rfl, by simp⟩
  | cons scope rest =>
    refine ⟨rfl, rfl, rfl, rfl, ?_⟩
    rintro _ ⟨⟩
    exact ⟨_, rfl, gains_putAll names scope⟩

/-- A part that changes no scope leaves the walk where it stood. -/
theorem Changes.left (h : Changes id walk) (w : Walk) :
    (walk w).2 = { w with errors := (walk w).2.errors } := by
  obtain ⟨found, left⟩ := h w
  rw [left, changeInnermost_id]

theorem changes_pure (a : α) : Changes id (pure a : Walker α) := by
  intro w
  refine ⟨[], ?_⟩
  rw [changeInnermost_id, List.append_nil]
  rfl

/-- Two walks change what both change. -/
theorem Changes.bind {next : α → Walker β} (h : Changes f walk) (later : ∀ a, Changes g (next a)) :
    Changes (g ∘ f) (walk >>= next) := by
  intro w
  obtain ⟨found, left⟩ := h w
  obtain ⟨more, left'⟩ := later (walk w).1 (walk w).2
  refine ⟨found ++ more, ?_⟩
  show (next (walk w).1 (walk w).2).2 = _
  rw [left', left, changeInnermost_comp, List.append_assoc]

/-- What is made of a result changes nothing. -/
theorem Changes.map {h : α → β} (changes : Changes f walk) : Changes f (do return h (← walk)) :=
  changes.bind fun a => changes_pure (h a)

/-- To look at the stacks changes nothing. -/
theorem changes_get {next : Walk → Walker α} (h : ∀ w, Changes f (next w)) :
    Changes f (do next (← get)) :=
  fun w => h w w

/-! ### Steps of the walk -/

/-- To report an error changes no stack. -/
theorem changes_report (token : Token) (complaint : Complaint) :
    Changes id (report token complaint) := by
  intro w
  refine ⟨[⟨token, complaint⟩], ?_⟩
  rw [changeInnermost_id]
  rfl

/-- A complaint, and an answer in spite of it. -/
theorem changes_refusal (token : Token) (complaint : Complaint) (a : α) :
    Changes id (do report token complaint; return a) :=
  (changes_report token complaint).bind fun _ => changes_pure a

/-- A name is marked in the innermost scope. -/
theorem changes_mark (name : String) (done : Bool) :
    Changes (Bindings.insert name done) (markInnermost name done) := by
  intro w
  refine ⟨[], ?_⟩
  rw [List.append_nil]
  obtain ⟨scopes, bodies, classes, errors⟩ := w
  cases scopes <;> rfl

/-- A name that is declared is there, and not yet defined. -/
theorem changes_declare (name : Token) :
    Changes (Bindings.insert name.lexeme false) (declare name) := by
  have marked := changes_mark name.lexeme false
  refine changes_get fun w => ?_
  split
  · exact (changes_report name .alreadyDeclared).bind fun _ => marked
  · exact (changes_pure PUnit.unit).bind fun _ => marked

/-- A name that is defined is there for use. -/
theorem changes_define (name : Token) : Changes (Bindings.insert name.lexeme true) (define name) :=
  changes_mark name.lexeme true

/-- Between its declaration and its definition a name stands without its value; afterwards it does
not matter that it did. -/
theorem insert_comp_insert (name : String) :
    Bindings.insert name true ∘ Bindings.insert name false = putAll [name] := by
  funext scope
  exact insert_insert name false true scope

/-- A name is declared, defined, and then the rest goes on. -/
theorem changes_declared (name : Token) {next : Walker α} (h : Changes f next) :
    Changes (f ∘ putAll [name.lexeme]) (do declare name; define name; next) := by
  rw [← insert_comp_insert]
  exact (changes_declare name).bind fun _ => (changes_define name).bind fun _ => h

/-- Parameters are put into the innermost scope. -/
theorem changes_bindParams (params : List Token) :
    Changes (putAll (params.map (·.lexeme))) (bindParams params) := by
  induction params with
  | nil => exact changes_pure _
  | cons p rest ih => exact changes_declared p ih

/-- To look for an address changes no stack. -/
theorem changes_address (ref : Reference) : Changes id (address ref) :=
  changes_get fun _ => changes_pure _

/-- To look for the address of a variable changes no stack. -/
theorem changes_addressVariable (ref : Reference) : Changes id (addressVariable ref) := by
  have check : Changes id (checkRead ref.name) := by
    refine changes_get fun w => ?_
    split
    · exact changes_report _ _
    · exact changes_pure _
  exact check.bind fun _ => changes_address ref

/-- To look for `this` changes no stack. -/
theorem changes_addressThis (ref : Reference) : Changes id (addressThis ref) := by
  refine changes_get fun w => ?_
  split
  · exact changes_refusal _ _ _
  · exact changes_address ref

/-- To look for `super` changes no stack. -/
theorem changes_addressSuper (ref : Reference) : Changes id (addressSuper ref) := by
  refine changes_get fun w => ?_
  split
  · exact changes_refusal _ _ _
  · exact changes_refusal _ _ _
  · exact changes_address ref

/-- To check a return changes no stack. -/
theorem changes_checkReturn (keyword : Token) (hasValue : Bool) :
    Changes id (checkReturn keyword hasValue) := by
  refine changes_get fun w => ?_
  split
  · exact changes_report _ _
  · split
    · exact changes_report _ _
    · exact changes_pure _
  · exact changes_pure _

/-- To check a superclass changes no stack. -/
theorem changes_checkSuperclass (name : Token) (superclass : Reference) :
    Changes id (checkSuperclass name superclass) := by
  unfold checkSuperclass
  split
  · exact changes_report _ _
  · exact changes_pure _

/-- What is declared in a scope is gone with it. -/
theorem Changes.within (names : Names) (h : Changes f walk) : Changes id (within names walk) := by
  intro w
  obtain ⟨found, left⟩ := h { w with scopes := names :: w.scopes }
  refine ⟨found, ?_⟩
  show { (walk { w with scopes := names :: w.scopes }).2 with
    scopes := (walk { w with scopes := names :: w.scopes }).2.scopes.tail } = _
  rw [left, changeInnermost_id]
  rfl

/-- A body is left as it was entered. -/
theorem Changes.withinBody (kind : Body) (h : Changes f walk) :
    Changes f (withinBody kind walk) := by
  intro w
  obtain ⟨found, left⟩ := h { w with bodies := kind :: w.bodies }
  refine ⟨found, ?_⟩
  show { (walk { w with bodies := kind :: w.bodies }).2 with
    bodies := (walk { w with bodies := kind :: w.bodies }).2.bodies.tail } = _
  rw [left]
  rfl

/-- A class is left as it was entered. -/
theorem Changes.withinClass (family : Family) (h : Changes f walk) :
    Changes f (withinClass family walk) := by
  intro w
  obtain ⟨found, left⟩ := h { w with classes := family :: w.classes }
  refine ⟨found, ?_⟩
  show { (walk { w with classes := family :: w.classes }).2 with
    classes := (walk { w with classes := family :: w.classes }).2.classes.tail } = _
  rw [left]
  rfl

/-- Parameters and body are left together. -/
theorem changes_body {body : Walker α} (kind : Body) (params : List Token) (h : Changes f body) :
    Changes id (Scope.withinBody kind (Scope.within [] (do bindParams params; body))) :=
  (((changes_bindParams params).bind fun _ => h).within []).withinBody kind

end Changes

/-! ### Every part of a program -/

mutual

/-- An expression changes no scope. -/
theorem changes_expr : (e : Expr) → Changes id (expr e)
  | .number _ | .string _ | .bool _ | .nil | .gap => changes_pure _
  | .variable ref => (changes_addressVariable ref).map
  | .assign ref value => (changes_expr value).bind fun _ => (changes_address ref).map
  | .unary _ operand => (changes_expr operand).map
  | .binary _ left right | .logical _ left right =>
    (changes_expr left).bind fun _ => (changes_expr right).map
  | .group inner => (changes_expr inner).map
  | .call callee _ args => (changes_expr callee).bind fun _ => (changes_exprs args).map
  | .get object _ => (changes_expr object).map
  | .set object _ value => (changes_expr value).bind fun _ => (changes_expr object).map
  | .this ref => (changes_addressThis ref).map
  | .super ref _ => (changes_addressSuper ref).map
  | .lambda _ params body => (changes_body .function params (changes_stmts body)).map

theorem changes_exprs : (es : List Expr) → Changes id (exprs es)
  | [] => changes_pure _
  | e :: rest => (changes_expr e).bind fun _ => (changes_exprs rest).map

/-- A statement puts what it declares into the innermost scope, and changes nothing else. -/
theorem changes_stmt : (s : Stmt) → Changes (putAll s.declares) (stmt s)
  | .expr e | .print e => (changes_expr e).map
  | .var name none => changes_declared name (changes_pure _)
  | .var name (some init) => by
    rw [Stmt.declares, ← insert_comp_insert]
    exact (changes_declare name).bind fun _ => (changes_expr init).bind fun _ =>
      (changes_define name).bind fun _ => changes_pure _
  | .block body => ((changes_stmts body).within []).map
  | .cond test yes none => (changes_expr test).bind fun _ => (changes_stmt yes).map
  | .cond test yes (some no) => by
    rw [Stmt.declares, putAll_append]
    exact (changes_expr test).bind fun _ => (changes_stmt yes).bind fun _ => (changes_stmt no).map
  | .loop test body => (changes_expr test).bind fun _ => (changes_stmt body).map
  | .function decl => changes_declared decl.name (changes_function .function decl).map
  | .ret keyword none => (changes_checkReturn keyword false).bind fun _ => changes_pure _
  | .ret keyword (some value) =>
    (changes_checkReturn keyword true).bind fun _ => (changes_expr value).map
  | .classDecl name none members => by
    rw [stmt_classDecl_none]
    exact changes_declared name (((changes_methods members).within _).withinClass .base).map
  | .classDecl name (some superclass) members => by
    rw [stmt_classDecl_some]
    exact changes_declared name ((changes_checkSuperclass name superclass).bind fun _ =>
      (changes_addressVariable superclass).bind fun _ =>
        ((((changes_methods members).within _).within _).withinClass .derived).map)
  | .gap => changes_pure _

/-- Statements put what they declare into the innermost scope. -/
theorem changes_stmts : (body : List Stmt) →
    Changes (putAll (body.flatMap Stmt.declares)) (stmts body)
  | [] => changes_pure _
  | s :: rest => by
    rw [List.flatMap_cons, putAll_append]
    exact (changes_stmt s).bind fun _ => (changes_stmts rest).map

/-- A function leaves the stacks as they were. -/
theorem changes_function (kind : Body) : (f : Function) → Changes id (function kind f)
  | ⟨_, params, body⟩ => (changes_body kind params (changes_stmts body)).map

theorem changes_methods : (fs : List Function) → Changes id (methods fs)
  | [] => changes_pure _
  | f :: rest => (changes_function _ f).bind fun _ => (changes_methods rest).map

end

/-! ### Whole programs -/

/-- Programs that are resolved one after the other are resolved as each alone. -/
theorem mapM_resolveProgram (programs : List Program) (w : Walk) :
    (programs.mapM resolveProgram w).1 = programs.map resolve := by
  induction programs generalizing w with
  | nil => rfl
  | cons p rest ih =>
    rw [List.mapM_cons, List.map_cons, ← ih (resolveProgram p w).2]
    rfl

/-- From wherever the walk stands, and whatever is wrong with what it walks through: an expression
and a function leave all stacks as they were, and a statement, which may be a class, all but the
innermost scope, which has the names too that the statement declares directly, each with its value.
After a program all stacks are empty, and programs that are walked one after the other are
addressed, and reported on, as each of them is by itself. -/
theorem stacks_balanced (w : Walk) :
    (∀ e, (expr e w).2 = { w with errors := (expr e w).2.errors }) ∧
    (∀ kind f, (function kind f w).2 = { w with errors := (function kind f w).2.errors }) ∧
    (∀ s, Restores s.declares w (stmt s w).2) ∧
    (∀ body, Restores (body.flatMap Stmt.declares) w (stmts body w).2) ∧
    (∀ p, (resolveProgram p w).2.scopes = [] ∧ (resolveProgram p w).2.bodies = [] ∧
      (resolveProgram p w).2.classes = []) ∧
    ∀ programs : List Program,
      (programs.mapM resolveProgram w).1 = programs.map resolve := by
  refine ⟨fun e => (changes_expr e).left w, fun kind f => (changes_function kind f).left w,
    fun s => (changes_stmt s).restores w, fun body => (changes_stmts body).restores w, fun p => ?_,
    fun programs => mapM_resolveProgram programs w⟩
  have afresh := (changes_stmts p.body).restores {}
  refine ⟨List.length_eq_zero_iff.mp afresh.depth, afresh.bodies, afresh.classes⟩

end Lox.Scope
