import Lox.Proofs.Scope.Place

/-!
The walk over a program finds the right addresses: where it reports nothing, the program it gives is
addressed.
-/

namespace Lox.Scope

/-- The walk stands where the context says. -/
structure Stands (c : Context) (w : Walk) : Prop where
  scopes : w.scopes = c.names
  body : w.bodies.head? = c.body
  family : w.classes.head? = c.family

/-! ### Contexts under change -/

section Contexts

variable {c : Context} {name : String} {done : Bool}

@[simp] theorem Context.mark_body : (c.mark name done).body = c.body := by
  unfold mark
  split <;> rfl

@[simp] theorem Context.mark_family : (c.mark name done).family = c.family := by
  unfold mark
  split <;> rfl

theorem Context.mark_tail : (c.mark name done).scopes.tail = c.scopes.tail := by
  unfold mark
  split <;> simp_all

/-- The later mark of a name overwrites the earlier one. -/
theorem insert_insert (name : String) (a b : Bool) (names : Names) :
    Bindings.insert name b (Bindings.insert name a names) = Bindings.insert name b names := by
  induction names with
  | nil => simp [Bindings.insert]
  | cons binding rest ih =>
    obtain ⟨other, v⟩ := binding
    by_cases h : other = name
    · simp [Bindings.insert, h]
    · simp [Bindings.insert, h, ih]

@[simp] theorem Context.mark_mark (done' : Bool) :
    (c.mark name done').mark name done = c.mark name done := by
  obtain ⟨scopes, body, family⟩ := c
  cases scopes with
  | nil => rfl
  | cons s rest => simp [mark, insert_insert]

theorem Context.names_mark : (c.mark name done).names = match c.names with
    | [] => []
    | names :: rest => Bindings.insert name done names :: rest := by
  obtain ⟨scopes, body, family⟩ := c
  cases scopes with
  | nil => rfl
  | cons s rest => simp [mark, names]

/-- A statement changes the innermost scope at most. -/
theorem after_kept (c : Context) (s : Stmt) : (s.after c).body = c.body ∧
    (s.after c).family = c.family ∧ (s.after c).scopes.tail = c.scopes.tail := by
  cases s with
  | var | function | classDecl => exact ⟨Context.mark_body, Context.mark_family, Context.mark_tail⟩
  | _ => exact ⟨rfl, rfl, rfl⟩

/-- Only declarations change the context for what follows them. -/
theorem after_of_not_declaration {c : Context} {s : Stmt} (h : s.isDeclaration = false) :
    s.after c = c := by
  cases s with
  | var | function | classDecl => cases h
  | _ => rfl

/-- The context after statements. -/
def afterAll (c : Context) : List Stmt → Context
  | [] => c
  | s :: rest => afterAll (s.after c) rest

/-- Statements of a body change the innermost scope only. -/
theorem afterAll_kept (c : Context) (body : List Stmt) : (afterAll c body).body = c.body ∧
    (afterAll c body).family = c.family ∧ (afterAll c body).scopes.tail = c.scopes.tail := by
  induction body generalizing c with
  | nil => exact ⟨rfl, rfl, rfl⟩
  | cons s rest ih =>
    obtain ⟨body, family, tail⟩ := ih (s.after c)
    obtain ⟨body', family', tail'⟩ := after_kept c s
    exact ⟨body.trans body', family.trans family', tail.trans tail'⟩

end Contexts

/-- From context `c` the walk goes to context `c'`, and its result satisfies `P` unless something is
reported. -/
def Finds {α : Type} (c : Context) (walk : Walker α) (c' : Context) (P : α → Prop) : Prop :=
  ∀ w, Stands c w → Stands c' (walk w).2 ∧ ∃ found, (walk w).2 =
    { w with scopes := c'.names, errors := w.errors ++ found } ∧ (found = [] → P (walk w).1)

section Finds

variable {α β : Type} {c c₁ c₂ : Context} {P : α → Prop} {walk : Walker α}

/-- What is found may be said more weakly. -/
theorem Finds.mono {Q : α → Prop} (h : Finds c walk c₁ P) (imp : ∀ a, P a → Q a) :
    Finds c walk c₁ Q := by
  intro w stands
  obtain ⟨stands₁, found, same, good⟩ := h w stands
  exact ⟨stands₁, found, same, fun none => imp _ (good none)⟩

theorem finds_pure {a : α} (h : P a) : Finds c (pure a) c P := by
  intro w stands
  refine ⟨stands, [], ?_, fun _ => h⟩
  rw [← stands.scopes, List.append_nil]
  rfl

/-- The second part starts from the context that the first leaves, with what that found. -/
theorem Finds.bind {next : α → Walker β} {Q : α → β → Prop} (h : Finds c walk c₁ P)
    (hnext : ∀ a, Finds c₁ (next a) c₂ (Q a)) :
    Finds c (walk >>= next) c₂ fun b => ∃ a, P a ∧ Q a b := by
  intro w stands
  obtain ⟨stands₁, found, same, good⟩ := h w stands
  obtain ⟨stands₂, found', same', good'⟩ := hnext (walk w).1 _ stands₁
  refine ⟨stands₂, found ++ found', ?_, fun none => ?_⟩
  · have step : ((walk >>= next) w).2 = (next (walk w).1 (walk w).2).2 := rfl
    rw [step, same', same, List.append_assoc]
  · obtain ⟨none₁, none₂⟩ := List.append_eq_nil_iff.mp none
    exact ⟨_, good none₁, good' none₂⟩

/-- A pure function of what was found. -/
theorem Finds.map {f : α → β} {Q : β → Prop} (h : Finds c walk c₁ P)
    (imp : ∀ a, P a → Q (f a)) : Finds c (do return f (← walk)) c₁ Q := by
  refine (h.bind fun a => finds_pure (P := fun b => b = f a) rfl).mono ?_
  rintro _ ⟨a, ha, rfl⟩
  exact imp a ha

theorem Finds.map₂ {γ : Type} {walk' : Walker β} {f : α → β → γ} {Q : β → Prop} {R : γ → Prop}
    (h : Finds c walk c₁ P) (h' : Finds c₁ walk' c₂ Q) (imp : ∀ a b, P a → Q b → R (f a b)) :
    Finds c (do return f (← walk) (← walk')) c₂ R := by
  refine (h.bind fun a => h'.map (Q := fun d => P a → R d) fun b hb ha => imp a b ha hb).mono ?_
  rintro _ ⟨a, ha, hd⟩
  exact hd ha

/-- A complaint is an outcome of its own: nothing has to be found then. -/
theorem finds_report (token : Token) (complaint : Complaint) {Q : Unit → Prop} :
    Finds c (report token complaint) c Q := by
  intro w stands
  refine ⟨⟨stands.scopes, stands.body, stands.family⟩, [⟨token, complaint⟩], ?_,
    fun none => by cases none⟩
  rw [← stands.scopes]
  rfl

theorem finds_refusal (token : Token) (complaint : Complaint) (a : α) :
    Finds c (do report token complaint; return a) c P := by
  refine ((finds_report token complaint (Q := fun _ => False)).bind
    fun _ => finds_pure (P := fun _ => True) trivial).mono ?_
  rintro _ ⟨_, h, -⟩
  exact h.elim

/-- What reads the state first goes on from that state. -/
theorem finds_get {next : Walk → Walker α} (h : ∀ w, Stands c w → Finds c (next w) c₁ P) :
    Finds c (do next (← get)) c₁ P :=
  fun w stands => h w stands w stands

theorem finds_mark (name : String) (done : Bool) :
    Finds c (markInnermost name done) (c.mark name done) fun _ => True := by
  intro w stands
  have scopes := stands.scopes
  have result : (markInnermost name done w).2 = { w with scopes := (c.mark name done).names } := by
    show (match w.scopes with
      | [] => w
      | names :: rest => { w with scopes := Bindings.insert name done names :: rest }) = _
    rw [Context.names_mark, ← scopes]
    split
    · next h =>
      obtain ⟨_, _, _, _⟩ := w
      cases h
      rfl
    · rfl
  refine ⟨?_, [], ?_, fun _ => trivial⟩
  · rw [result]
    exact ⟨rfl, stands.body.trans Context.mark_body.symm,
      stands.family.trans Context.mark_family.symm⟩
  · rw [result, List.append_nil]

/-- Without a complaint, the declared name is new in the innermost scope. -/
theorem finds_declare (name : Token) :
    Finds c (declare name) (c.mark name.lexeme false) fun _ => c.New name := by
  refine finds_get fun w stands => ?_
  have innermost : w.scopes.headD [] = c.innermost := by rw [stands.scopes]; rfl
  rw [innermost]
  split
  · refine ((finds_report name .alreadyDeclared (Q := fun _ => False)).bind
      fun _ => finds_mark _ _).mono ?_
    rintro _ ⟨_, h, -⟩
    exact h.elim
  · next h =>
    refine (finds_pure (a := PUnit.unit) (P := fun _ => True) trivial).bind
      (fun _ => finds_mark _ _) |>.mono fun _ _ => ?_
    simpa [Context.New] using h

/-- A name that is declared and defined at once, and what comes after. -/
theorem finds_declared (name : Token) {next : Walker α}
    (h : Finds (c.mark name.lexeme true) next c₁ P) :
    Finds c (do declare name; define name; next) c₁ fun a => c.New name ∧ P a := by
  have defined := finds_mark (c := c.mark name.lexeme false) name.lexeme true
  rw [Context.mark_mark] at defined
  refine ((finds_declare name).bind fun _ => defined.bind fun _ => h).mono ?_
  rintro a ⟨_, new, _, _, ha⟩
  exact ⟨new, ha⟩

/-- The distance that is written is the one to the innermost scope with the name. -/
theorem finds_address (ref : Reference) :
    Finds c (address ref) c fun ref' => ref'.name = ref.name ∧ c.Refers ref' := by
  refine finds_get fun w stands => finds_pure ⟨rfl, ?_⟩
  rw [stands.scopes]
  rfl

/-- Without a complaint, the variable is not read inside its own initializer. -/
theorem finds_addressVariable (ref : Reference) :
    Finds c (addressVariable ref) c fun ref' => ref'.name = ref.name ∧ c.Reads ref' := by
  have check : Finds c (checkRead ref.name) c fun _ =>
      Bindings.get? ref.name.lexeme c.innermost ≠ some false := by
    refine finds_get fun w stands => ?_
    have innermost : w.scopes.headD [] = c.innermost := by rw [stands.scopes]; rfl
    rw [innermost]
    split
    · exact finds_report _ _
    · next h => exact finds_pure h
  refine (check.bind fun _ => finds_address ref).mono ?_
  rintro ref' ⟨_, unread, same, refers⟩
  exact ⟨same, same ▸ unread, refers⟩

/-- Without a complaint, `this` stands inside a class. -/
theorem finds_addressThis (ref : Reference) :
    Finds c (addressThis ref) c fun ref' =>
      ref'.name = ref.name ∧ c.family ≠ none ∧ c.Refers ref' := by
  refine finds_get fun w stands => ?_
  have family := stands.family
  split
  · exact finds_refusal _ _ _
  · next nonempty =>
    refine (finds_address ref).mono fun ref' ⟨same, refers⟩ => ⟨same, ?_, refers⟩
    rw [← family]
    simpa using nonempty

/-- Without a complaint, `super` stands inside a class that has a superclass. -/
theorem finds_addressSuper (ref : Reference) :
    Finds c (addressSuper ref) c fun ref' =>
      ref'.name = ref.name ∧ c.family = some .derived ∧ c.Refers ref' := by
  refine finds_get fun w stands => ?_
  have family := stands.family
  split
  · exact finds_refusal _ _ _
  · exact finds_refusal _ _ _
  · next derived =>
    refine (finds_address ref).mono fun ref' ⟨same, refers⟩ => ⟨same, ?_, refers⟩
    rw [← family, derived]
    rfl

/-- Without a complaint, the return stands where it may. -/
theorem finds_checkReturn (keyword : Token) (hasValue : Bool) :
    Finds c (checkReturn keyword hasValue) c fun _ => c.Returns hasValue := by
  refine finds_get fun w stands => ?_
  have body := stands.body
  split
  · exact finds_report _ _
  · next initializer =>
    rw [initializer] at body
    split
    · exact finds_report _ _
    · next h =>
      refine finds_pure ⟨?_, fun value => absurd value h⟩
      rw [← body]
      exact Option.some_ne_none _
  · next outside inside =>
    refine finds_pure ⟨?_, fun _ => ?_⟩
    · rw [← body]
      simpa using outside
    · rw [← body]
      -- a value may be returned, so the body around is no initializer
      intro heq
      obtain ⟨rest, hrest⟩ := List.head?_eq_some_iff.mp heq
      exact inside rest hrest

theorem finds_checkSuperclass (name : Token) (superclass : Reference) :
    Finds c (checkSuperclass name superclass) c fun _ => superclass.name.lexeme ≠ name.lexeme := by
  unfold checkSuperclass
  split
  · exact finds_report _ _
  · next h => exact finds_pure h

/-- A scope is gone after the walk through it. -/
theorem finds_within (place : Place) {names : Names} (h : Finds (c.enter place names) walk c₁ P)
    (tail : c₁.scopes.tail = c.scopes) : Finds c (within names walk) c P := by
  intro w stands
  have inside : Stands (c.enter place names) { w with scopes := names :: w.scopes } :=
    ⟨by rw [stands.scopes]; rfl, stands.body, stands.family⟩
  obtain ⟨-, found, same, good⟩ := h _ inside
  have result : (within names walk w).2 =
      { w with scopes := c.names, errors := w.errors ++ found } := by
    show { (walk { w with scopes := names :: w.scopes }).2 with
      scopes := (walk { w with scopes := names :: w.scopes }).2.scopes.tail } = _
    rw [same]
    have : c₁.names.tail = c.names := by rw [Context.names, ← List.map_tail, tail]; rfl
    rw [← this]
  refine ⟨?_, found, result, good⟩
  rw [result]
  exact ⟨rfl, stands.body, stands.family⟩

theorem finds_withinBody {body : Body}
    (h : Finds { c with body := some body } walk { c with body := some body } P) :
    Finds c (withinBody body walk) c P := by
  intro w stands
  obtain ⟨-, found, same, good⟩ :=
    h { w with bodies := body :: w.bodies } ⟨stands.scopes, rfl, stands.family⟩
  have result : (withinBody body walk w).2 =
      { w with scopes := c.names, errors := w.errors ++ found } := by
    show { (walk { w with bodies := body :: w.bodies }).2 with
      bodies := (walk { w with bodies := body :: w.bodies }).2.bodies.tail } = _
    rw [same]
    rfl
  refine ⟨?_, found, result, good⟩
  rw [result]
  exact ⟨rfl, stands.body, stands.family⟩

theorem finds_withinClass {family : Family}
    (h : Finds { c with family := some family } walk { c with family := some family } P) :
    Finds c (withinClass family walk) c P := by
  intro w stands
  obtain ⟨-, found, same, good⟩ :=
    h { w with classes := family :: w.classes } ⟨stands.scopes, stands.body, rfl⟩
  have result : (withinClass family walk w).2 =
      { w with scopes := c.names, errors := w.errors ++ found } := by
    show { (walk { w with classes := family :: w.classes }).2 with
      classes := (walk { w with classes := family :: w.classes }).2.classes.tail } = _
    rw [same]
    rfl
  refine ⟨?_, found, result, good⟩
  rw [result]
  exact ⟨rfl, stands.body, stands.family⟩

/-- Without a complaint, the parameters have different names. -/
theorem finds_bindParams (place : Place) (params : List Token) (names : Names) :
    Finds (c.enter place names) (bindParams params)
      (c.enter place (Context.paramNames params names)) fun _ => NewParams params names := by
  induction params generalizing names with
  | nil => exact finds_pure trivial
  | cons p rest ih =>
    exact finds_declared (c := c.enter place names) p (ih _)

end Finds

/-! ### What is found is right -/

/-- A block is walked in a scope of its own, which is left at its end. -/
theorem finds_block {c : Context} {π : Place} {body : List Stmt} {i : Nat}
    (h : Finds (c.enter (.block :: π) []) (stmts body) (afterAll (c.enter (.block :: π) []) body)
      (Stmt.AllAddressed (c.enter (.block :: π) []) (.block :: π) i)) :
    Finds c (within [] (stmts body)) c
      (Stmt.AllAddressed (c.enter (.block :: π) []) (.block :: π) i) :=
  finds_within _ h (afterAll_kept _ _).2.2

/-- The walk through a function's parameters and statements. -/
theorem finds_function {c : Context} {π : Place} {kind : Body} {params : List Token}
    {body : List Stmt}
    (h : Finds (c.function kind π params) (stmts body) (afterAll (c.function kind π params) body)
      (Stmt.AllAddressed (c.function kind π params) (.body :: π) 0)) :
    Finds c (withinBody kind (within [] (do bindParams params; stmts body))) c fun body' =>
      NewParams params [] ∧ Stmt.AllAddressed (c.function kind π params) (.body :: π) 0 body' := by
  refine finds_withinBody (finds_within (.body :: π)
    (((finds_bindParams (c := { c with body := some kind }) _ params []).bind fun _ => h).mono ?_)
    (afterAll_kept _ _).2.2)
  rintro body' ⟨_, new, good⟩
  exact ⟨new, good⟩

/-- The walk through a statement finds it addressed, and leaves what it declares. -/
def FindsStmt (c : Context) (π : Place) (s : Stmt) : Prop :=
  Finds c (stmt s) (s.after c) fun s' => s'.Addressed c π ∧
    s'.isDeclaration = s.isDeclaration ∧ s'.after c = s.after c

/-- A branch leaves the context as it is. -/
theorem FindsStmt.branch {c : Context} {π : Place} {s : Stmt} (h : FindsStmt c π s)
    (shaped : s.isDeclaration = false) :
    Finds c (stmt s) c fun s' => s'.Addressed c π ∧ s'.isDeclaration = false := by
  unfold FindsStmt at h
  rw [after_of_not_declaration shaped, shaped] at h
  exact h.mono fun _ found => ⟨found.1, found.2.1⟩

mutual

/-- Without complaints, every reference in an expression is addressed in its context. -/
theorem finds_expr (c : Context) (π : Place) :
    (e : Expr) → e.Shaped → Finds c (expr e) c (Expr.Addressed c π)
  | .number _, _ | .string _, _ | .bool _, _ | .nil, _ => finds_pure trivial
  | .variable ref, shaped => (finds_addressVariable ref).map fun _ h => ⟨h.2, h.1 ▸ shaped⟩
  -- the value is found first, then the target
  | .assign ref value, shaped =>
    (finds_expr c (.part 0 :: π) value shaped.2).bind (fun value' =>
      (finds_address ref).map (Q := fun e => value'.Addressed c (.part 0 :: π) →
        e.Addressed c π) fun _ refers value => ⟨value, refers.2, refers.1 ▸ shaped.1⟩)
      |>.mono fun _ ⟨_, value, h⟩ => h value
  | .unary _ operand, shaped =>
    (finds_expr c (.part 0 :: π) operand shaped.2).map fun _ h => ⟨h, shaped.1⟩
  | .binary _ left right, shaped =>
    (finds_expr c (.part 0 :: π) left shaped.2.1).map₂
      (finds_expr c (.part 1 :: π) right shaped.2.2) fun _ _ l r => ⟨l, r, shaped.1⟩
  | .logical _ left right, shaped =>
    (finds_expr c (.part 0 :: π) left shaped.1).map₂ (finds_expr c (.part 1 :: π) right shaped.2)
      fun _ _ l r => ⟨l, r⟩
  | .group inner, shaped => (finds_expr c (.part 0 :: π) inner shaped).map fun _ h => h
  | .call callee _ args, shaped =>
    (finds_expr c (.part 0 :: π) callee shaped.1).map₂ (finds_exprs c π 1 args shaped.2)
      fun _ _ f as => ⟨f, as⟩
  | .get object _, shaped => (finds_expr c (.part 0 :: π) object shaped).map fun _ h => h
  | .set object _ value, shaped =>
    (finds_expr c (.part 1 :: π) value shaped.2).bind (fun value' =>
      (finds_expr c (.part 0 :: π) object shaped.1).map
        (Q := fun e => value'.Addressed c (.part 1 :: π) → e.Addressed c π)
        fun _ object value => ⟨value, object⟩)
      |>.mono fun _ ⟨_, value, h⟩ => h value
  | .this ref, shaped =>
    (finds_addressThis ref).map fun _ ⟨same, h⟩ => ⟨same ▸ shaped, h⟩
  | .super ref _, shaped =>
    (finds_addressSuper ref).map fun _ ⟨same, h⟩ => ⟨same ▸ shaped, h⟩
  | .lambda _ params body, shaped =>
    (finds_function (finds_stmts (c.function .function π params) (.body :: π) 0 body shaped.2)).map
      fun _ h => ⟨⟨shaped.1, h.1⟩, h.2⟩

theorem finds_exprs (c : Context) (π : Place) (i : Nat) :
    (es : List Expr) → Expr.AllShaped es → Finds c (exprs es) c (Expr.AllAddressed c π i)
  | [], _ => finds_pure trivial
  | e :: rest, shaped =>
    (finds_expr c (.part i :: π) e shaped.1).map₂ (finds_exprs c π (i + 1) rest shaped.2)
      fun _ _ h hs => ⟨h, hs⟩

/-- Without complaints, every reference in a statement is addressed in the context before it. -/
theorem finds_stmt (c : Context) (π : Place) : (s : Stmt) → s.Shaped → FindsStmt c π s
  | .expr e, shaped | .print e, shaped =>
    (finds_expr c (.part 0 :: π) e shaped).map fun _ h => ⟨h, rfl, rfl⟩
  | .var name none, shaped =>
    (finds_declared name (finds_pure (P := (· = .var name none)) rfl)).mono <| by
      rintro _ ⟨new, rfl⟩
      exact ⟨⟨shaped, new⟩, rfl, rfl⟩
  -- the name is marked twice: not ready in its initializer, ready after it
  | .var name (some init), shaped => by
    have value := finds_expr (c.mark name.lexeme false) (.initializer name.lexeme :: π) init shaped.2
    have defined := finds_mark (c := c.mark name.lexeme false) name.lexeme true
    rw [Context.mark_mark] at defined
    refine ((finds_declare name).bind fun _ => value.bind fun init' => defined.bind fun _ =>
      finds_pure (P := (· = .var name (some init'))) rfl).mono ?_
    rintro _ ⟨_, new, init', hinit, _, _, rfl⟩
    exact ⟨⟨⟨shaped.1, new⟩, hinit⟩, rfl, rfl⟩
  | .block body, shaped =>
    (finds_block (finds_stmts (c.enter (.block :: π) []) (.block :: π) 0 body shaped)).map
      fun _ h => ⟨h, rfl, rfl⟩
  | .cond test yes none, shaped =>
    (finds_expr c (.part 0 :: π) test shaped.1).map₂
      ((finds_stmt c (.part 1 :: π) yes shaped.2.1).branch shaped.2.2)
      fun _ _ t y => ⟨⟨t, y⟩, rfl, rfl⟩
  | .cond test yes (some no), shaped => by
    refine ((finds_expr c (.part 0 :: π) test shaped.1).bind fun test' =>
      ((finds_stmt c (.part 1 :: π) yes shaped.2.1.1).branch shaped.2.1.2).bind fun yes' =>
        ((finds_stmt c (.part 2 :: π) no shaped.2.2.1).branch shaped.2.2.2).bind fun no' =>
          finds_pure (P := (· = .cond test' yes' (some no'))) rfl).mono ?_
    rintro _ ⟨test', htest, yes', hyes, no', hno, rfl⟩
    exact ⟨⟨htest, hyes, hno⟩, rfl, rfl⟩
  | .loop test body, shaped =>
    (finds_expr c (.part 0 :: π) test shaped.1).map₂
      ((finds_stmt c (.part 1 :: π) body shaped.2.1).branch shaped.2.2)
      fun _ _ t b => ⟨⟨t, b⟩, rfl, rfl⟩
  | .function decl, shaped => by
    refine (finds_declared decl.name
      ((finds_functionDecl (c.mark decl.name.lexeme true) π .function decl shaped.2).bind
        fun decl' => finds_pure (P := (· = .function decl')) rfl)).mono ?_
    rintro _ ⟨new, decl', ⟨hdecl, same⟩, rfl⟩
    refine ⟨⟨same ▸ new, same ▸ hdecl, same ▸ shaped.1⟩, rfl, ?_⟩
    rw [Stmt.after, same, Stmt.after]
  | .ret keyword none, _ => (finds_checkReturn keyword false).map fun _ h => ⟨h, rfl, rfl⟩
  | .ret keyword (some value), shaped =>
    (finds_checkReturn keyword true).map₂ (finds_expr c (.part 0 :: π) value shaped)
      fun _ _ r v => ⟨⟨r, v⟩, rfl, rfl⟩
  | .classDecl name none members, shaped => by
    unfold FindsStmt
    rw [stmt_classDecl_none]
    refine (finds_declared name ((finds_withinClass (finds_within (.this :: π)
      (finds_methods ((c.mark name.lexeme true).base π) (.this :: π) 0 members shaped.2.2)
        rfl)).bind fun members' =>
          finds_pure (P := (· = .classDecl name none members')) rfl)).mono ?_
    rintro _ ⟨new, members', hmembers, rfl⟩
    exact ⟨⟨new, hmembers, shaped.1⟩, rfl, rfl⟩
  | .classDecl name (some superclass) members, shaped => by
    unfold FindsStmt
    rw [stmt_classDecl_some]
    refine (finds_declared name ((finds_checkSuperclass name superclass).bind fun _ =>
      (finds_addressVariable superclass).bind fun superclass' =>
        (finds_withinClass (finds_within (.super :: π)
          (finds_within (.this :: .super :: π)
            (finds_methods ((c.mark name.lexeme true).derived π) (.this :: .super :: π) 0 members
              shaped.2.2) rfl) rfl)).bind fun members' =>
                finds_pure (P := (· = .classDecl name (some superclass') members')) rfl)).mono ?_
    rintro _ ⟨new, _, other, superclass', ⟨same, reads⟩, members', hmembers, rfl⟩
    exact ⟨⟨new, same ▸ other, reads, hmembers, shaped.1, same ▸ shaped.2.1 superclass rfl⟩,
      rfl, rfl⟩

/-- Each statement is addressed in the context that those before it leave. -/
theorem finds_stmts (c : Context) (π : Place) (i : Nat) : (body : List Stmt) →
    Stmt.AllShaped body → Finds c (stmts body) (afterAll c body) (Stmt.AllAddressed c π i)
  | [], _ => finds_pure trivial
  | s :: rest, shaped =>
    (finds_stmt c (.part i :: π) s shaped.1).map₂ (finds_stmts (s.after c) π (i + 1) rest shaped.2)
      fun _ _ h hs => ⟨h.1, h.2.2 ▸ hs⟩

/-- Without complaints, every reference in a function is addressed. -/
theorem finds_functionDecl (c : Context) (π : Place) (kind : Body) : (f : Function) → f.Shaped →
    Finds c (function kind f) c fun f' => f'.Addressed c π kind ∧ f'.name = f.name
  | ⟨_, params, body⟩, shaped =>
    (finds_function (finds_stmts (c.function kind π params) (.body :: π) 0 body shaped.2)).map
      fun _ h => ⟨⟨⟨shaped.1, h.1⟩, h.2⟩, rfl⟩

theorem finds_methods (c : Context) (π : Place) (i : Nat) : (fs : List Function) →
    Function.AllShaped fs → Finds c (methods fs) c (Function.AllAddressed c π i)
  | [], _ => finds_pure trivial
  | f :: rest, shaped =>
    (finds_functionDecl c (.part i :: π) (methodBody f) f shaped.1).map₂
      (finds_methods c π (i + 1) rest shaped.2) fun f' _ h hs => ⟨by
        have same : methodBody f' = methodBody f := by
          unfold methodBody Function.isInit
          rw [h.2]
        rw [same]
        exact h.1, hs⟩

end

/-- A program about which nothing is reported has its names addressed, wherever it stands outside of
all scopes. -/
theorem addressed_resolve {p : Program} (shaped : Stmt.AllShaped p.body)
    (h : (resolve p).errors = []) (π : Place) :
    Stmt.AllAddressed {} π 0 (resolve p).program.body := by
  obtain ⟨-, found, same, good⟩ := finds_stmts {} π 0 p.body shaped {} ⟨rfl, rfl, rfl⟩
  refine good ?_
  have errors : (resolve p).errors = ([] : List ScopeError) ++ found := congrArg Walk.errors same
  rwa [h, List.nil_append, eq_comm] at errors

end Lox.Scope
