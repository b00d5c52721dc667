import Lox.Proofs.Scope.Classes
import Lox.Proofs.Syntax.Shape

/-!
Where the tokens of a tree are from. A tree that is parsed has no gaps, every token in it is one
that it was parsed from, and what it binds are names and not keywords; the walk that gives addresses
leaves the tokens as they are.
-/

namespace Lox

mutual

/-- Nothing is missing in the tree, all its tokens are drawn from `S`, and those that it declares or
assigns to are names. -/
def Expr.Drawn (S : Token → Prop) : Expr → Prop
  | .number _ | .string _ | .bool _ | .nil => True
  | .gap => False
  | .variable ref | .this ref => S ref.name
  | .assign ref value => (S ref.name ∧ ref.name.IsName) ∧ value.Drawn S
  | .unary op operand => S op ∧ operand.Drawn S
  | .binary op left right => S op ∧ left.Drawn S ∧ right.Drawn S
  | .logical op left right => S op ∧ left.Drawn S ∧ right.Drawn S
  | .group inner => inner.Drawn S
  | .call callee paren args => callee.Drawn S ∧ S paren ∧ Expr.AllDrawn S args
  | .get object name => object.Drawn S ∧ S name
  | .set object name value => object.Drawn S ∧ S name ∧ value.Drawn S
  | .super ref method => S ref.name ∧ S method
  | .lambda keyword params body => S keyword ∧ (∀ t ∈ params, S t) ∧ Stmt.AllDrawn S body

def Expr.AllDrawn (S : Token → Prop) : List Expr → Prop
  | [] => True
  | e :: rest => e.Drawn S ∧ Expr.AllDrawn S rest

def Stmt.Drawn (S : Token → Prop) : Stmt → Prop
  | .expr e | .print e => e.Drawn S
  | .gap => False
  | .var name none => S name ∧ name.IsName
  | .var name (some init) => (S name ∧ name.IsName) ∧ init.Drawn S
  | .block body => Stmt.AllDrawn S body
  | .cond test yes none => test.Drawn S ∧ yes.Drawn S
  | .cond test yes (some no) => test.Drawn S ∧ yes.Drawn S ∧ no.Drawn S
  | .loop test body => test.Drawn S ∧ body.Drawn S
  | .function decl => decl.Drawn S
  | .ret keyword none => S keyword
  | .ret keyword (some value) => S keyword ∧ value.Drawn S
  | .classDecl name superclass methods =>
    (S name ∧ name.IsName) ∧ (∀ ref ∈ superclass, S ref.name) ∧ Function.AllDrawn S methods

def Stmt.AllDrawn (S : Token → Prop) : List Stmt → Prop
  | [] => True
  | s :: rest => s.Drawn S ∧ Stmt.AllDrawn S rest

def Function.Drawn (S : Token → Prop) : Function → Prop
  | ⟨name, params, body⟩ => (S name ∧ name.IsName) ∧ (∀ t ∈ params, S t) ∧ Stmt.AllDrawn S body

def Function.AllDrawn (S : Token → Prop) : List Function → Prop
  | [] => True
  | f :: rest => f.Drawn S ∧ Function.AllDrawn S rest

end

/-! ### Parsed trees -/

namespace Grammar

variable {S : Token → Prop}

/-- What a category gives is drawn from `S`; what comes after a first part adds nothing else. -/
def IsDrawn (S : Token → Prop) : (c : Category) → c.Tree → Prop
  | .expression | .level _ => Expr.Drawn S
  | .chain _ | .suffixes => fun pair : Expr × Expr => pair.1.Drawn S → pair.2.Drawn S
  | .arguments | .moreArguments => Expr.AllDrawn S
  | .params | .moreParams => fun params : List Token => ∀ t ∈ params, S t
  | .superclass => fun o : Option Reference => ∀ ref ∈ o, S ref.name
  | .optional => fun o : Option Expr => ∀ e ∈ o, e.Drawn S
  | .varRest | .declaration | .statement _ => Stmt.Drawn S
  | .forInit => fun o : Option Stmt => ∀ s ∈ o, s.Drawn S
  | .declarations => Stmt.AllDrawn S
  | .function => Function.Drawn S
  | .methods => Function.AllDrawn S

/-- Two drawn operands and an operator from the text are a drawn expression. -/
theorem isDrawn_join (l : Level) {op : Token} (hop : S op) {a b : Expr} (ha : a.Drawn S)
    (hb : b.Drawn S) : (l.join op a b).Drawn S := by
  cases l <;> exact ⟨hop, ha, hb⟩

/-- A loop that is put together from other forms has no token of its own. -/
theorem isDrawn_forLoop {init : Option Stmt} {test step : Option Expr} {body : Stmt}
    (hinit : ∀ s ∈ init, s.Drawn S) (htest : ∀ e ∈ test, e.Drawn S) (hstep : ∀ e ∈ step, e.Drawn S)
    (hbody : body.Drawn S) : (desugarFor init test step body).Drawn S := by
  have condition : (test.getD (.bool true)).Drawn S := by
    cases test with
    | none => trivial
    | some test => exact htest test rfl
  have rounds (s : Stmt) (hs : s.Drawn S) : (desugarFor init test none s).Drawn S := by
    cases init with
    | none => exact ⟨condition, hs⟩
    | some init => exact ⟨hinit init rfl, ⟨condition, hs⟩, trivial⟩
  cases step with
  | none => exact rounds body hbody
  | some step => exact rounds _ ⟨hbody, hstep step rfl, trivial⟩

/-- A tree is drawn from the tokens that are read as it. -/
theorem Derivation.isDrawn {c : Category} {u : List Token} {a : c.Tree} (h : Derivation c u a)
    (all : ∀ t ∈ u, S t ∧ t.Spelled) : IsDrawn S c a := by
  -- on the derivation: the tokens of a tree are those that it was derived from
  induction h with
  | assign kind _ _ ih =>
    simp only [List.forall_mem_cons] at all
    exact ⟨⟨all.1.1, all.1.2.name kind⟩, ih all.2.2⟩
  | set _ _ _ _ _ ihu ihv =>
    simp only [List.forall_mem_append, List.forall_mem_cons] at all
    exact ⟨ihu all.1, all.2.2.1.1, ihv all.2.2.2.2⟩
  | value _ ih | plain _ ih | statement _ ih => exact ih all
  | operand _ _ _ ihu ihw | callee _ _ ihu ihw =>
    simp only [List.forall_mem_append] at all
    exact ihw all.2 (ihu all.1)
  | chainEnd | suffixEnd => exact id
  | chainStep _ _ _ ihv ihw =>
    simp only [List.forall_mem_append, List.forall_mem_cons] at all
    exact fun ha => ihw all.2.2 (isDrawn_join _ all.1.1 ha (ihv all.2.1))
  | call _ _ _ _ ihv ihw =>
    simp only [List.forall_mem_append, List.forall_mem_cons] at all
    exact fun ha => ihw all.2.2.2 ⟨ha, all.2.2.1.1, ihv all.2.1⟩
  | get _ _ _ ih =>
    simp only [List.forall_mem_cons] at all
    exact fun ha => ih all.2.2 ⟨ha, all.2.1.1⟩
  | unary _ _ ih =>
    simp only [List.forall_mem_cons] at all
    exact ⟨all.1.1, ih all.2⟩
  | atom ha =>
    simp only [List.forall_mem_cons] at all
    cases ha with
    | thisKw | identifier => exact all.1.1
    | _ => trivial
  | super _ _ _ =>
    simp only [List.forall_mem_cons] at all
    exact ⟨all.1.1, all.2.2.1.1⟩
  | group _ _ _ ih =>
    simp only [List.forall_mem_append, List.forall_mem_cons] at all
    exact ih all.2.1
  | lambda _ _ _ _ _ _ _ ihu ihv =>
    simp only [List.forall_mem_append, List.forall_mem_cons] at all
    exact ⟨all.1.1, ihu all.2.2.1, ihv all.2.2.2.2.2.1⟩
  | noArguments | argumentsEnd | noDeclarations | noMethods => trivial
  | noParams | paramsEnd | noExpression | noInit | noSuperclass => simp [IsDrawn]
  | someSuperclass _ _ =>
    simp only [List.forall_mem_cons] at all
    rintro _ ⟨⟩
    exact all.2.1.1
  | arguments _ _ ihu ihw | declarations _ _ ihu ihw | methods _ _ ihu ihw =>
    simp only [List.forall_mem_append] at all
    exact ⟨ihu all.1, ihw all.2⟩
  | argument _ _ _ ihu ihw =>
    simp only [List.forall_mem_append, List.forall_mem_cons] at all
    exact ⟨ihu all.2.1, ihw all.2.2⟩
  | params _ _ ih =>
    simp only [List.forall_mem_cons] at all
    exact List.forall_mem_cons.mpr ⟨all.1.1, ih all.2⟩
  | param _ _ _ ih =>
    simp only [List.forall_mem_cons] at all
    exact List.forall_mem_cons.mpr ⟨all.2.1.1, ih all.2.2⟩
  | someExpression _ ih =>
    rintro _ ⟨⟩
    exact ih all
  | varInit _ _ ih =>
    simp only [List.forall_mem_cons] at all
    rintro _ ⟨⟩
    exact ih all.2
  | exprInit _ _ ih =>
    simp only [List.forall_mem_append] at all
    rintro _ ⟨⟩
    exact ih all.1
  | varNone kind _ =>
    simp only [List.forall_mem_cons] at all
    exact ⟨all.1.1, all.1.2.name kind⟩
  | varSome kind _ _ _ ih =>
    simp only [List.forall_mem_append, List.forall_mem_cons] at all
    exact ⟨⟨all.1.1, all.1.2.name kind⟩, ih all.2.2.1⟩
  | expr _ _ ih =>
    simp only [List.forall_mem_append] at all
    exact ih all.1
  | print _ _ _ ih | block _ _ _ ih =>
    simp only [List.forall_mem_append, List.forall_mem_cons] at all
    exact ih all.2.1
  | @ret _ _ _ value _ _ _ ih =>
    simp only [List.forall_mem_append, List.forall_mem_cons] at all
    cases value with
    | none => exact all.1.1
    | some value => exact ⟨all.1.1, ih all.2.1 value rfl⟩
  | loop _ _ _ _ _ ihu ihv | cond _ _ _ _ _ ihu ihv =>
    simp only [List.forall_mem_append, List.forall_mem_cons] at all
    exact ⟨ihu all.2.2.1, ihv all.2.2.2.2⟩
  | condElse _ _ _ _ _ _ _ ihu ihv ihw =>
    simp only [List.forall_mem_append, List.forall_mem_cons] at all
    exact ⟨ihu all.2.2.1, ihv all.2.2.2.2.1, ihw all.2.2.2.2.2.2⟩
  | forLoop _ _ _ _ _ _ _ _ ihu ihv ihw ihx =>
    simp only [List.forall_mem_append, List.forall_mem_cons] at all
    obtain ⟨-, -, su, sv, -, sw, -, sx⟩ := all
    exact isDrawn_forLoop (ihu su) (ihv sv) (ihw sw) (ihx sx)
  | var _ _ ih | «fun» _ _ ih =>
    simp only [List.forall_mem_cons] at all
    exact ih all.2
  | classDecl _ kind _ _ _ _ ihu ihv =>
    simp only [List.forall_mem_append, List.forall_mem_cons] at all
    exact ⟨⟨all.2.1.1, all.2.1.2.name kind⟩, ihu all.2.2.1, ihv all.2.2.2.2.1⟩
  | function kind _ _ _ _ _ _ ihu ihv =>
    simp only [List.forall_mem_append, List.forall_mem_cons] at all
    exact ⟨⟨all.1.1, all.1.2.name kind⟩, ihu all.2.2.1, ihv all.2.2.2.2.2.1⟩

end Grammar

/-! ### Trees with addresses -/

namespace Scope

variable {α β : Type} {S : Token → Prop} {P : α → Prop} {Q : β → Prop} {walk : Walker α}

/-- Whatever is known before the walk, its result satisfies `P`. -/
def Gives (walk : Walker α) (P : α → Prop) : Prop := ∀ w, P (walk w).1

theorem gives_pure {a : α} (h : P a) : Gives (pure a) P := fun _ => h

/-- What the first part gives is what the second part starts from. -/
theorem Gives.bind {next : α → Walker β} (h : Gives walk P)
    (hnext : ∀ a, P a → Gives (next a) Q) : Gives (walk >>= next) Q :=
  fun w => hnext _ (h w) (walk w).2

/-- A result is made of what the walk gives. -/
theorem Gives.map {f : α → β} (h : Gives walk P) (hf : ∀ a, P a → Q (f a)) :
    Gives (do return f (← walk)) Q :=
  h.bind fun a ha => gives_pure (hf a ha)

/-- A step that gives nothing decides nothing. -/
theorem Gives.after {step : Walker α} {next : α → Walker β} (h : ∀ a, Gives (next a) Q) :
    Gives (step >>= next) Q :=
  fun w => h _ (step w).2

/-- A scope around a walk changes none of its results. -/
theorem gives_within {names : Names} (h : Gives walk P) : Gives (within names walk) P :=
  .after fun _ => h.bind fun _ ha => .after fun _ => gives_pure ha

theorem gives_withinBody {body : Body} (h : Gives walk P) : Gives (withinBody body walk) P :=
  .after fun _ => h.bind fun _ ha => .after fun _ => gives_pure ha

theorem gives_withinClass {family : Family} (h : Gives walk P) :
    Gives (withinClass family walk) P :=
  .after fun _ => h.bind fun _ ha => .after fun _ => gives_pure ha

section References

variable {ref : Reference}

/-- A distance is written beside a name, and the name stays. -/
theorem gives_address (h : S ref.name) : Gives (address ref) fun ref => S ref.name :=
  .after fun _ => gives_pure h

theorem gives_addressVariable (h : S ref.name) :
    Gives (addressVariable ref) fun ref => S ref.name :=
  .after fun _ => gives_address h

theorem gives_addressThis (h : S ref.name) : Gives (addressThis ref) fun ref => S ref.name := by
  refine .after fun w => ?_
  split
  · exact .after fun _ => gives_pure h
  · exact gives_address h

theorem gives_addressSuper (h : S ref.name) : Gives (addressSuper ref) fun ref => S ref.name := by
  refine .after fun w => ?_
  split
  · exact .after fun _ => gives_pure h
  · exact .after fun _ => gives_pure h
  · exact gives_address h

end References

/-- Parameters are bound and the body is walked: its tokens stay. -/
theorem gives_body {kind : Body} {params : List Token} {body : List Stmt}
    (h : Gives (stmts body) (Stmt.AllDrawn S)) :
    Gives (withinBody kind (within [] do bindParams params; stmts body)) (Stmt.AllDrawn S) :=
  gives_withinBody (gives_within (.after fun _ => h))

mutual

/-- The tokens of a resolved expression are those of the expression. -/
theorem gives_expr : (e : Expr) → e.Drawn S → Gives (expr e) (Expr.Drawn S)
  | .number _, h | .string _, h | .bool _, h | .nil, h => gives_pure h
  | .gap, h => h.elim
  | .variable _, h => (gives_addressVariable h).map fun _ => id
  | .this _, h => (gives_addressThis h).map fun _ => id
  | .super _ _, h => (gives_addressSuper h.1).map fun _ href => ⟨href, h.2⟩
  -- the value is walked before the target, as the resolver does
  | .assign _ value, h =>
    (gives_expr value h.2).bind fun _ hv =>
      (gives_address (S := fun t => S t ∧ t.IsName) h.1).map fun _ href => ⟨href, hv⟩
  | .unary _ operand, h => (gives_expr operand h.2).map fun _ he => ⟨h.1, he⟩
  | .binary _ left right, h =>
    (gives_expr left h.2.1).bind fun _ ha => (gives_expr right h.2.2).map fun _ hb => ⟨h.1, ha, hb⟩
  | .logical _ left right, h =>
    (gives_expr left h.2.1).bind fun _ ha => (gives_expr right h.2.2).map fun _ hb => ⟨h.1, ha, hb⟩
  | .group inner, h => (gives_expr inner h).map fun _ => id
  | .call callee _ args, h =>
    (gives_expr callee h.1).bind fun _ hf =>
      (gives_exprs args h.2.2).map fun _ hargs => ⟨hf, h.2.1, hargs⟩
  | .get object _, h => (gives_expr object h.1).map fun _ ho => ⟨ho, h.2⟩
  | .set object _ value, h =>
    (gives_expr value h.2.2).bind fun _ hv =>
      (gives_expr object h.1).map fun _ ho => ⟨ho, h.2.1, hv⟩
  | .lambda _ _ body, h =>
    (gives_body (gives_stmts body h.2.2)).map fun _ hbody => ⟨h.1, h.2.1, hbody⟩

theorem gives_exprs : (es : List Expr) → Expr.AllDrawn S es → Gives (exprs es) (Expr.AllDrawn S)
  | [], h => gives_pure h
  | e :: rest, h =>
    (gives_expr e h.1).bind fun _ he => (gives_exprs rest h.2).map fun _ hrest => ⟨he, hrest⟩

/-- The tokens of a resolved statement are those of the statement. -/
theorem gives_stmt : (s : Stmt) → s.Drawn S → Gives (stmt s) (Stmt.Drawn S)
  | .expr e, h | .print e, h => (gives_expr e h).map fun _ => id
  | .gap, h => h.elim
  | .var _ none, h => .after fun _ => .after fun _ => gives_pure h
  | .var _ (some init), h =>
    .after fun _ => (gives_expr init h.2).bind fun _ hinit =>
      .after fun _ => gives_pure ⟨h.1, hinit⟩
  | .block body, h => (gives_within (gives_stmts body h)).map fun _ => id
  | .cond test yes none, h =>
    (gives_expr test h.1).bind fun _ htest => (gives_stmt yes h.2).map fun _ hyes => ⟨htest, hyes⟩
  | .cond test yes (some no), h =>
    (gives_expr test h.1).bind fun _ htest => (gives_stmt yes h.2.1).bind fun _ hyes =>
      (gives_stmt no h.2.2).map fun _ hno => ⟨htest, hyes, hno⟩
  | .loop test body, h =>
    (gives_expr test h.1).bind fun _ htest => (gives_stmt body h.2).map fun _ hbody =>
      ⟨htest, hbody⟩
  | .function decl, h =>
    .after fun _ => .after fun _ => (gives_function .function decl h).map fun _ => id
  | .ret _ none, h => .after fun _ => gives_pure h
  | .ret _ (some value), h => .after fun _ => (gives_expr value h.2).map fun _ hv => ⟨h.1, hv⟩
  | .classDecl _ none members, h => by
    rw [stmt_classDecl_none]
    exact .after fun _ => .after fun _ =>
      (gives_withinClass (gives_within (gives_methods members h.2.2))).map fun _ hmethods =>
        ⟨h.1, h.2.1, hmethods⟩
  | .classDecl _ (some ref) members, h => by
    rw [stmt_classDecl_some]
    exact .after fun _ => .after fun _ => .after fun _ =>
      (gives_addressVariable (h.2.1 ref rfl)).bind fun _ href =>
        (gives_withinClass (gives_within (gives_within (gives_methods members h.2.2)))).map
          fun _ hmethods => ⟨h.1, by rintro _ ⟨⟩; exact href, hmethods⟩

theorem gives_stmts : (body : List Stmt) → Stmt.AllDrawn S body →
    Gives (stmts body) (Stmt.AllDrawn S)
  | [], h => gives_pure h
  | s :: rest, h =>
    (gives_stmt s h.1).bind fun _ hs => (gives_stmts rest h.2).map fun _ hrest => ⟨hs, hrest⟩

/-- The tokens of a resolved function are those of the function. -/
theorem gives_function (kind : Body) : (f : Function) → f.Drawn S →
    Gives (function kind f) (Function.Drawn S)
  | ⟨_, _, body⟩, h =>
    (gives_body (gives_stmts body h.2.2)).map fun _ hbody => ⟨h.1, h.2.1, hbody⟩

theorem gives_methods : (fs : List Function) → Function.AllDrawn S fs →
    Gives (methods fs) (Function.AllDrawn S)
  | [], h => gives_pure h
  | f :: rest, h =>
    (gives_function _ f h.1).bind fun _ hf => (gives_methods rest h.2).map fun _ hrest =>
      ⟨hf, hrest⟩

end

/-- Resolving a program draws its tokens from where they were drawn. -/
theorem drawn_resolve {p : Program} (h : Stmt.AllDrawn S p.body) :
    Stmt.AllDrawn S (resolve p).program.body :=
  gives_stmts p.body h {}

end Scope

end Lox
