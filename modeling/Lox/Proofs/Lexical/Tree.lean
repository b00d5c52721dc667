import Lox.Proofs.Lexical.Walk

/-!
The walk accounts for every part of a program: by recursion over the tree, the part that comes out
has the lexical addresses, and what is reported is what is wrong with the part and with all parts
inside.
-/

namespace Lox.Scope

open Spot

section Parts

variable {α : Type} {a : Surroundings} {walk : Walker α} {Q : α → List ScopeError → Prop}

/-- A walk that declares nothing. -/
theorem Explores.still (h : Explores a walk a Q) : Explores a walk (a.declaring []) Q := by
  rwa [Surroundings.declaring_nil]

/-- An expression with nothing inside, neither a use nor wrong. -/
theorem explores_leaf {e : Expr} (leaf : a.insideExpr e = []) (unused : e.use? = none)
    (right : ∀ error, ¬ Offends ⟨.expr e, a⟩ error) :
    Explores a (pure e) a fun e' f => Accounts ⟨.expr e, a⟩ ⟨.expr e', a⟩ f := by
  have label : Labelled ⟨.expr e, a⟩ ⟨.expr e, a⟩ := by
    have unused' : Spot.use? ⟨.expr e, a⟩ = none := unused
    unfold Labelled
    rw [unused']
  exact explores_pure ((Owns.none right).leaf leaf leaf label)

/-- The walk through the parameters and the statements of a body. -/
theorem explores_body {kind : Body} {params : List Token} {body : List Stmt} {b : Surroundings}
    (h : Explores ((a.inBody kind).declaring (params.map (·.lexeme))) (stmts body) b
      fun body' f => AccountsAll (((a.inBody kind).declaring (params.map (·.lexeme))).stmts body)
        (((a.inBody kind).declaring (params.map (·.lexeme))).stmts body') f) :
    Explores a (withinBody kind (within [] (do bindParams params; stmts body))) a
      fun body' f => AccountsAll (a.function kind params body) (a.function kind params body') f :=
  explores_withinBody (explores_within knows_nil finished_nil
    ((explores_bindParams rfl params).bind fun _ _ bound => h.mono fun _ _ hbody =>
      bound.append hbody))

/-- The methods of a class see `this`. -/
theorem explores_base {b : Surroundings} (h : Explores (a.inClass .base) walk b Q) :
    Explores a (withinClass .base (within [("this", true)] walk)) a Q :=
  explores_withinClass (explores_within (knows_single "this") (Context.finished_single "this") h)

/-- The methods of an heir see `super` and `this`. -/
theorem explores_derived {b : Surroundings} (h : Explores (a.inClass .derived) walk b Q) :
    Explores a (withinClass .derived (within [("super", true)] (within [("this", true)] walk))) a
      Q :=
  explores_withinClass (explores_within (knows_single "super") (Context.finished_single "super")
    (explores_within (knows_single "this") (Context.finished_single "this") h))

end Parts

mutual

/-- An expression is walked through with what surrounds it, and its errors are reported. -/
theorem explores_expr (a : Surroundings) : (e : Expr) → Explores a (expr e) a fun e' f =>
    Accounts ⟨.expr e, a⟩ ⟨.expr e', a⟩ f
  | .number _ | .string _ | .bool _ | .nil | .gap =>
    explores_leaf rfl rfl fun _ h => by cases h
  | .variable ref => (explores_addressVariable ref).map fun _ _ h => h
  | .assign ref value => by
    refine (explores_expr a value).bind fun value' f hvalue =>
      (explores_address (e := .assign ref value) trivial ref).map ?_
    rintro ref' _ ⟨rfl, same, recorded⟩
    rw [List.append_nil]
    exact .node hvalue.single ⟨ref', rfl, same, recorded⟩ (.none fun _ h => by cases h) (.refl f)
  | .unary _ operand =>
    (explores_expr a operand).map fun _ _ h => .plain h.single rfl rfl fun _ h => by cases h
  | .binary _ left right | .logical _ left right =>
    (explores_expr a left).bind fun _ _ hl => (explores_expr a right).map fun _ _ hr =>
      .plain (.cons hl hr.single) rfl rfl fun _ h => by cases h
  | .group inner =>
    (explores_expr a inner).map fun _ _ h => .plain h.single rfl rfl fun _ h => by cases h
  | .call callee _ args =>
    (explores_expr a callee).bind fun _ _ h => (explores_exprs a args).map fun _ _ hs =>
      .plain (.cons h hs) rfl rfl fun _ h => by cases h
  | .get object _ =>
    (explores_expr a object).map fun _ _ h => .plain h.single rfl rfl fun _ h => by cases h
  | .set object _ value =>
    -- The value comes first in the walk, and second in the tree.
    (explores_expr a value).bind fun _ _ hvalue => (explores_expr a object).map fun _ _ hobject =>
      .node (.cons hobject hvalue.single) rfl (.none fun _ h => by cases h) List.perm_append_comm
  | .this ref => (explores_addressThis ref).map fun _ _ h => h
  | .super ref method => (explores_addressSuper ref method).map fun _ _ h => h
  | .lambda _ params body =>
    (explores_body (explores_stmts
      ((a.inBody .function).declaring (params.map (·.lexeme))) rfl body)).map fun _ _ h =>
        .plain h rfl rfl fun _ h => by cases h

theorem explores_exprs (a : Surroundings) : (es : List Expr) → Explores a (exprs es) a fun es' f =>
    AccountsAll (a.exprs es) (a.exprs es') f
  | [] => explores_pure .nil
  | e :: rest =>
    (explores_expr a e).bind fun _ _ h => (explores_exprs a rest).map fun _ _ hs => .cons h hs

/-- A statement is walked through, and what it declares surrounds what comes next. -/
theorem explores_stmt (a : Surroundings) (quiet : a.initializer = none) : (s : Stmt) →
    Explores a (stmt s) (a.declaring s.declares) fun s' f =>
      Accounts ⟨.stmt s, a⟩ ⟨.stmt s', a⟩ f ∧ s'.declares = s.declares
  | .expr e | .print e =>
    ((explores_expr a e).map fun _ _ h =>
      ⟨.plain h.single rfl rfl fun _ h => (by cases h), rfl⟩).still
  | .var name none =>
    explores_declared quiet name fun f h => explores_pure (by
      rw [List.append_nil]
      exact ⟨.plain h.single rfl rfl fun _ h => (by cases h), rfl⟩)
  | .var name (some init) => by
    refine (explores_declare quiet name).bind fun _ f hname =>
      (explores_expr (a.initializing name.lexeme) init).bind fun init' g hinit =>
        (explores_define quiet name).map ?_
    rintro _ _ rfl
    rw [List.append_nil]
    exact ⟨.plain (.cons hname hinit.single) rfl rfl fun _ h => (by cases h), rfl⟩
  | .block body =>
    ((explores_within knows_nil finished_nil (explores_stmts (a.opening []) rfl body)).map
      fun _ _ h => ⟨.plain h rfl rfl fun _ h => (by cases h), rfl⟩).still
  | .cond test yes none =>
    (explores_expr a test).bind fun _ _ ht => (explores_stmt a quiet yes).map fun _ _ hy =>
      ⟨.plain (.cons ht hy.1.single) rfl rfl fun _ h => (by cases h), hy.2⟩
  | .cond test yes (some no) => by
    have other := explores_stmt (a.declaring yes.declares) quiet no
    rw [Surroundings.declaring_declaring] at other
    refine (explores_expr a test).bind fun test' _ ht => (explores_stmt a quiet yes).bind
      fun yes' _ hy => other.map fun no' _ hn => ⟨?_, ?_⟩
    · refine .plain (.cons ht (.cons hy.1 ?_)) rfl rfl fun _ h => by cases h
      rw [hy.2]
      exact hn.1.single
    · show yes'.declares ++ no'.declares = yes.declares ++ no.declares
      rw [hy.2, hn.2]
  | .loop test body =>
    (explores_expr a test).bind fun _ _ ht => (explores_stmt a quiet body).map fun _ _ hb =>
      ⟨.plain (.cons ht hb.1.single) rfl rfl fun _ h => (by cases h), hb.2⟩
  | .function decl => by
    refine explores_declared quiet decl.name fun _ hname =>
      (explores_function (a.declaring [decl.name.lexeme]) .function decl).map fun decl' _ h => ?_
    obtain ⟨h, same⟩ := h
    refine ⟨.plain (.cons ?_ ?_) rfl rfl fun _ h => (by cases h), ?_⟩
    · rw [same]
      exact hname
    · rw [same]
      exact h
    · show [decl'.name.lexeme] = [decl.name.lexeme]
      rw [same]
  | .ret keyword none => by
    refine ((explores_checkReturn keyword none).map fun _ _ own => ?_).still
    exact ⟨own.leaf rfl rfl rfl, rfl⟩
  | .ret keyword (some value) => by
    refine ((explores_checkReturn keyword (some value)).bind fun _ _ own =>
      (explores_expr a value).map fun _ _ h => ?_).still
    exact ⟨.node h.single rfl own (.refl _), rfl⟩
  | .classDecl name none members => by
    rw [stmt_classDecl_none]
    exact explores_declared quiet name fun _ hname =>
      (explores_base (explores_methods (a.declaring [name.lexeme]) .base members)).map fun _ _ h =>
        ⟨.plain (.cons hname h) rfl rfl fun _ h => (by cases h), rfl⟩
  | .classDecl name (some superclass) members => by
    rw [stmt_classDecl_some]
    exact explores_declared quiet name fun _ hname =>
      (explores_checkSuperclass name superclass).bind fun _ _ hclause =>
        (explores_addressVariable superclass).bind fun superclass' _ hsuper =>
          (explores_derived (explores_methods (a.declaring [name.lexeme]) .derived members)).map
            fun _ _ h => ⟨.plain (.cons hname (.cons (hclause superclass') (.cons hsuper h))) rfl
              rfl fun _ h => (by cases h), rfl⟩
  | .gap => (explores_pure ⟨(Owns.none fun _ h => by cases h).leaf rfl rfl rfl, rfl⟩).still

/-- Statements are walked through in turn. -/
theorem explores_stmts (a : Surroundings) (quiet : a.initializer = none) : (body : List Stmt) →
    Explores a (stmts body) (a.declaring (body.flatMap Stmt.declares)) fun body' f =>
      AccountsAll (a.stmts body) (a.stmts body') f
  | [] => (explores_pure .nil).still
  | s :: rest => by
    have later := explores_stmts (a.declaring s.declares) quiet rest
    rw [Surroundings.declaring_declaring] at later
    refine (explores_stmt a quiet s).bind fun s' _ h => later.map fun rest' _ hs => ?_
    rw [Surroundings.stmts_cons, Surroundings.stmts_cons, h.2]
    exact .cons h.1 hs

/-- A function is walked through with its parameters around its body. -/
theorem explores_function (a : Surroundings) (kind : Body) : (f : Function) →
    Explores a (function kind f) a fun f' found =>
      AccountsAll (a.function kind f.params f.body) (a.function kind f'.params f'.body) found ∧
        f'.name = f.name
  | ⟨_, params, body⟩ =>
    (explores_body (explores_stmts
      ((a.inBody kind).declaring (params.map (·.lexeme))) rfl body)).map fun _ _ h => ⟨h, rfl⟩

/-- The methods of a class are walked through in turn. -/
theorem explores_methods (a : Surroundings) (family : Family) : (fs : List Function) →
    Explores (a.inClass family) (methods fs) (a.inClass family) fun fs' f =>
      AccountsAll (a.methods family fs) (a.methods family fs') f
  | [] => explores_pure .nil
  | f :: rest => by
    refine (explores_function (a.inClass family) (methodBody f) f).bind fun f' _ h =>
      (explores_methods a family rest).map fun _ _ hs => ?_
    obtain ⟨h, same⟩ := h
    refine .cons (.plain ?_ rfl rfl fun _ h => by cases h) hs
    have kind : methodBody f' = methodBody f := by rw [methodBody, Function.isInit, same]; rfl
    show AccountsAll ((a.inClass family).function _ _ _) ((a.inClass family).function _ _ _) _
    rw [kind]
    exact h

end

/-- Outside of everything there is nothing. -/
theorem shows_top : Surroundings.Shows {} {} :=
  ⟨.nil, fun _ => Surroundings.Shows.unfinished_nil, rfl, rfl⟩

/-- The walk accounts for a whole program. -/
theorem accounts_resolve (p : Program) :
    Accounts p.spot (resolve p).program.spot (resolve p).errors := by
  obtain ⟨scopes, found, left, -, -, all⟩ := explores_stmts {} rfl p.body {} shows_top
  have errors : (resolve p).errors = found := congrArg Walk.errors left
  rw [errors]
  exact .plain all rfl rfl fun _ h => by cases h

end Lox.Scope
