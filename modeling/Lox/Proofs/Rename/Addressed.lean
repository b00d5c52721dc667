import Lox.Proofs.Rename.Suits
import Lox.Proofs.Scope.Settle
import Mathlib.Data.List.Forall2

/-!
A program with another name for a variable is addressed as before: every scope declares what it did,
the variable under its new name, so every use finds its scope at the same distance.
-/

namespace Lox.Scope

open Renaming

variable {r : Renaming}

/-! ### Scopes with another name -/

/-- The second scope declares the old name as the new one, if it is the scope that is meant. -/
structure NamesLike (r : Renaming) (b : Bool) (names names' : Names) : Prop where
  same : ∀ n, Bindings.get? n names' = Bindings.get? (r.swap b n) names
  fresh : Bindings.get? r.new names = none

theorem namesLike_nil (b : Bool) : NamesLike r b [] [] := ⟨fun _ => rfl, rfl⟩

/-- A name is added under its name in each program. -/
theorem NamesLike.insert {b : Bool} {names names' : Names} (h : NamesLike r b names names')
    {n : String} (fresh : n ≠ r.new) (done : Bool) :
    NamesLike r b (Bindings.insert n done names) (Bindings.insert (r.name b n) done names') := by
  constructor
  · intro m
    rw [name_eq_swap fresh, Bindings.get?_insert, Bindings.get?_insert, h.same]
    simp only [swap_name_eq_iff]
  · rw [Bindings.get?_insert, if_neg fresh.symm]
    exact h.fresh

/-- Names that only calls bind are the same in both programs. -/
theorem namesLike_keyword (proper : r.Proper) (b : Bool) {keyword : String}
    (h : Token.Kind.ofWord keyword ≠ .identifier) :
    NamesLike r b [(keyword, true)] [(keyword, true)] := by
  have inserted := (namesLike_nil (r := r) b).insert (n := keyword) ?_ true
  · rwa [name_eq_swap, proper.swap_keyword h] at inserted
    rintro rfl
    exact h proper.new
  · rintro rfl
    exact h proper.new

/-- A name that is bound under its own or its new name. -/
theorem NamesLike.get?_name {b : Bool} {names names' : Names} (h : NamesLike r b names names')
    {n : String} (fresh : n ≠ r.new) (b' : Bool) :
    Bindings.get? (r.name b' n) names' = Bindings.get? n names ∨
      Bindings.get? (r.name b' n) names' = none := by
  have unbound := h.fresh
  rw [h.same]
  unfold Renaming.name swap
  grind

/-- A name is bound in both programs, or in neither. -/
theorem NamesLike.binds_name {b : Bool} {names names' : Names} (h : NamesLike r b names names')
    {n : String} (fresh : n ≠ r.new) :
    Bindings.binds (r.name b n) names' = Bindings.binds n names := by
  unfold Bindings.binds
  rw [h.same, name_eq_swap fresh, swap_swap]

/-! ### Contexts with another name -/

def ScopesLike (r : Renaming) : List LocalScope → List LocalScope → Prop :=
  List.Forall₂ fun s s' => NamesLike r (s.place = r.scope) s.names s'.names

structure Matches (r : Renaming) (c c' : Context) : Prop where
  scopes : ScopesLike r c.scopes c'.scopes
  body : c'.body = c.body
  family : c'.family = c.family

/-- The nearest scope that declares a name is the nearest that declares its new one. -/
theorem ScopesLike.hops?_name {scopes scopes' : List LocalScope} (h : ScopesLike r scopes scopes')
    {n : String} (fresh : n ≠ r.new) {b : Bool}
    (hb : b = decide (((hops? (scopes.map (·.names)) n).bind
      fun d => (scopes.map (·.place))[d]?) = some r.scope)) :
    hops? (scopes'.map (·.names)) (r.name b n) = hops? (scopes.map (·.names)) n := by
  -- from the innermost scope outward: the first that binds the name is the first that binds its new
  -- one
  induction h with
  | nil => rfl
  | @cons s s' rest rest' first _ ih =>
    simp only [hops?, List.map_cons, List.findIdx?_cons] at hb ih ⊢
    cases bound : Bindings.binds n s.names with
    | true =>
      have here : b = decide (s.place = r.scope) := by simpa [bound] using hb
      rw [here, first.binds_name fresh, bound, if_pos rfl, if_pos rfl]
    | false =>
      have later : b = decide ((((rest.map (·.names)).findIdx? (Bindings.binds n)).bind
          fun d => (rest.map (·.place))[d]?) = some r.scope) := by
        simpa [bound, Option.bind_map, Function.comp_def] using hb
      -- the new name is bound nowhere else, since it is fresh
      have unbound : Bindings.binds (r.name b n) s'.names = false := by
        unfold Bindings.binds at bound ⊢
        obtain same | none := first.get?_name fresh b
        · rw [same, bound]
        · rw [none]
          rfl
      rw [unbound, ih later]

section Matches

variable {c c' : Context} {π : Place}

/-- The scopes of the context are those around the place. -/
def Context.Lies (c : Context) (π : Place) : Prop := c.scopes.map (·.place) = enclosing π

/-- A name that is declared opens no scope. -/
theorem Context.Lies.mark (lies : c.Lies π) (n : String) (done : Bool) :
    (c.mark n done).Lies π := by
  obtain ⟨scopes, body, family⟩ := c
  cases scopes <;> exact lies

/-- A statement that is through leaves no scope open. -/
theorem Context.Lies.after (lies : c.Lies π) (s : Stmt) : (s.after c).Lies π := by
  cases s with
  | var | function | classDecl => exact lies.mark _ _
  | _ => exact lies

/-- A step that opens a scope is where the scope lies. -/
theorem Context.Lies.enter (lies : c.Lies π) (step : Step) (opens : step.opens = true)
    (names : Names) : (c.enter (step :: π) names).Lies (step :: π) := by
  unfold Context.Lies at lies ⊢
  rw [enclosing, if_pos opens, ← lies]
  rfl

/-- In the innermost scope the name has what it had, or nothing if there is no such scope. -/
theorem Matches.get?_innermost (h : Matches r c c') {n : String} (fresh : n ≠ r.new) (b : Bool) :
    Bindings.get? (r.name b n) c'.innermost = Bindings.get? n c.innermost ∨
      Bindings.get? (r.name b n) c'.innermost = none := by
  obtain ⟨scopes, body, family⟩ := c
  obtain ⟨scopes', body', family'⟩ := c'
  obtain ⟨scopes, -, -⟩ := h
  cases scopes with
  | nil => exact .inr rfl
  | cons first _ => exact first.get?_name fresh b

/-- A name that may be declared may be declared under its new name. -/
theorem Matches.new (h : Matches r c c') (lies : c.Lies π) {t : Token} (fresh : t.lexeme ≠ r.new)
    (new : c.New t) : c'.New (r.declared π t) := by
  obtain ⟨scopes, body, family⟩ := c
  obtain ⟨scopes', body', family'⟩ := c'
  obtain ⟨scopes, -, -⟩ := h
  cases scopes with
  | nil => rfl
  | @cons s s' rest rest' first _ =>
    have holds : r.holds π = decide (s.place = r.scope) := by
      rw [Renaming.holds, ← show _ = enclosing π from lies]
      simp
    show Bindings.binds (r.name (r.holds π) t.lexeme) s'.names = false
    rw [holds, first.binds_name fresh]
    exact new

/-- A name is marked under its name in each program. -/
theorem Matches.mark (h : Matches r c c') (lies : c.Lies π) {n : String} (fresh : n ≠ r.new)
    (done : Bool) : Matches r (c.mark n done) (c'.mark (r.name (r.holds π) n) done) := by
  obtain ⟨scopes, body, family⟩ := c
  obtain ⟨scopes', body', family'⟩ := c'
  obtain ⟨scopes, hbody, hfamily⟩ := h
  cases scopes with
  | nil => exact ⟨.nil, hbody, hfamily⟩
  | @cons s s' rest rest' first others =>
    have holds : r.holds π = decide (s.place = r.scope) := by
      rw [Renaming.holds, ← show _ = enclosing π from lies]
      simp
    refine ⟨.cons ?_ others, hbody, hfamily⟩
    rw [holds]
    exact first.insert fresh done

/-- A declaration that is spared keeps its name. -/
theorem name_of_spares {t : Token} (spares : r.Spares π t) :
    r.name (r.holds π) t.lexeme = t.lexeme := by
  unfold Renaming.name
  rw [if_neg]
  rintro ⟨holds, old⟩
  exact (spares holds).1 old

/-- A name that is spared is marked as it is. -/
theorem Matches.mark_spared (h : Matches r c c') (lies : c.Lies π) {t : Token}
    (fresh : r.new ≠ t.lexeme) (spares : r.Spares π t) (done : Bool) :
    Matches r (c.mark t.lexeme done) (c'.mark t.lexeme done) := by
  have marked := h.mark lies fresh.symm done
  rwa [name_of_spares spares] at marked

/-- A name that is spared may be declared as before. -/
theorem Matches.new_spared (h : Matches r c c') (lies : c.Lies π) {t : Token}
    (fresh : r.new ≠ t.lexeme) (spares : r.Spares π t) (new : c.New t) : c'.New t := by
  have named := h.new lies fresh.symm new
  unfold Context.New Renaming.declared Renaming.token at named
  rwa [name_of_spares spares] at named

/-- Both programs open a scope, with like names in it. -/
theorem Matches.enter (h : Matches r c c') (place place' : Place) {names names' : Names}
    (like : NamesLike r (place = r.scope) names names') :
    Matches r (c.enter place names) (c'.enter place' names') :=
  ⟨.cons like h.scopes, h.body, h.family⟩

/-- A use finds the same scope under its name in each program. -/
theorem Matches.refers (h : Matches r c c') (lies : c.Lies π) {ref : Reference}
    (fresh : ref.name.lexeme ≠ r.new) (refers : c.Refers ref) : c'.Refers (r.used π ref) := by
  have reached : r.reaches π ref.hops = decide (((hops? (c.scopes.map (·.names))
      ref.name.lexeme).bind fun d => (c.scopes.map (·.place))[d]?) = some r.scope) := by
    rw [Renaming.reaches, show c.scopes.map (·.place) = enclosing π from lies,
      show ref.hops = (hops? c.names ref.name.lexeme).map Int.ofNat from refers, Option.bind_map]
    rfl
  have hops := h.scopes.hops?_name fresh reached
  exact Eq.trans refers (congrArg _ hops.symm)

/-- A name that may be read may be read under its new name. -/
theorem Matches.reads (h : Matches r c c') (lies : c.Lies π) {ref : Reference}
    (fresh : ref.name.lexeme ≠ r.new) (reads : c.Reads ref) : c'.Reads (r.used π ref) := by
  refine ⟨?_, h.refers lies fresh reads.2⟩
  show Bindings.get? (r.name _ ref.name.lexeme) c'.innermost ≠ some false
  obtain same | none := h.get?_innermost fresh (r.reaches π ref.hops)
  · rw [same]
    exact reads.1
  · rw [none]
    exact nofun

/-- Uses of keywords are not renamed. -/
theorem Matches.refers_keyword (h : Matches r c c') (lies : c.Lies π) (proper : r.Proper)
    {ref : Reference} (keyword : Token.Kind.ofWord ref.name.lexeme ≠ .identifier)
    (refers : c.Refers ref) : c'.Refers ref := by
  have fresh : ref.name.lexeme ≠ r.new := fun same => keyword (same ▸ proper.new)
  have named := h.refers lies fresh refers
  unfold Context.Refers Renaming.used Renaming.token at named
  rwa [name_eq_swap fresh, proper.swap_keyword keyword] at named

/-- Parameters are bound under their names in each program. -/
theorem namesLike_params (b : Bool) {params : List Token} (fresh : ∀ t ∈ params, t.lexeme ≠ r.new)
    {names names' : Names} (like : NamesLike r b names names') :
    NamesLike r b (Context.paramNames params names)
      (Context.paramNames (params.map (r.token b)) names') := by
  induction params generalizing names names' with
  | nil => exact like
  | cons t rest ih =>
    obtain ⟨first, others⟩ := List.forall_mem_cons.mp fresh
    exact ih others (like.insert first true)

/-- Parameters with different names have different names in both programs. -/
theorem newParams_map (b : Bool) {params : List Token} (fresh : ∀ t ∈ params, t.lexeme ≠ r.new)
    {names names' : Names} (like : NamesLike r b names names') (new : NewParams params names) :
    NewParams (params.map (r.token b)) names' := by
  induction params generalizing names names' with
  | nil => trivial
  | cons t rest ih =>
    obtain ⟨first, others⟩ := List.forall_mem_cons.mp fresh
    exact ⟨(like.binds_name first).trans new.1, ih others (like.insert first true) new.2⟩

end Matches

/-! ### Programs with another name -/

section Addressed

variable {c c' : Context} {π : Place}

/-- A step that opens no scope makes no difference. -/
theorem Context.Lies.step (lies : c.Lies π) (step : Step) (opens : step.opens = false) :
    c.Lies (step :: π) := by
  unfold Context.Lies
  rw [enclosing, if_neg (by simp [opens])]
  exact lies

theorem Context.Lies.part (lies : c.Lies π) (i : Nat) : c.Lies (.part i :: π) := lies.step _ rfl

/-- A body lies in the scope of its parameters. -/
theorem Context.Lies.function (lies : c.Lies π) (kind : Body) (params : List Token) :
    (c.function kind π params).Lies (.body :: π) :=
  lies.enter .body rfl _

/-- Methods lie in the scope of their instance. -/
theorem Context.Lies.base (lies : c.Lies π) : (c.base π).Lies (.this :: π) :=
  lies.enter .this rfl _

/-- Methods of an heir lie in the scope of its superclass as well. -/
theorem Context.Lies.derived (lies : c.Lies π) : (c.derived π).Lies (.this :: .super :: π) :=
  (lies.enter .super rfl _).enter .this rfl _

/-- A step that opens a scope holds what that scope holds. -/
theorem holds_cons {step : Step} (opens : step.opens = true) :
    r.holds (step :: π) = decide (step :: π = r.scope) := by
  rw [Renaming.holds, enclosing, if_pos opens]
  simp

/-- A body has its parameters, under their names in each program. -/
theorem Matches.function (h : Matches r c c') {params : List Token}
    (fresh : ∀ t ∈ params, t.lexeme ≠ r.new) (kind : Body) (π' : Place) :
    Matches r (c.function kind π params)
      (c'.function kind π' (params.map (r.declared (.body :: π)))) := by
  have like := namesLike_params (r.holds (.body :: π)) fresh (namesLike_nil _)
  rw [holds_cons rfl] at like
  have entered := h.enter (.body :: π) (.body :: π') like
  rw [← holds_cons rfl] at entered
  exact ⟨entered.scopes, rfl, h.family⟩

/-- The scope of an instance is the same in both programs. -/
theorem Matches.base (h : Matches r c c') (proper : r.Proper) (π' : Place) :
    Matches r (c.base π) (c'.base π') :=
  ⟨.cons (namesLike_keyword proper _ (by decide)) h.scopes, h.body, rfl⟩

/-- The scopes of an heir are the same in both programs. -/
theorem Matches.derived (h : Matches r c c') (proper : r.Proper) (π' : Place) :
    Matches r (c.derived π) (c'.derived π') :=
  ⟨.cons (namesLike_keyword proper _ (by decide))
    (.cons (namesLike_keyword proper _ (by decide)) h.scopes), h.body, rfl⟩

/-- The new name is one that a program can spell. -/
theorem isName_token (proper : r.Proper) (b : Bool) {t : Token} (h : t.IsName) :
    (r.token b t).IsName := by
  show Token.Kind.ofWord (r.name b t.lexeme) = .identifier
  unfold Renaming.name
  split
  · exact proper.new
  · exact h

/-- The parameters of a function. -/
theorem params_rename {params : List Token} (proper : r.Proper)
    (fresh : ∀ t ∈ params, t.lexeme ≠ r.new)
    (h : (∀ t ∈ params, t.IsName) ∧ NewParams params []) (π : Place) :
    (∀ t ∈ params.map (r.declared π), t.IsName) ∧
      NewParams (params.map (r.declared π)) [] := by
  refine ⟨?_, newParams_map _ fresh (namesLike_nil _) h.2⟩
  intro t ht
  obtain ⟨u, hu, rfl⟩ := List.mem_map.mp ht
  exact isName_token proper _ (h.1 u hu)

/-- A declaration stays one under another name. -/
theorem isDeclaration_rename (s : Stmt) : (s.rename r π).isDeclaration = s.isDeclaration := by
  unfold Stmt.rename
  split <;> rfl

/-- The context after a statement with another name. -/
theorem Matches.after (h : Matches r c c') (lies : c.Lies π) {s : Stmt} (fresh : r.new ∉ s.names)
    (suits : s.Suits r π) : Matches r (s.after c) ((s.rename r π).after c') := by
  cases s with
  | var name init =>
    cases init with
    | none =>
      simp only [Stmt.names, List.mem_singleton] at fresh
      exact h.mark lies (Ne.symm fresh) true
    | some init =>
      simp only [Stmt.names, List.mem_cons, not_or] at fresh
      exact h.mark lies (Ne.symm fresh.1) true
  -- a function and a class keep their names, so their marks are the same
  | function decl =>
    obtain ⟨name, params, body⟩ := decl
    simp only [Stmt.names, List.mem_cons, not_or] at fresh
    exact h.mark_spared lies fresh.1 suits.1 true
  | classDecl name superclass methods =>
    cases superclass with
    | none =>
      simp only [Stmt.names, List.mem_cons, not_or] at fresh
      exact h.mark_spared lies fresh.1 suits.1 true
    | some superclass =>
      simp only [Stmt.names, List.mem_cons, not_or] at fresh
      exact h.mark_spared lies fresh.1 suits.1 true
  | cond test yes no => cases no <;> exact h
  | ret keyword value => cases value <;> exact h
  | _ => exact h

mutual

/-- An expression that has the addresses it should have keeps them under the new name. -/
theorem addressed_expr (proper : r.Proper) {c c' : Context} : (e : Expr) → (π π' : Place) →
    c.Lies π → Matches r c c' → e.Addressed c π → r.new ∉ e.names → e.Suits r π →
      (e.rename r π).Addressed c' π'
  | .number _, _, _, _, _, _, _, _ | .string _, _, _, _, _, _, _, _ | .bool _, _, _, _, _, _, _, _
  | .nil, _, _, _, _, _, _, _ => trivial
  | .variable _, π, _, lies, h, addressed, fresh, _ => by
    simp only [Expr.names, List.mem_singleton] at fresh
    exact ⟨h.reads lies (Ne.symm fresh) addressed.1, isName_token proper _ addressed.2⟩
  -- the value is resolved first, in the same context
  | .assign _ value, π, π', lies, h, addressed, fresh, suits => by
    simp only [Expr.names, List.mem_cons, not_or] at fresh
    exact ⟨addressed_expr proper value _ _ (lies.part 0) h addressed.1 fresh.2 suits.2,
      h.refers lies (Ne.symm fresh.1) addressed.2.1, isName_token proper _ addressed.2.2⟩
  | .unary _ operand, π, π', lies, h, addressed, fresh, suits =>
    ⟨addressed_expr proper operand _ _ (lies.part 0) h addressed.1 fresh suits, addressed.2⟩
  | .group operand, π, π', lies, h, addressed, fresh, suits
  | .get operand _, π, π', lies, h, addressed, fresh, suits =>
    addressed_expr proper operand _ _ (lies.part 0) h addressed fresh suits
  | .binary _ left right, π, π', lies, h, addressed, fresh, suits => by
    simp only [Expr.names, List.mem_append, not_or] at fresh
    exact ⟨addressed_expr proper left _ _ (lies.part 0) h addressed.1 fresh.1 suits.1,
      addressed_expr proper right _ _ (lies.part 1) h addressed.2.1 fresh.2 suits.2, addressed.2.2⟩
  | .logical _ left right, π, π', lies, h, addressed, fresh, suits => by
    simp only [Expr.names, List.mem_append, not_or] at fresh
    exact ⟨addressed_expr proper left _ _ (lies.part 0) h addressed.1 fresh.1 suits.1,
      addressed_expr proper right _ _ (lies.part 1) h addressed.2 fresh.2 suits.2⟩
  | .call callee _ args, π, π', lies, h, addressed, fresh, suits => by
    simp only [Expr.names, List.mem_append, not_or] at fresh
    exact ⟨addressed_expr proper callee _ _ (lies.part 0) h addressed.1 fresh.1 suits.1,
      addressed_exprs proper args π π' 1 lies h addressed.2 fresh.2 suits.2⟩
  | .set object _ value, π, π', lies, h, addressed, fresh, suits => by
    simp only [Expr.names, List.mem_append, not_or] at fresh
    exact ⟨addressed_expr proper value _ _ (lies.part 1) h addressed.1 fresh.2 suits.2,
      addressed_expr proper object _ _ (lies.part 0) h addressed.2 fresh.1 suits.1⟩
  | .this ref, π, π', lies, h, addressed, _, _ =>
    ⟨addressed.1, h.family ▸ addressed.2.1,
      h.refers_keyword lies proper (by rw [addressed.1]; decide) addressed.2.2⟩
  | .super ref _, π, π', lies, h, addressed, _, _ =>
    ⟨addressed.1, h.family ▸ addressed.2.1,
      h.refers_keyword lies proper (by rw [addressed.1]; decide) addressed.2.2⟩
  -- inside the body the parameters are bound, under their new names if they are the declaration
  | .lambda _ params body, π, π', lies, h, addressed, fresh, suits => by
    simp only [Expr.names, List.mem_append, not_or] at fresh
    exact ⟨params_rename proper (fresh_params fresh.1) addressed.1 _,
      addressed_stmts proper body _ _ 0 (lies.function _ _)
        (h.function (fresh_params fresh.1) .function π') addressed.2 fresh.2 suits.2⟩

/-- Expressions keep their addresses, one after the other. -/
theorem addressed_exprs (proper : r.Proper) {c c' : Context} : (es : List Expr) → (π π' : Place) →
    (i : Nat) → c.Lies π → Matches r c c' → Expr.AllAddressed c π i es →
      r.new ∉ Expr.allNames es → Expr.AllSuit r π i es →
        Expr.AllAddressed c' π' i (Expr.renameAll r π i es)
  | [], _, _, _, _, _, _, _, _ => trivial
  | e :: rest, π, π', i, lies, h, addressed, fresh, suits => by
    simp only [Expr.allNames, List.mem_append, not_or] at fresh
    exact ⟨addressed_expr proper e _ _ (lies.part i) h addressed.1 fresh.1 suits.1,
      addressed_exprs proper rest π π' (i + 1) lies h addressed.2 fresh.2 suits.2⟩

/-- A statement keeps its addresses under the new name. -/
theorem addressed_stmt (proper : r.Proper) {c c' : Context} : (s : Stmt) → (π π' : Place) →
    c.Lies π → Matches r c c' → s.Addressed c π → r.new ∉ s.names → s.Suits r π →
      (s.rename r π).Addressed c' π'
  | .expr e, π, π', lies, h, addressed, fresh, suits
  | .print e, π, π', lies, h, addressed, fresh, suits =>
    addressed_expr proper e _ _ (lies.part 0) h addressed fresh suits
  | .var _ none, π, π', lies, h, addressed, fresh, _ => by
    simp only [Stmt.names, List.mem_singleton] at fresh
    exact ⟨isName_token proper _ addressed.1, h.new lies (Ne.symm fresh) addressed.2⟩
  -- inside its initializer the variable is bound, though not ready
  | .var name (some init), π, π', lies, h, addressed, fresh, suits => by
    simp only [Stmt.names, List.mem_cons, not_or] at fresh
    exact ⟨⟨isName_token proper _ addressed.1.1, h.new lies (Ne.symm fresh.1) addressed.1.2⟩,
      addressed_expr proper init _ _ ((lies.mark name.lexeme false).step _ rfl)
        (h.mark lies (Ne.symm fresh.1) false) addressed.2 fresh.2 suits.2⟩
  | .block body, π, π', lies, h, addressed, fresh, suits =>
    addressed_stmts proper body _ _ 0 (lies.enter .block rfl _)
      (h.enter _ _ (namesLike_nil _)) addressed fresh suits
  | .cond test yes none, π, π', lies, h, addressed, fresh, suits
  | .loop test yes, π, π', lies, h, addressed, fresh, suits => by
    simp only [Stmt.names, List.mem_append, not_or] at fresh
    exact ⟨addressed_expr proper test _ _ (lies.part 0) h addressed.1 fresh.1 suits.1,
      addressed_stmt proper yes _ _ (lies.part 1) h addressed.2.1 fresh.2 suits.2,
      (isDeclaration_rename yes).trans addressed.2.2⟩
  | .cond test yes (some no), π, π', lies, h, addressed, fresh, suits => by
    simp only [Stmt.names, List.mem_append, not_or] at fresh
    exact ⟨addressed_expr proper test _ _ (lies.part 0) h addressed.1 fresh.1 suits.1,
      ⟨addressed_stmt proper yes _ _ (lies.part 1) h addressed.2.1.1 fresh.2.1 suits.2.1,
        (isDeclaration_rename yes).trans addressed.2.1.2⟩,
      addressed_stmt proper no _ _ (lies.part 2) h addressed.2.2.1 fresh.2.2 suits.2.2,
      (isDeclaration_rename no).trans addressed.2.2.2⟩
  | .function ⟨name, params, body⟩, π, π', lies, h, addressed, fresh, suits => by
    simp only [Stmt.names, List.mem_cons, not_or] at fresh
    exact ⟨h.new_spared lies fresh.1 suits.1 addressed.1,
      addressed_function proper ⟨name, params, body⟩ π π' (lies.mark name.lexeme true)
        (h.mark_spared lies fresh.1 suits.1 true) addressed.2.1 fresh.2 suits.2,
      addressed.2.2⟩
  | .ret _ none, π, π', lies, h, addressed, _, _ => by
    show c'.body ≠ none ∧ _
    rw [h.body]
    exact addressed
  | .ret _ (some value), π, π', lies, h, addressed, fresh, suits => by
    refine ⟨?_, addressed_expr proper value _ _ (lies.part 0) h addressed.2 fresh suits⟩
    show c'.body ≠ none ∧ _
    rw [h.body]
    exact addressed.1
  | .classDecl name none methods, π, π', lies, h, addressed, fresh, suits => by
    simp only [Stmt.names, List.mem_cons, not_or] at fresh
    exact ⟨h.new_spared lies fresh.1 suits.1 addressed.1,
      addressed_functions proper methods _ _ 0 (lies.mark name.lexeme true).base
        ((h.mark_spared lies fresh.1 suits.1 true).base proper π') addressed.2.1 fresh.2 suits.2,
      addressed.2.2⟩
  | .classDecl name (some superclass) methods, π, π', lies, h, addressed, fresh, suits => by
    simp only [Stmt.names, List.mem_cons, not_or] at fresh
    have marked := h.mark_spared lies fresh.1 suits.1 true
    refine ⟨h.new_spared lies fresh.1 suits.1 addressed.1, ?_,
      marked.reads (lies.mark _ _) (Ne.symm fresh.2.1) addressed.2.2.1,
      addressed_functions proper methods _ _ 0 (lies.mark name.lexeme true).derived
        (marked.derived proper π') addressed.2.2.2.1 fresh.2.2 suits.2.2,
      addressed.2.2.2.2.1, isName_token proper _ addressed.2.2.2.2.2⟩
    -- only a fresh name is given, so the superclass is still another
    show r.name _ superclass.name.lexeme ≠ name.lexeme
    unfold Renaming.name
    split
    · exact fresh.1
    · exact addressed.2.1

theorem addressed_stmts (proper : r.Proper) {c c' : Context} : (body : List Stmt) →
    (π π' : Place) → (i : Nat) → c.Lies π → Matches r c c' → Stmt.AllAddressed c π i body →
      r.new ∉ Stmt.allNames body → Stmt.AllSuit r π i body →
        Stmt.AllAddressed c' π' i (Stmt.renameAll r π i body)
  | [], _, _, _, _, _, _, _, _ => trivial
  | s :: rest, π, π', i, lies, h, addressed, fresh, suits => by
    simp only [Stmt.allNames, List.mem_append, not_or] at fresh
    exact ⟨addressed_stmt proper s _ _ (lies.part i) h addressed.1 fresh.1 suits.1,
      addressed_stmts proper rest π π' (i + 1) (lies.after s)
        (h.after (lies.part i) fresh.1 suits.1) addressed.2 fresh.2 suits.2⟩

/-- A function keeps its addresses under the new name. -/
theorem addressed_function (proper : r.Proper) {c c' : Context} {kind : Body} : (f : Function) →
    (π π' : Place) → c.Lies π → Matches r c c' → f.Addressed c π kind → r.new ∉ f.names →
      f.Suits r π → (f.rename r π).Addressed c' π' kind
  | ⟨_, _, body⟩, π, π', lies, h, addressed, fresh, suits => by
    simp only [Function.names, List.mem_append, not_or] at fresh
    exact ⟨params_rename proper (fresh_params fresh.1) addressed.1 _,
      addressed_stmts proper body _ _ 0 (lies.function _ _)
        (h.function (fresh_params fresh.1) kind π') addressed.2 fresh.2 suits.2⟩

theorem addressed_functions (proper : r.Proper) {c c' : Context} : (fs : List Function) →
    (π π' : Place) → (i : Nat) → c.Lies π → Matches r c c' → Function.AllAddressed c π i fs →
      r.new ∉ Function.allNames fs → Function.AllSuit r π i fs →
        Function.AllAddressed c' π' i (Function.renameAll r π i fs)
  | [], _, _, _, _, _, _, _, _ => trivial
  | ⟨name, params, body⟩ :: rest, π, π', i, lies, h, addressed, fresh, suits => by
    simp only [Function.allNames, List.mem_append, not_or] at fresh
    exact ⟨addressed_function proper ⟨name, params, body⟩ _ _ (lies.part i) h addressed.1 fresh.1
        suits.1,
      addressed_functions proper rest π π' (i + 1) lies h addressed.2 fresh.2 suits.2⟩

end

end Addressed

end Lox.Scope
