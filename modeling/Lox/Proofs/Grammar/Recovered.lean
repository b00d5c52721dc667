import Lox.Proofs.Syntax.Shape

/-!
The shape of a program that is parsed with errors. What had an error is left out, and what is left
has the shape of a parsed program, as long as the tokens are spelled as their kinds say. Each lemma
follows one function of the grammar, and the nesting is closed at the end by induction on its depth.
-/

namespace Lox

/-- Expressions are in shape if each of them is. -/
theorem Expr.allShaped_iff {es : List Expr} : Expr.AllShaped es ↔ ∀ e ∈ es, e.Shaped := by
  induction es with
  | nil => simp [Expr.AllShaped]
  | cons e rest ih => simp [Expr.AllShaped, ih]

/-- Statements are in shape if each of them is. -/
theorem Stmt.allShaped_iff {body : List Stmt} : Stmt.AllShaped body ↔ ∀ s ∈ body, s.Shaped := by
  induction body with
  | nil => simp [Stmt.AllShaped]
  | cons s rest ih => simp [Stmt.AllShaped, ih]

/-- Functions are in shape if each of them is. -/
theorem Function.allShaped_iff {fs : List Function} :
    Function.AllShaped fs ↔ ∀ f ∈ fs, f.Shaped := by
  induction fs with
  | nil => simp [Function.AllShaped]
  | cons f rest ih => simp [Function.AllShaped, ih]

namespace Grammar

open Lox.Grammar.Parser

/-- The tokens to come are spelled as their kinds say. -/
def Cursor.Spelled (c : Cursor) : Prop := ∀ t ∈ c.rest, t.Spelled

/-- What the parser gives satisfies `P`. It goes on with tokens that are spelled as their kinds say,
also where it fails. -/
def Gives {α : Type} (p : Parser α) (P : α → Prop) : Prop :=
  ∀ c : Cursor, c.Spelled →
    match p c with
    | .ok a c' => P a ∧ c'.Spelled
    | .error _ c' => c'.Spelled

/-! ### Steps -/

section Steps

variable {α β : Type} {p : Parser α} {P : α → Prop} {Q : β → Prop}

theorem gives_pure {a : α} (h : P a) : Gives (pure a) P := fun _ spelled => ⟨h, spelled⟩

/-- A failure gives nothing. -/
theorem gives_fail (complaint : Complaint) : Gives (fail complaint) P := fun _ spelled => spelled

/-- What the first parser gives the second may rely on. -/
theorem Gives.bind {next : α → Parser β} (h : Gives p P) (hnext : ∀ a, P a → Gives (next a) Q) :
    Gives (p >>= next) Q := by
  intro c spelled
  have first := h c spelled
  show match EStateM.bind p next c with
    | .ok b c' => Q b ∧ c'.Spelled
    | .error _ c' => c'.Spelled
  unfold EStateM.bind
  cases hp : p c with
  | ok a c₁ =>
    rw [hp] at first
    exact hnext a first.1 c₁ first.2
  | error e c₁ =>
    rw [hp] at first
    exact first

/-- What is made of a result has what the result gives it. -/
theorem Gives.map {f : α → β} (h : Gives p P) (imp : ∀ a, P a → Q (f a)) : Gives (f <$> p) Q := by
  rw [map_eq_pure_bind]
  exact h.bind fun a ha => gives_pure (imp a ha)

/-- What is known of a result may be weakened. -/
theorem Gives.mono {P' : α → Prop} (h : Gives p P) (imp : ∀ a, P a → P' a) : Gives p P' := by
  intro c spelled
  have first := h c spelled
  revert first
  cases p c with
  | ok a c₁ => exact fun first => ⟨imp a first.1, first.2⟩
  | error e c₁ => exact id

theorem Gives.discard {next : PUnit → Parser β} (h : Gives p P) (hnext : Gives (next ⟨⟩) Q) :
    Gives (discard p >>= next) Q :=
  Gives.bind (P := fun _ => True) (h.map fun _ _ => trivial) fun _ _ => hnext

/-- A step that leaves the cursor as it is. -/
theorem gives_look {look : Cursor → α} (h : ∀ a, P a) : Gives (fun c => .ok (look c) c) P :=
  fun _ spelled => ⟨h _, spelled⟩

theorem gives_isAt {k : Token.Kind} {next : Bool → Parser β} (h : ∀ b, Gives (next b) Q) :
    Gives (isAt k >>= next) Q :=
  Gives.bind (P := fun _ => True) (gives_look fun _ => trivial) fun b _ => h b

theorem gives_atEnd {next : Bool → Parser β} (h : ∀ b, Gives (next b) Q) :
    Gives (atEnd >>= next) Q :=
  Gives.bind (P := fun _ => True) (gives_look fun _ => trivial) fun b _ => h b

theorem gives_areAt {k l : Token.Kind} {next : Bool → Parser β} (h : ∀ b, Gives (next b) Q) :
    Gives (areAt k l >>= next) Q :=
  Gives.bind (P := fun _ => True) (gives_look fun _ => trivial) fun b _ => h b

theorem gives_report (e : SyntaxError) : Gives (report e) fun _ => True :=
  fun _ spelled => ⟨trivial, spelled⟩

/-- A token is taken that is of one of the kinds, or none. -/
theorem gives_take? (kinds : List Token.Kind) :
    Gives (take? kinds) fun o => ∀ t ∈ o, t.kind ∈ kinds ∧ t.Spelled := by
  rintro ⟨rest, eof, errors⟩ spelled
  unfold take?
  cases rest with
  | nil => exact ⟨nofun, spelled⟩
  | cons t rest =>
    by_cases h : kinds.contains t.kind = true
    · simp only [h, if_true]
      refine ⟨?_, fun u hu => spelled u (List.mem_cons_of_mem _ hu)⟩
      rintro _ ⟨⟩
      exact ⟨List.contains_iff_mem.mp h, spelled t List.mem_cons_self⟩
    · simp only [h]
      exact ⟨nofun, spelled⟩

/-- A token that is taken is of one of the kinds and spelled as its kind is. -/
theorem gives_take {kinds : List Token.Kind} {next : Option Token → Parser β}
    (absent : Gives (next none) Q)
    (there : ∀ t, t.kind ∈ kinds → t.Spelled → Gives (next (some t)) Q) :
    Gives (take? kinds >>= next) Q := by
  refine (gives_take? kinds).bind fun o ho => ?_
  cases o with
  | none => exact absent
  | some t => exact there t (ho t rfl).1 (ho t rfl).2

/-- A token that is expected is of its kind and spelled as that is. -/
theorem gives_expect (k : Token.Kind) (complaint : Complaint) :
    Gives (expect k complaint) fun t => t.kind = k ∧ t.Spelled :=
  gives_take (gives_fail complaint) fun _ hk spelled =>
    gives_pure ⟨List.mem_singleton.mp hk, spelled⟩

/-- A name that is expected is one. -/
theorem gives_name (complaint : Complaint) :
    Gives (expect .identifier complaint) Token.IsName :=
  (gives_expect .identifier complaint).mono fun _ h => h.2.name h.1

theorem gives_expected {k : Token.Kind} {complaint : Complaint} {next : PUnit → Parser β}
    (h : Gives (next ⟨⟩) Q) : Gives (discard (expect k complaint) >>= next) Q :=
  (gives_expect k complaint).discard h

/-! ### Loops and recovery -/

/-- A loop gives what each of its rounds keeps. -/
theorem gives_repeatFrom {step : α → Parser (Option α)}
    (h : ∀ a, P a → Gives (step a) fun o => ∀ b ∈ o, P b) {a : α} (ha : P a) :
    Gives (repeatFrom step a) P := by
  have all : ∀ rounds a, P a → Gives (iterate step rounds a) P := by
    intro rounds
    induction rounds with
    | nil => exact fun a ha => gives_pure ha
    | cons _ rounds ih =>
      intro a ha
      refine (h a ha).bind fun o ho => ?_
      cases o with
      | none => exact gives_pure ha
      | some b => exact ih b (ho b rfl)
  exact fun c spelled => all _ a ha c spelled

/-- Each item of a list is what the parser of the items gives. -/
theorem gives_separated {closing : Token.Kind} (h : Gives p P) :
    Gives (separated closing p) fun items => ∀ a ∈ items, P a := by
  refine gives_isAt fun b => ?_
  cases b with
  | true => exact gives_pure (by simp)
  | false =>
    refine h.bind fun first hfirst => ?_
    refine Gives.bind (P := fun items => ∀ a ∈ items, P a) (gives_repeatFrom ?_ (by simpa)) ?_
    · intro items hitems
      refine gives_take (gives_pure nofun) fun _ _ _ => h.bind fun a ha => gives_pure ?_
      rintro _ ⟨⟩
      exact List.forall_mem_cons.mpr ⟨ha, hitems⟩
    · exact fun items hitems => gives_pure (by simpa using hitems)

/-- Items up to where there is no more, the last one first. -/
theorem gives_collect {step : List α → Parser (Option (List α))}
    (h : ∀ items, (∀ a ∈ items, P a) → Gives (step items) fun o => ∀ more ∈ o, ∀ a ∈ more, P a) :
    Gives (do return (← repeatFrom step []).reverse) fun items => ∀ a ∈ items, P a :=
  Gives.bind (P := fun items => ∀ a ∈ items, P a) (gives_repeatFrom h nofun) fun items hitems =>
    gives_pure (by simpa using hitems)

/-- To skip tokens makes none. -/
theorem mem_of_mem_skip {rest : List Token} {t : Token} (h : t ∈ skip rest) : t ∈ rest := by
  have from_ : ∀ previous, ∀ {rest}, t ∈ skipFrom previous rest → t ∈ rest := by
    intro previous rest h
    induction rest generalizing previous with
    | nil => exact h
    | cons u rest ih =>
      rw [skipFrom] at h
      split at h
      · exact h
      · exact List.mem_cons_of_mem _ (ih u h)
  cases rest with
  | nil => exact h
  | cons u rest => exact List.mem_cons_of_mem _ (from_ u h)

/-- A declaration that is given up gives nothing, and one that is not gives what it gives. -/
theorem gives_recover (h : Gives p P) : Gives (recover p) fun o => ∀ a ∈ o, P a := by
  intro c spelled
  have first := h c spelled
  unfold recover
  cases hp : p c with
  | ok a c₁ =>
    rw [hp] at first
    refine ⟨?_, first.2⟩
    rintro _ ⟨⟩
    exact first.1
  | error e c₁ =>
    rw [hp] at first
    exact ⟨nofun, fun t ht => first t (mem_of_mem_skip ht)⟩

end Steps

/-! ### Expressions -/

section Expressions

variable {expression : Parser Expr} {body : Parser (List Stmt)}

/-- Parameters are names, also in a function that was repaired. -/
theorem gives_functionRest (hbody : Gives body Stmt.AllShaped) (owner : Owner) :
    Gives (functionRest body owner) fun rest =>
      (∀ t ∈ rest.1, t.IsName) ∧ Stmt.AllShaped rest.2 :=
  (gives_separated (gives_name .parameterName)).bind fun _ hparams =>
    gives_expected (gives_expected (hbody.bind fun _ hb => gives_pure ⟨hparams, hb⟩))

/-- A primary expression is in shape. -/
theorem gives_primary (hexpr : Gives expression Expr.Shaped) (hbody : Gives body Stmt.AllShaped) :
    Gives (primary expression body) Expr.Shaped := by
  refine gives_take (gives_fail _) fun t hk spelled => ?_
  have keyword : t.kind ∈ primaryKinds := hk
  dsimp only
  split
  · exact gives_pure trivial
  · exact gives_pure trivial
  · exact gives_pure trivial
  · exact gives_pure trivial
  · exact gives_pure trivial
  · next this => exact gives_pure (spelled.this this)
  · next super =>
    exact gives_expected ((gives_expect _ _).bind fun _ _ => gives_pure (spelled.super super))
  · exact gives_expected ((gives_functionRest hbody .function).bind fun _ h => gives_pure h)
  · exact hexpr.bind fun _ h => gives_expected (gives_pure h)
  · have name : t.kind = .identifier := by
      simp only [primaryKinds, List.mem_cons, List.not_mem_nil, or_false] at keyword
      simp_all
    exact gives_pure (spelled.name name)

/-- A call is in shape. -/
theorem gives_call (hexpr : Gives expression Expr.Shaped) (hbody : Gives body Stmt.AllShaped) :
    Gives (call expression body) Expr.Shaped := by
  refine (gives_primary hexpr hbody).bind fun e he => gives_repeatFrom (fun e he => ?_) he
  refine gives_take (gives_pure nofun) fun t _ _ => ?_
  dsimp only
  split
  · refine (gives_separated hexpr).bind fun args hargs => (gives_expect _ _).bind fun _ _ =>
      gives_pure ?_
    rintro _ ⟨⟩
    exact ⟨he, Expr.allShaped_iff.mpr hargs⟩
  · refine (gives_expect _ _).bind fun _ _ => gives_pure ?_
    rintro _ ⟨⟩
    exact he

/-- Operators in front of an expression leave it in shape. -/
theorem shaped_foldl_unary {ops : List Token} (unary : ∀ op ∈ ops, op.IsUnary) {e : Expr}
    (he : e.Shaped) : (ops.foldl (fun e op => .unary op e) e).Shaped := by
  induction ops generalizing e with
  | nil => exact he
  | cons op rest ih =>
    obtain ⟨first, others⟩ := List.forall_mem_cons.mp unary
    exact ih others ⟨first, he⟩

/-- The operators in front of an operand are unary ones. -/
theorem gives_prefixes : Gives prefixes fun ops => ∀ op ∈ ops, op.IsUnary := by
  have step : ∀ ops : List Token, (∀ op ∈ ops, op.IsUnary) →
      Gives (do return (← take? [.bang, .minus]).map (· :: ops)) fun o =>
        ∀ more ∈ o, ∀ op ∈ more, op.IsUnary := by
    refine fun ops hops => gives_take (gives_pure nofun) fun t hk _ => gives_pure ?_
    rintro _ ⟨⟩
    exact List.forall_mem_cons.mpr ⟨hk, hops⟩
  exact gives_repeatFrom step (by simp)

/-- A unary expression is in shape. -/
theorem gives_unary (hexpr : Gives expression Expr.Shaped) (hbody : Gives body Stmt.AllShaped) :
    Gives (unary expression body) Expr.Shaped :=
  gives_prefixes.bind fun _ hops => (gives_call hexpr hbody).bind fun _ he =>
    gives_pure (shaped_foldl_unary hops he)

/-- Operands that are joined are in shape if what joins them keeps that. -/
theorem gives_leftAssoc {kinds : List Token.Kind} {make : Token → Expr → Expr → Expr}
    {operand : Parser Expr} (h : Gives operand Expr.Shaped)
    (made : ∀ op a b, op.kind ∈ kinds → a.Shaped → b.Shaped → (make op a b).Shaped) :
    Gives (leftAssoc kinds make operand) Expr.Shaped := by
  refine h.bind fun first hfirst => gives_repeatFrom (fun left hleft => ?_) hfirst
  refine gives_take (gives_pure nofun) fun op hop _ => h.bind fun right hright => gives_pure ?_
  rintro _ ⟨⟩
  exact made op left right hop hleft hright

/-- A binary operator of a level is one that there is. -/
theorem shaped_binary {kinds : List Token.Kind}
    (sub : kinds ⊆ [.bangEqual, .equalEqual, .greater, .greaterEqual, .less, .lessEqual, .minus,
      .plus, .slash, .star]) (op : Token) (a b : Expr) (hop : op.kind ∈ kinds) (ha : a.Shaped)
    (hb : b.Shaped) : (Expr.binary op a b).Shaped :=
  ⟨sub hop, ha, hb⟩

/-- The levels of operators give expressions in shape. -/
theorem gives_disjunction (hexpr : Gives expression Expr.Shaped)
    (hbody : Gives body Stmt.AllShaped) : Gives (disjunction expression body) Expr.Shaped := by
  have factor : Gives (factor expression body) Expr.Shaped :=
    gives_leftAssoc (gives_unary hexpr hbody) (shaped_binary (by decide))
  have term : Gives (term expression body) Expr.Shaped :=
    gives_leftAssoc factor (shaped_binary (by decide))
  have comparison : Gives (comparison expression body) Expr.Shaped :=
    gives_leftAssoc term (shaped_binary (by decide))
  have equality : Gives (equality expression body) Expr.Shaped :=
    gives_leftAssoc comparison (shaped_binary (by decide))
  have conjunction : Gives (conjunction expression body) Expr.Shaped :=
    gives_leftAssoc equality fun _ _ _ _ ha hb => ⟨ha, hb⟩
  exact gives_leftAssoc conjunction fun _ _ _ _ ha hb => ⟨ha, hb⟩

/-- A target that is none is reported, and what is given instead is in shape. -/
theorem gives_assignTo {equals : Token} {target value : Expr} (ht : target.Shaped)
    (hv : value.Shaped) : Gives (assignTo equals target value) Expr.Shaped := by
  unfold assignTo
  split
  · exact gives_pure ⟨ht, hv⟩
  · exact gives_pure ⟨ht, hv⟩
  · exact (gives_report _).bind fun _ _ => gives_pure ht

/-- An assignment is in shape. -/
theorem gives_assignment (hexpr : Gives expression Expr.Shaped)
    (hbody : Gives body Stmt.AllShaped) : Gives (assignment expression body) Expr.Shaped :=
  (gives_disjunction hexpr hbody).bind fun _ ht =>
    gives_take (gives_pure ht) fun _ _ _ => hexpr.bind fun _ hv => gives_assignTo ht hv

end Expressions

/-! ### Statements -/

/-- A statement, which declares nothing. -/
def Plain (s : Stmt) : Prop := s.Shaped ∧ s.isDeclaration = false

section Statements

variable {expression : Parser Expr} {statement : Parser Stmt} {declaration : Parser (Option Stmt)}

/-- One more declaration, unless it had an error. -/
theorem gives_more (hdecl : Gives declaration fun o => ∀ s ∈ o, s.Shaped) {body : List Stmt}
    (hbody : ∀ s ∈ body, s.Shaped) :
    Gives (do return some ((← declaration).toList ++ body)) fun o =>
      ∀ more ∈ o, ∀ s ∈ more, s.Shaped := by
  refine hdecl.bind fun o ho => gives_pure ?_
  rintro _ ⟨⟩ s hs
  rcases List.mem_append.mp hs with hs | hs
  · exact ho s (Option.mem_toList.mp hs)
  · exact hbody s hs

/-- The declarations that are given up are left out of a block. -/
theorem gives_block (hdecl : Gives declaration fun o => ∀ s ∈ o, s.Shaped) :
    Gives (block declaration) Stmt.AllShaped := by
  have body : Gives (declarations declaration) fun body => ∀ s ∈ body, s.Shaped := by
    refine gives_collect fun items hitems => gives_isAt fun closing => gives_atEnd fun ended => ?_
    split
    · exact gives_pure nofun
    · exact gives_more hdecl hitems
  exact body.bind fun body hbody => gives_expected (gives_pure (Stmt.allShaped_iff.mpr hbody))

/-- An expression statement is in shape and declares nothing. -/
theorem gives_expressionStatement (hexpr : Gives expression Expr.Shaped) :
    Gives (expressionStatement expression) Plain :=
  hexpr.bind fun _ he => gives_expected (gives_pure ⟨he, rfl⟩)

theorem gives_printStatement (hexpr : Gives expression Expr.Shaped) :
    Gives (printStatement expression) Plain :=
  hexpr.bind fun _ he => gives_expected (gives_pure ⟨he, rfl⟩)

/-- An expression that may be left out is in shape if it is there. -/
theorem gives_optionalUnless {closing : Token.Kind} (hexpr : Gives expression Expr.Shaped) :
    Gives (optionalUnless closing expression) fun o => ∀ e ∈ o, e.Shaped := by
  refine gives_isAt fun b => ?_
  cases b with
  | true => exact gives_pure nofun
  | false =>
    refine hexpr.bind fun e he => gives_pure ?_
    rintro _ ⟨⟩
    exact he

/-- A return statement is in shape and declares nothing. -/
theorem gives_returnStatement (hexpr : Gives expression Expr.Shaped) (keyword : Token) :
    Gives (returnStatement expression keyword) Plain := by
  refine (gives_optionalUnless hexpr).bind fun value hvalue => gives_expected (gives_pure ?_)
  cases value with
  | none => exact ⟨trivial, rfl⟩
  | some value => exact ⟨hvalue value rfl, rfl⟩

/-- A variable is declared under a name. -/
theorem gives_varDeclaration (hexpr : Gives expression Expr.Shaped) :
    Gives (varDeclaration expression) Stmt.Shaped := by
  refine (gives_name _).bind fun name hname => gives_take ?_ fun _ _ _ => ?_
  · exact gives_expected (gives_pure hname)
  · refine Gives.bind (P := fun o => ∀ e ∈ o, e.Shaped) ?_ fun init hinit => ?_
    · refine hexpr.map fun e he => ?_
      rintro _ ⟨⟩
      exact he
    · cases init with
      | none => exact gives_expected (gives_pure hname)
      | some init => exact gives_expected (gives_pure ⟨hname, hinit init rfl⟩)

/-- A loop repeats a statement that declares nothing. -/
theorem gives_whileStatement (hexpr : Gives expression Expr.Shaped)
    (hstmt : Gives statement Plain) : Gives (whileStatement expression statement) Plain :=
  gives_expected (hexpr.bind fun _ ht => gives_expected (hstmt.bind fun _ hb =>
    gives_pure ⟨⟨ht, hb⟩, rfl⟩))

/-- The branches of a condition declare nothing. -/
theorem gives_ifStatement (hexpr : Gives expression Expr.Shaped) (hstmt : Gives statement Plain) :
    Gives (ifStatement expression statement) Plain :=
  gives_expected (hexpr.bind fun _ ht => gives_expected (hstmt.bind fun _ hy =>
    gives_take (gives_pure ⟨⟨ht, hy⟩, rfl⟩) fun _ _ _ => hstmt.bind fun _ hn =>
      gives_pure ⟨⟨ht, hy, hn⟩, rfl⟩))

theorem gives_forInit (hexpr : Gives expression Expr.Shaped) :
    Gives (forInit expression) fun o => ∀ s ∈ o, s.Shaped := by
  refine gives_take ?_ fun t _ _ => ?_
  · refine (gives_expressionStatement hexpr).map fun s hs => ?_
    rintro _ ⟨⟩
    exact hs.1
  · dsimp only
    split
    · exact gives_pure nofun
    · refine (gives_varDeclaration hexpr).map fun s hs => ?_
      rintro _ ⟨⟩
      exact hs

/-- A loop with three parts is a block of its own, so it declares nothing. -/
theorem gives_forStatement (hexpr : Gives expression Expr.Shaped) (hstmt : Gives statement Plain) :
    Gives (forStatement expression statement) Plain :=
  gives_expected ((gives_forInit hexpr).bind fun _ hinit =>
    (gives_optionalUnless hexpr).bind fun _ htest => gives_expected
      ((gives_optionalUnless hexpr).bind fun _ hstep => gives_expected (hstmt.bind fun _ hbody =>
        gives_pure (hasShape_forLoop hinit htest hstep hbody))))

/-- A statement is in shape and declares nothing, whichever it is. -/
theorem gives_anyStatement (hexpr : Gives expression Expr.Shaped) (hstmt : Gives statement Plain)
    (hdecl : Gives declaration fun o => ∀ s ∈ o, s.Shaped) :
    Gives (anyStatement expression statement declaration) Plain := by
  refine gives_take (gives_expressionStatement hexpr) fun t _ _ => ?_
  dsimp only
  split
  · exact gives_forStatement hexpr hstmt
  · exact gives_ifStatement hexpr hstmt
  · exact gives_printStatement hexpr
  · exact gives_returnStatement hexpr t
  · exact gives_whileStatement hexpr hstmt
  · exact (gives_block hdecl).map fun _ hb => ⟨hb, rfl⟩

/-! ### Declarations -/

/-- A function has a name and is in shape. -/
theorem gives_function (hdecl : Gives declaration fun o => ∀ s ∈ o, s.Shaped) (owner : Owner) :
    Gives (function declaration owner) fun f => f.name.IsName ∧ f.Shaped :=
  (gives_name _).bind fun _ hname => gives_expected
    ((gives_functionRest (gives_block hdecl) owner).bind fun _ hrest => gives_pure ⟨hname, hrest⟩)

/-- A superclass has a name. -/
theorem gives_superclassClause :
    Gives superclassClause fun o => ∀ ref ∈ o, ref.name.IsName := by
  refine gives_take (gives_pure nofun) fun _ _ _ => (gives_name _).bind fun name hname =>
    gives_pure ?_
  rintro _ ⟨⟩
  exact hname

/-- A class has a name and is in shape. -/
theorem gives_classDeclaration (hdecl : Gives declaration fun o => ∀ s ∈ o, s.Shaped) :
    Gives (classDeclaration declaration) Stmt.Shaped := by
  have members : Gives (methods declaration) fun fs => ∀ f ∈ fs, f.Shaped := by
    refine gives_collect fun items hitems => gives_isAt fun closing => gives_atEnd fun ended => ?_
    split
    · exact gives_pure nofun
    · refine (gives_function hdecl .method).bind fun f hf => gives_pure ?_
      rintro _ ⟨⟩
      exact List.forall_mem_cons.mpr ⟨hf.2, hitems⟩
  exact (gives_name _).bind fun _ hname => gives_superclassClause.bind fun _ hsuper =>
    gives_expected (members.bind fun _ hmembers => gives_expected
      (gives_pure ⟨hname, hsuper, Function.allShaped_iff.mpr hmembers⟩))

/-- A declaration is in shape, whichever it is. -/
theorem gives_anyDeclaration (hexpr : Gives expression Expr.Shaped) (hstmt : Gives statement Plain)
    (hdecl : Gives declaration fun o => ∀ s ∈ o, s.Shaped) :
    Gives (anyDeclaration expression statement declaration) Stmt.Shaped := by
  refine gives_areAt fun named => ?_
  cases named with
  | true =>
    exact (gives_take? [.funKw]).discard ((gives_function hdecl .function).map fun _ h => h)
  | false =>
    refine gives_take (hstmt.mono fun _ h => h.1) fun t _ _ => ?_
    dsimp only
    split
    · exact gives_classDeclaration hdecl
    · exact gives_varDeclaration hexpr

end Statements

/-! ### Programs -/

/-- However deep it goes, the parser gives what is in shape. -/
theorem gives_at (n : Nat) :
    Gives (expressionAt n) Expr.Shaped ∧ Gives (statementAt n) Plain ∧
      Gives (declarationAt n) fun o => ∀ s ∈ o, s.Shaped := by
  induction n with
  | zero => exact ⟨gives_fail _, gives_fail _, gives_fail _⟩
  | succ n ih =>
    obtain ⟨hexpr, hstmt, hdecl⟩ := ih
    exact ⟨gives_assignment hexpr (gives_block hdecl), gives_anyStatement hexpr hstmt hdecl,
      gives_recover (gives_anyDeclaration hexpr hstmt hdecl)⟩

/-- Every program that the parser gives has the shape, also one that is given with errors. -/
theorem allShaped_parse {tokens : List Token} (spelled : ∀ t ∈ tokens, t.Spelled) :
    Stmt.AllShaped (parse tokens).program.body := by
  have top : Gives (topLevel (depthFor tokens)) fun body => ∀ s ∈ body, s.Shaped := by
    refine gives_collect fun items hitems => gives_atEnd fun ended => ?_
    split
    · exact gives_pure nofun
    · exact gives_more (gives_at _).2.2 hitems
  have given := top (.ofTokens tokens) fun t ht => spelled t ((List.takeWhile_sublist _).subset ht)
  unfold parse
  revert given
  cases topLevel (depthFor tokens) (.ofTokens tokens) with
  | ok body c => exact fun given => Stmt.allShaped_iff.mpr given.1
  | error e c => exact fun _ => trivial

end Grammar

end Lox
