import Lox.Proofs.Grammar.Derivation
import Lox.Proofs.Grammar.Step

/-!
Soundness of parsing: a parser that succeeds with no error on record has read a derivation. Each
lemma follows one function of the grammar and takes what the function calls as given; the nesting is
closed at the end by induction on its depth.
-/

namespace Lox.Grammar

open Lox.Grammar.Parser

variable {α : Type}

/-- Where the parser succeeds and no error is on record, it has read tokens of the given kind. The
last argument is what stands after them. -/
def Sound (p : Parser α) (reading : List Token → α → List Token → Prop) : Prop :=
  ∀ c a c', p c = .ok a c' → c'.errors = [] → ∃ u, c = c'.before u ∧ reading u a c'.rest

/-- The parser reads derivations of a category. -/
abbrev SoundFor (c : Category) (p : Parser c.Tree) : Prop :=
  Sound p fun u a _ => Derivation c u a

/-- A statement that would take an `else` for its own stands before none. -/
def StatementRead (u : List Token) (s : Stmt) (rest : List Token) : Prop :=
  ∃ isOpen, Derivation (.statement isOpen) u s ∧ (isOpen = true → ¬ Ahead [.elseKw] rest)

/-- A declaration that recovered from no error is there. -/
def DeclarationRead (u : List Token) (o : Option Stmt) (_ : List Token) : Prop :=
  ∃ s, o = some s ∧ Derivation .declaration u s

/-! ### Loops -/

section Loops

variable {step : α → Parser (Option α)} (reached : α → List Token → α → Prop)

/-- What a loop has read is put together from what its rounds have read. -/
theorem sound_iterate
    (stepSound : ∀ a, Sound (step a) fun u o _ =>
      match o with
      | none => u = []
      | some b => ∀ w e, reached b w e → reached a (u ++ w) e)
    (stop : ∀ a, reached a [] a) (rounds : List Token) (a : α) :
    Sound (iterate step rounds a) fun u e _ => reached a u e := by
  -- on the rounds: one bound for all loops, as long as the input
  induction rounds generalizing a with
  | nil =>
    intro c e c' h _
    obtain ⟨rfl, rfl⟩ := pure_ok.mp h
    exact ⟨[], rfl, stop a⟩
  | cons _ rounds ih =>
    intro c e c' h clean
    rw [iterate] at h
    obtain ⟨o, c₁, hstep, hrest⟩ := bind_ok.mp h
    cases o with
    | none =>
      obtain ⟨rfl, rfl⟩ := pure_ok.mp hrest
      obtain ⟨u, rfl, rfl⟩ := stepSound a _ _ _ hstep clean
      exact ⟨[], rfl, stop a⟩
    | some b =>
      obtain ⟨w, rfl, hw⟩ := ih b _ _ _ hrest clean
      obtain ⟨u, rfl, hu⟩ := stepSound a _ _ _ hstep clean
      exact ⟨u ++ w, Cursor.before_before, hu w e hw⟩

/-- A loop reads what its rounds read, one after the other. -/
theorem sound_repeatFrom
    (stepSound : ∀ a, Sound (step a) fun u o _ =>
      match o with
      | none => u = []
      | some b => ∀ w e, reached b w e → reached a (u ++ w) e)
    (stop : ∀ a, reached a [] a) (a : α) :
    Sound (repeatFrom step a) fun u e _ => reached a u e :=
  fun c e c' h clean => sound_iterate reached stepSound stop (c.eof :: c.rest) a c e c' h clean

/-- A loop that collects items, the last one first. -/
theorem sound_collect {step : List α → Parser (Option (List α))}
    (more : List Token → List α → Prop) (stop : more [] [])
    (stepSound : ∀ items, Sound (step items) fun u o _ =>
      match o with
      | none => u = []
      | some items' => ∃ a, items' = a :: items ∧ ∀ w rest, more w rest → more (u ++ w) (a :: rest))
    (items : List α) :
    Sound (repeatFrom step items) fun u items' _ =>
      ∃ rest, items' = rest.reverse ++ items ∧ more u rest := by
  apply sound_repeatFrom (fun items u items' => ∃ rest, items' = rest.reverse ++ items ∧ more u rest)
  · intro items c o c' run clean
    obtain ⟨u, hc, hu⟩ := stepSound items c o c' run clean
    refine ⟨u, hc, ?_⟩
    cases o with
    | none => exact hu
    | some items' =>
      obtain ⟨a, rfl, next⟩ := hu
      rintro w e ⟨rest, rfl, hrest⟩
      exact ⟨a :: rest, by simp, next w rest hrest⟩
  · intro items
    exact ⟨[], rfl, stop⟩

end Loops

/-! ### Expressions -/

section Expressions

variable {expression : Parser Expr} {declaration : Parser (Option Stmt)}

/-- Items between commas: the first one, and then more of them as long as there is a comma. -/
theorem sound_separated {item : Parser α} {closing : Token.Kind}
    {one : List Token → α → Prop} (more : List Token → List α → Prop)
    (itemSound : Sound item fun u a _ => one u a) (stop : more [] [])
    (next : ∀ {k : Token} {u w : List Token} {a : α} {rest : List α},
      k.kind = .comma → one u a → more w rest → more (k :: (u ++ w)) (a :: rest)) :
    Sound (separated closing item) fun u items _ =>
      (u = [] ∧ items = []) ∨
        ∃ v w a rest, u = v ++ w ∧ items = a :: rest ∧ one v a ∧ more w rest := by
  intro c items c' run clean
  obtain ⟨b, c₁, hat, run₁⟩ := bind_ok.mp run
  obtain ⟨-, rfl⟩ := isAt_ok.mp hat
  -- the closing token comes at once, or there is a first item
  cases b with
  | true =>
    obtain ⟨rfl, rfl⟩ := pure_ok.mp run₁
    exact ⟨[], rfl, .inl ⟨rfl, rfl⟩⟩
  | false =>
    obtain ⟨first, c₂, hfirst, run₂⟩ := bind_ok.mp run₁
    obtain ⟨reversed, c₃, hloop, run₃⟩ := bind_ok.mp run₂
    obtain ⟨rfl, rfl⟩ := pure_ok.mp run₃
    -- the loop collects in reverse, behind the first item
    have loop := sound_collect more stop ?_ [first] _ _ _ hloop clean
    · obtain ⟨w, rfl, rest, rfl, hrest⟩ := loop
      obtain ⟨v, rfl, hv⟩ := itemSound _ _ _ hfirst clean
      exact ⟨v ++ w, Cursor.before_before, .inr ⟨v, w, first, rest, rfl, by simp, hv, hrest⟩⟩
    · intro items c o c' run clean
      obtain ⟨o', c₁, htake, run₁⟩ := bind_ok.mp run
      obtain ⟨k, hk, rfl, rfl⟩ | ⟨-, rfl, rfl⟩ := take?_ok.mp htake
      · obtain ⟨a, c₂, hitem, run₂⟩ := bind_ok.mp run₁
        obtain ⟨rfl, rfl⟩ := pure_ok.mp run₂
        obtain ⟨u, rfl, hu⟩ := itemSound _ _ _ hitem clean
        exact ⟨k :: u, Cursor.before_before, a, rfl,
          fun w rest hrest => next (List.mem_singleton.mp hk) hu hrest⟩
      · obtain ⟨rfl, rfl⟩ := pure_ok.mp run₁
        exact ⟨[], rfl, rfl⟩

/-- Parameters are derived from the grammar's parameters. -/
theorem sound_params :
    SoundFor .params (separated .rightParen (expect .identifier .parameterName)) := by
  intro c params c' run clean
  have one : Sound (expect .identifier .parameterName)
      fun u t _ => u = [t] ∧ t.kind = .identifier := by
    intro c t c' run _
    obtain ⟨hk, rfl⟩ := expect_ok.mp run
    exact ⟨[t], rfl, rfl, hk⟩
  have next : ∀ {k : Token} {u w : List Token} {t : Token} {rest : List Token},
      k.kind = .comma → (u = [t] ∧ t.kind = .identifier) → Derivation .moreParams w rest →
      Derivation .moreParams (k :: (u ++ w)) (t :: rest) := by
    rintro k u w t rest hk ⟨rfl, ht⟩ hrest
    exact .param hk ht hrest
  obtain ⟨u, hc, ⟨rfl, rfl⟩ | ⟨v, w, t, rest, rfl, rfl, ⟨rfl, ht⟩, hrest⟩⟩ :=
    sound_separated (Derivation .moreParams) one .paramsEnd next c params c' run clean
  · exact ⟨[], hc, .noParams⟩
  · exact ⟨_, hc, .params ht hrest⟩

/-- Arguments are derived from the grammar's arguments. -/
theorem sound_arguments (he : SoundFor .expression expression) :
    SoundFor .arguments (separated .rightParen expression) := by
  intro c args c' run clean
  obtain ⟨u, hc, ⟨rfl, rfl⟩ | ⟨v, w, e, rest, rfl, rfl, hv, hrest⟩⟩ :=
    sound_separated (Derivation .moreArguments) he .argumentsEnd .argument c args c' run clean
  · exact ⟨[], hc, .noArguments⟩
  · exact ⟨_, hc, .arguments hv hrest⟩

/-- Declarations in braces are derived one after the other. -/
theorem sound_declarations (hd : Sound declaration DeclarationRead) :
    SoundFor .declarations (declarations declaration) := by
  intro c body c' run clean
  obtain ⟨reversed, c₁, hloop, run₁⟩ := bind_ok.mp run
  obtain ⟨rfl, rfl⟩ := pure_ok.mp run₁
  have loop := sound_collect (Derivation .declarations) .noDeclarations ?_ [] _ _ _ hloop clean
  · obtain ⟨w, rfl, rest, rfl, hrest⟩ := loop
    exact ⟨w, rfl, by simpa using hrest⟩
  · intro body c o c' run clean
    obtain ⟨b₁, c₁, hat, run₁⟩ := bind_ok.mp run
    obtain ⟨b₂, c₂, hend, run₂⟩ := bind_ok.mp run₁
    obtain ⟨-, rfl⟩ := isAt_ok.mp hat
    obtain ⟨-, rfl⟩ := atEnd_ok.mp hend
    -- a body ends at its brace, the program at the end
    cases hb : (b₁ || b₂) with
    | true =>
      rw [hb] at run₂
      obtain ⟨rfl, rfl⟩ := pure_ok.mp run₂
      exact ⟨[], rfl, rfl⟩
    | false =>
      rw [hb] at run₂
      obtain ⟨d, c₃, hdecl, run₃⟩ := bind_ok.mp run₂
      obtain ⟨rfl, rfl⟩ := pure_ok.mp run₃
      obtain ⟨u, rfl, s, rfl, hs⟩ := hd _ _ _ hdecl clean
      exact ⟨u, rfl, s, rfl, fun w rest hrest => .declarations hs hrest⟩

/-- A block from its first declaration on; the closing brace belongs to it. -/
theorem sound_block (hd : Sound declaration DeclarationRead) :
    Sound (block declaration) fun u body _ => ∃ v d, u = v ++ [d] ∧
      Derivation .declarations v body ∧ d.kind = .rightBrace := by
  intro c body c' run clean
  obtain ⟨body', c₁, hbody, run₁⟩ := bind_ok.mp run
  obtain ⟨d, c₂, hclose, run₂⟩ := discard_bind_ok.mp run₁
  obtain ⟨rfl, rfl⟩ := pure_ok.mp run₂
  obtain ⟨hk, rfl⟩ := expect_ok.mp hclose
  obtain ⟨v, rfl, hv⟩ := sound_declarations hd _ _ _ hbody clean
  exact ⟨v ++ [d], Cursor.before_before, v, d, rfl, hv, hk⟩

/-- Parameters, their closing parenthesis, and a body in braces. -/
theorem sound_functionRest (hd : Sound declaration DeclarationRead) (owner : Owner) :
    Sound (functionRest (block declaration) owner) fun u f _ => ∃ x q b v d,
      u = x ++ q :: b :: (v ++ [d]) ∧ Derivation .params x f.1 ∧ q.kind = .rightParen ∧
        b.kind = .leftBrace ∧ Derivation .declarations v f.2 ∧ d.kind = .rightBrace := by
  intro c f c' run clean
  obtain ⟨params, c₁, hparams, run₁⟩ := bind_ok.mp run
  obtain ⟨q, c₂, close, run₂⟩ := discard_bind_ok.mp run₁
  obtain ⟨b, c₃, opening, run₃⟩ := discard_bind_ok.mp run₂
  obtain ⟨body, c₄, hbody, run₄⟩ := bind_ok.mp run₃
  obtain ⟨rfl, rfl⟩ := pure_ok.mp run₄
  obtain ⟨_, rfl, v, d, rfl, hv, hd'⟩ := sound_block hd _ _ _ hbody clean
  obtain ⟨hb, rfl⟩ := expect_ok.mp opening
  obtain ⟨hq, rfl⟩ := expect_ok.mp close
  obtain ⟨x, rfl, hx⟩ := sound_params _ _ _ hparams clean
  refine ⟨x ++ q :: b :: (v ++ [d]), ?_, x, q, b, v, d, rfl, hx, hq, hb, hv, hd'⟩
  simp [Cursor.before]

/-- A primary expression is derived from the innermost level. -/
theorem sound_primary (he : SoundFor .expression expression)
    (hd : Sound declaration DeclarationRead) :
    SoundFor (.level .primary) (primary expression (block declaration)) := by
  intro c e c' run clean
  obtain ⟨o, c₁, htake, run₁⟩ := bind_ok.mp run
  obtain ⟨t, hk, rfl, rfl⟩ | ⟨-, rfl, rfl⟩ := take?_ok.mp htake
  · simp only [primaryKinds, List.mem_cons, List.not_mem_nil, or_false] at hk
    -- one case for each kind of token that starts a primary
    rcases hk with h | h | h | h | h | h | h | h | h | h <;> simp only [h] at run₁
    · obtain ⟨rfl, rfl⟩ := pure_ok.mp run₁
      exact ⟨[t], rfl, .atom (.falseKw h)⟩
    · obtain ⟨rfl, rfl⟩ := pure_ok.mp run₁
      exact ⟨[t], rfl, .atom (.trueKw h)⟩
    · obtain ⟨rfl, rfl⟩ := pure_ok.mp run₁
      exact ⟨[t], rfl, .atom (.nilKw h)⟩
    · obtain ⟨rfl, rfl⟩ := pure_ok.mp run₁
      exact ⟨[t], rfl, .atom (.number h)⟩
    · obtain ⟨rfl, rfl⟩ := pure_ok.mp run₁
      exact ⟨[t], rfl, .atom (.string h)⟩
    · obtain ⟨rfl, rfl⟩ := pure_ok.mp run₁
      exact ⟨[t], rfl, .atom (.thisKw h)⟩
    · obtain ⟨d, c₂, dot, run₂⟩ := discard_bind_ok.mp run₁
      obtain ⟨m, c₃, name, run₃⟩ := bind_ok.mp run₂
      obtain ⟨rfl, rfl⟩ := pure_ok.mp run₃
      obtain ⟨hm, rfl⟩ := expect_ok.mp name
      obtain ⟨hdot, rfl⟩ := expect_ok.mp dot
      exact ⟨[t, d, m], by simp [Cursor.before], .super h hdot hm⟩
    · obtain ⟨rfl, rfl⟩ := pure_ok.mp run₁
      exact ⟨[t], rfl, .atom (.identifier h)⟩
    · obtain ⟨p, c₂, opening, run₂⟩ := discard_bind_ok.mp run₁
      obtain ⟨f, c₃, rest, run₃⟩ := bind_ok.mp run₂
      obtain ⟨rfl, rfl⟩ := pure_ok.mp run₃
      obtain ⟨_, rfl, x, q, b, v, d, rfl, hx, hq, hb, hv, hd'⟩ :=
        sound_functionRest hd .function _ _ _ rest clean
      obtain ⟨hp, rfl⟩ := expect_ok.mp opening
      exact ⟨_, by simp [Cursor.before], .lambda h hp hx hq hb hv hd'⟩
    · obtain ⟨inner, c₂, hinner, run₂⟩ := bind_ok.mp run₁
      obtain ⟨q, c₃, close, run₃⟩ := discard_bind_ok.mp run₂
      obtain ⟨rfl, rfl⟩ := pure_ok.mp run₃
      obtain ⟨hq, rfl⟩ := expect_ok.mp close
      obtain ⟨u, rfl, hu⟩ := he _ _ _ hinner clean
      exact ⟨t :: (u ++ [q]), by simp [Cursor.before], .group h hu hq⟩
  · exact absurd run₁ fail_ok

/-- A call is derived with its suffixes. -/
theorem sound_call (he : SoundFor .expression expression)
    (hd : Sound declaration DeclarationRead) :
    SoundFor (.level .call) (call expression (block declaration)) := by
  intro c e c' run clean
  obtain ⟨a, c₁, hprimary, hloop⟩ := bind_ok.mp run
  -- what the loop has read so far is a callee, and each round makes a longer one
  have loop := sound_repeatFrom (fun a w e => Derivation .suffixes w (a, e))
    ?_ (fun a => .suffixEnd) a _ _ _ hloop clean
  · obtain ⟨w, rfl, hw⟩ := loop
    obtain ⟨u, rfl, hu⟩ := sound_primary he hd _ _ _ hprimary clean
    exact ⟨u ++ w, Cursor.before_before, .callee hu hw⟩
  · intro a c o c' run clean
    obtain ⟨o', c₁, htake, run₁⟩ := bind_ok.mp run
    obtain ⟨t, hk, rfl, rfl⟩ | ⟨-, rfl, rfl⟩ := take?_ok.mp htake
    · simp only at run₁
      split at run₁
      · next hparen =>
        obtain ⟨args, c₂, hargs, run₂⟩ := bind_ok.mp run₁
        obtain ⟨q, c₃, close, run₃⟩ := bind_ok.mp run₂
        obtain ⟨rfl, rfl⟩ := pure_ok.mp run₃
        obtain ⟨hq, rfl⟩ := expect_ok.mp close
        obtain ⟨v, rfl, hv⟩ := sound_arguments he _ _ _ hargs clean
        refine ⟨t :: (v ++ [q]), by simp [Cursor.before], ?_⟩
        intro w e hw
        simpa using Derivation.call hparen hv hq hw
      · next hparen =>
        obtain ⟨m, c₂, hname, run₂⟩ := bind_ok.mp run₁
        obtain ⟨rfl, rfl⟩ := pure_ok.mp run₂
        obtain ⟨hm, rfl⟩ := expect_ok.mp hname
        have hdot : t.kind = .dot := by
          simpa [hparen] using hk
        exact ⟨[t, m], by simp [Cursor.before], fun w e hw => .get hdot hm hw⟩
    · obtain ⟨rfl, rfl⟩ := pure_ok.mp run₁
      exact ⟨[], rfl, rfl⟩

/-- Operators in front of an operand: what the operand is, and then outward. -/
theorem derivation_prefixes {ops u : List Token} {e : Expr}
    (hops : ∀ op ∈ ops, op.kind ∈ [Token.Kind.bang, .minus])
    (he : Derivation (.level .unary) u e) :
    Derivation (.level .unary) (ops ++ u) (ops.foldr .unary e) := by
  induction ops with
  | nil => exact he
  | cons op ops ih =>
    exact .unary (hops op (List.mem_cons_self ..))
      (ih fun o ho => hops o (List.mem_cons_of_mem _ ho))

/-- Operators in front of an operand are derived one inside the other. -/
theorem sound_unary (he : SoundFor .expression expression)
    (hd : Sound declaration DeclarationRead) :
    SoundFor (.level .unary) (unary expression (block declaration)) := by
  intro c e c' run clean
  obtain ⟨ops, c₁, hops, run₁⟩ := bind_ok.mp run
  obtain ⟨a, c₂, hcall, run₂⟩ := bind_ok.mp run₁
  obtain ⟨rfl, rfl⟩ := pure_ok.mp run₂
  obtain ⟨u, rfl, hu⟩ := sound_call he hd _ _ _ hcall clean
  -- operators are collected in reverse, so the innermost is applied first
  have loop := sound_repeatFrom
    (fun ops w ops' => ops' = w.reverse ++ ops ∧
      ∀ op ∈ w, op.kind ∈ [Token.Kind.bang, .minus])
    ?_ (fun a => ⟨rfl, by simp⟩) [] _ _ _ hops clean
  · obtain ⟨w, rfl, rfl, hw⟩ := loop
    refine ⟨w ++ u, Cursor.before_before, ?_⟩
    rw [List.append_nil, List.foldl_reverse]
    exact derivation_prefixes hw (.plain hu)
  · intro ops c o c' run _
    obtain ⟨o', c₁, htake, run₁⟩ := bind_ok.mp run
    obtain ⟨rfl, rfl⟩ := pure_ok.mp run₁
    obtain ⟨t, hk, rfl, rfl⟩ | ⟨-, rfl, rfl⟩ := take?_ok.mp htake
    · refine ⟨[t], rfl, ?_⟩
      rintro w e ⟨rfl, hw⟩
      refine ⟨by simp, ?_⟩
      intro op hop
      rcases List.mem_cons.mp hop with rfl | hop
      · exact hk
      · exact hw op hop
    · exact ⟨[], rfl, rfl⟩

/-- Operands of a level with its operators between them. -/
theorem sound_leftAssoc {l : Level} {operand : Parser Expr} (nonempty : l.operators ≠ [])
    (ho : SoundFor (.level l.inner) operand) :
    SoundFor (.level l) (leftAssoc l.operators l.join operand) := by
  intro c e c' run clean
  obtain ⟨a, c₁, hfirst, hloop⟩ := bind_ok.mp run
  have loop := sound_repeatFrom (fun a w e => Derivation (.chain l) w (a, e))
    ?_ (fun a => .chainEnd) a _ _ _ hloop clean
  · obtain ⟨w, rfl, hw⟩ := loop
    obtain ⟨u, rfl, hu⟩ := ho _ _ _ hfirst clean
    exact ⟨u ++ w, Cursor.before_before, .operand nonempty hu hw⟩
  · intro a c o c' run clean
    obtain ⟨o', c₁, htake, run₁⟩ := bind_ok.mp run
    obtain ⟨op, hk, rfl, rfl⟩ | ⟨-, rfl, rfl⟩ := take?_ok.mp htake
    · obtain ⟨b, c₂, hoperand, run₂⟩ := bind_ok.mp run₁
      obtain ⟨rfl, rfl⟩ := pure_ok.mp run₂
      obtain ⟨v, rfl, hv⟩ := ho _ _ _ hoperand clean
      exact ⟨op :: v, Cursor.before_before, fun w e hw => .chainStep hk hv hw⟩
    · obtain ⟨rfl, rfl⟩ := pure_ok.mp run₁
      exact ⟨[], rfl, rfl⟩

/-- The levels of operators are derived one inside the other. -/
theorem sound_disjunction (he : SoundFor .expression expression)
    (hd : Sound declaration DeclarationRead) :
    SoundFor (.level .disjunction) (disjunction expression (block declaration)) := by
  have hfactor : SoundFor (.level .factor) (factor expression (block declaration)) :=
    sound_leftAssoc (l := .factor) (by decide) (sound_unary he hd)
  have hterm : SoundFor (.level .term) (term expression (block declaration)) :=
    sound_leftAssoc (l := .term) (by decide) hfactor
  have hcomparison : SoundFor (.level .comparison) (comparison expression (block declaration)) :=
    sound_leftAssoc (l := .comparison) (by decide) hterm
  have hequality : SoundFor (.level .equality) (equality expression (block declaration)) :=
    sound_leftAssoc (l := .equality) (by decide) hcomparison
  have hconjunction : SoundFor (.level .conjunction) (conjunction expression (block declaration)) :=
    sound_leftAssoc (l := .conjunction) (by decide) hequality
  exact sound_leftAssoc (l := .disjunction) (by decide) hconjunction

/-- An assignment is derived from the expression that was read as its target. -/
theorem sound_assignment (he : SoundFor .expression expression)
    (hd : Sound declaration DeclarationRead) :
    SoundFor .expression (assignment expression (block declaration)) := by
  intro c e c' run clean
  obtain ⟨target, c₁, htarget, run₁⟩ := bind_ok.mp run
  obtain ⟨o, c₂, take, run₂⟩ := bind_ok.mp run₁
  obtain ⟨q, hq, rfl, rfl⟩ | ⟨-, rfl, rfl⟩ := take?_ok.mp take
  · obtain ⟨value, c₃, hvalue, run₃⟩ := bind_ok.mp run₂
    have hq := List.mem_singleton.mp hq
    unfold assignTo at run₃
    split at run₃
    · obtain ⟨rfl, rfl⟩ := pure_ok.mp run₃
      obtain ⟨v, rfl, hv⟩ := he _ _ _ hvalue clean
      obtain ⟨u, rfl, hu⟩ := sound_disjunction he hd _ _ _ htarget clean
      -- the target was read as an expression: it derives as a single name
      obtain ⟨t, rfl, ht, rfl⟩ := hu.variable_inv
      exact ⟨t :: q :: v, by simp [Cursor.before], .assign ht hq hv⟩
    · obtain ⟨rfl, rfl⟩ := pure_ok.mp run₃
      obtain ⟨v, rfl, hv⟩ := he _ _ _ hvalue clean
      obtain ⟨u, rfl, hu⟩ := sound_disjunction he hd _ _ _ htarget clean
      -- or as a property of what comes before it
      obtain ⟨w, d, rfl, hw, hdot, ht⟩ := hu.get_inv
      exact ⟨_, by simp [Cursor.before], .set hw hdot ht hq hv⟩
    · -- What cannot be assigned leaves an error behind.
      obtain ⟨_, c₄, hreport, run₄⟩ := bind_ok.mp run₃
      obtain ⟨rfl, rfl⟩ := pure_ok.mp run₄
      rw [report_ok.mp hreport] at clean
      simp at clean
  · obtain ⟨rfl, rfl⟩ := pure_ok.mp run₂
    obtain ⟨u, rfl, hu⟩ := sound_disjunction he hd _ _ _ htarget clean
    exact ⟨u, rfl, .value hu⟩

end Expressions

/-! ### Statements -/

section Statements

variable {expression : Parser Expr} {statement : Parser Stmt} {declaration : Parser (Option Stmt)}

/-- An expression and a semicolon were read. -/
theorem sound_expressionStatement (he : SoundFor .expression expression) :
    Sound (expressionStatement expression) fun u s _ => ∃ v k e, u = v ++ [k] ∧ s = .expr e ∧
      Derivation .expression v e ∧ k.kind = .semicolon := by
  intro c s c' run clean
  obtain ⟨e, c₁, hexpr, run₁⟩ := bind_ok.mp run
  obtain ⟨k, c₂, close, run₂⟩ := discard_bind_ok.mp run₁
  obtain ⟨rfl, rfl⟩ := pure_ok.mp run₂
  obtain ⟨hk, rfl⟩ := expect_ok.mp close
  obtain ⟨v, rfl, hv⟩ := he _ _ _ hexpr clean
  exact ⟨v ++ [k], Cursor.before_before, v, k, e, rfl, rfl, hv, hk⟩

/-- An expression that may be left out was read or was not there. -/
theorem sound_optionalUnless {closing : Token.Kind} (he : SoundFor .expression expression) :
    SoundFor .optional (optionalUnless closing expression) := by
  intro c o c' run clean
  obtain ⟨b, c₁, hat, run₁⟩ := bind_ok.mp run
  obtain ⟨-, rfl⟩ := isAt_ok.mp hat
  cases b with
  | true =>
    obtain ⟨rfl, rfl⟩ := pure_ok.mp run₁
    exact ⟨[], rfl, .noExpression⟩
  | false =>
    obtain ⟨e, c₂, hexpr, run₂⟩ := bind_ok.mp run₁
    obtain ⟨rfl, rfl⟩ := pure_ok.mp run₂
    obtain ⟨u, rfl, hu⟩ := he _ _ _ hexpr clean
    exact ⟨u, rfl, .someExpression hu⟩

/-- A variable was read, with its value or without. -/
theorem sound_varDeclaration (he : SoundFor .expression expression) :
    SoundFor .varRest (varDeclaration expression) := by
  intro c s c' run clean
  obtain ⟨t, c₁, name, run₁⟩ := bind_ok.mp run
  obtain ⟨o, c₂, take, run₂⟩ := bind_ok.mp run₁
  obtain ⟨ht, rfl⟩ := expect_ok.mp name
  obtain ⟨q, hq, rfl, rfl⟩ | ⟨-, rfl, rfl⟩ := take?_ok.mp take
  · obtain ⟨init, c₃, hinit, run₃⟩ := bind_ok.mp run₂
    obtain ⟨k, c₄, close, run₄⟩ := discard_bind_ok.mp run₃
    obtain ⟨rfl, rfl⟩ := pure_ok.mp run₄
    obtain ⟨e, hexpr, rfl⟩ := map_ok.mp hinit
    obtain ⟨hk, rfl⟩ := expect_ok.mp close
    obtain ⟨u, rfl, hu⟩ := he _ _ _ hexpr clean
    exact ⟨t :: q :: (u ++ [k]), by simp [Cursor.before],
      .varSome ht (List.mem_singleton.mp hq) hu hk⟩
  · obtain ⟨init, c₃, hinit, run₃⟩ := bind_ok.mp run₂
    obtain ⟨k, c₄, close, run₄⟩ := discard_bind_ok.mp run₃
    obtain ⟨rfl, rfl⟩ := pure_ok.mp run₄
    obtain ⟨rfl, rfl⟩ := pure_ok.mp hinit
    obtain ⟨hk, rfl⟩ := expect_ok.mp close
    exact ⟨[t, k], by simp [Cursor.before], .varNone ht hk⟩

/-- The start of a loop was read, or was not there. -/
theorem sound_forInit (he : SoundFor .expression expression) :
    SoundFor .forInit (forInit expression) := by
  intro c o c' run clean
  obtain ⟨t, c₁, take, run₁⟩ := bind_ok.mp run
  obtain ⟨t, ht, rfl, rfl⟩ | ⟨-, rfl, rfl⟩ := take?_ok.mp take
  · simp only at run₁
    split at run₁
    · next hk =>
      obtain ⟨rfl, rfl⟩ := pure_ok.mp run₁
      exact ⟨[t], rfl, .noInit hk⟩
    · next hk =>
      obtain ⟨s, hs, rfl⟩ := map_ok.mp run₁
      obtain ⟨u, rfl, hu⟩ := sound_varDeclaration he _ _ _ hs clean
      have hvar : t.kind = .varKw := by
        simpa [hk] using ht
      exact ⟨t :: u, Cursor.before_before, .varInit hvar hu⟩
  · obtain ⟨s, hs, rfl⟩ := map_ok.mp run₁
    obtain ⟨_, rfl, v, k, e, rfl, rfl, hv, hk⟩ := sound_expressionStatement he _ _ _ hs clean
    exact ⟨v ++ [k], rfl, .exprInit hv hk⟩

/-- A loop is open for an `else` if the statement that it repeats is. -/
theorem sound_whileStatement (he : SoundFor .expression expression)
    (hs : Sound statement StatementRead) {w : Token} (hw : w.kind = .whileKw) :
    Sound (whileStatement expression statement) fun u s rest => StatementRead (w :: u) s rest := by
  intro c s c' run clean
  obtain ⟨p, c₁, opening, run₁⟩ := discard_bind_ok.mp run
  obtain ⟨test, c₂, htest, run₂⟩ := bind_ok.mp run₁
  obtain ⟨q, c₃, close, run₃⟩ := discard_bind_ok.mp run₂
  obtain ⟨body, c₄, hbody, run₄⟩ := bind_ok.mp run₃
  obtain ⟨rfl, rfl⟩ := pure_ok.mp run₄
  obtain ⟨v, rfl, isOpen, hv, lonely⟩ := hs _ _ _ hbody clean
  obtain ⟨hq, rfl⟩ := expect_ok.mp close
  obtain ⟨u, rfl, hu⟩ := he _ _ _ htest clean
  obtain ⟨hp, rfl⟩ := expect_ok.mp opening
  exact ⟨p :: (u ++ q :: v), by simp [Cursor.before], isOpen, .loop hw hp hu hq hv, lonely⟩

/-- A condition without an `else` is open for one, and then none is ahead. -/
theorem sound_ifStatement (he : SoundFor .expression expression)
    (hs : Sound statement StatementRead) {i : Token} (hi : i.kind = .ifKw) :
    Sound (ifStatement expression statement) fun u s rest => StatementRead (i :: u) s rest := by
  intro c s c' run clean
  obtain ⟨p, c₁, opening, run₁⟩ := discard_bind_ok.mp run
  obtain ⟨test, c₂, htest, run₂⟩ := bind_ok.mp run₁
  obtain ⟨q, c₃, close, run₃⟩ := discard_bind_ok.mp run₂
  obtain ⟨yes, c₄, hyes, run₄⟩ := bind_ok.mp run₃
  obtain ⟨o, c₅, take, run₅⟩ := bind_ok.mp run₄
  obtain ⟨l, hl, rfl, rfl⟩ | ⟨lonely, rfl, rfl⟩ := take?_ok.mp take
  · obtain ⟨no, c₆, hno, run₆⟩ := bind_ok.mp run₅
    obtain ⟨rfl, rfl⟩ := pure_ok.mp run₆
    obtain ⟨w, rfl, isOpen, hw, lonely⟩ := hs _ _ _ hno clean
    obtain ⟨v, rfl, isOpen', hv, lonely'⟩ := hs _ _ _ hyes clean
    obtain ⟨hq, rfl⟩ := expect_ok.mp close
    obtain ⟨u, rfl, hu⟩ := he _ _ _ htest clean
    obtain ⟨hp, rfl⟩ := expect_ok.mp opening
    -- The first branch stands before an `else` that it left alone.
    have closed : isOpen' = false := by
      cases isOpen' with
      | false => rfl
      | true => exact absurd (ahead_cons.mpr hl) (lonely' rfl)
    subst closed
    exact ⟨p :: (u ++ q :: (v ++ l :: w)), by simp [Cursor.before], isOpen,
      .condElse hi hp hu hq hv (List.mem_singleton.mp hl) hw, lonely⟩
  · obtain ⟨rfl, rfl⟩ := pure_ok.mp run₅
    obtain ⟨v, rfl, isOpen, hv, -⟩ := hs _ _ _ hyes clean
    obtain ⟨hq, rfl⟩ := expect_ok.mp close
    obtain ⟨u, rfl, hu⟩ := he _ _ _ htest clean
    obtain ⟨hp, rfl⟩ := expect_ok.mp opening
    exact ⟨p :: (u ++ q :: v), by simp [Cursor.before], true, .cond hi hp hu hq hv,
      fun _ => lonely⟩

/-- A loop with its parts is open for an `else` if the statement that it repeats is. -/
theorem sound_forStatement (he : SoundFor .expression expression)
    (hs : Sound statement StatementRead) {f : Token} (hf : f.kind = .forKw) :
    Sound (forStatement expression statement) fun u s rest => StatementRead (f :: u) s rest := by
  intro c s c' run clean
  obtain ⟨p, c₁, opening, run₁⟩ := discard_bind_ok.mp run
  obtain ⟨init, c₂, hinit, run₂⟩ := bind_ok.mp run₁
  obtain ⟨test, c₃, htest, run₃⟩ := bind_ok.mp run₂
  obtain ⟨k, c₄, semicolon, run₄⟩ := discard_bind_ok.mp run₃
  obtain ⟨step, c₅, hstep, run₅⟩ := bind_ok.mp run₄
  obtain ⟨q, c₆, close, run₆⟩ := discard_bind_ok.mp run₅
  obtain ⟨body, c₇, hbody, run₇⟩ := bind_ok.mp run₆
  obtain ⟨rfl, rfl⟩ := pure_ok.mp run₇
  obtain ⟨x, rfl, isOpen, hx, lonely⟩ := hs _ _ _ hbody clean
  obtain ⟨hq, rfl⟩ := expect_ok.mp close
  obtain ⟨w, rfl, hw⟩ := sound_optionalUnless he _ _ _ hstep clean
  obtain ⟨hk, rfl⟩ := expect_ok.mp semicolon
  obtain ⟨v, rfl, hv⟩ := sound_optionalUnless he _ _ _ htest clean
  obtain ⟨u, rfl, hu⟩ := sound_forInit he _ _ _ hinit clean
  obtain ⟨hp, rfl⟩ := expect_ok.mp opening
  exact ⟨p :: (u ++ (v ++ k :: (w ++ q :: x))), by simp [Cursor.before], isOpen,
    .forLoop hf hp hu hv hk hw hq hx, lonely⟩

/-- A statement was read, whichever it is. -/
theorem sound_anyStatement (he : SoundFor .expression expression)
    (hs : Sound statement StatementRead) (hd : Sound declaration DeclarationRead) :
    Sound (anyStatement expression statement declaration) StatementRead := by
  intro c s c' run clean
  obtain ⟨o, c₁, take, run₁⟩ := bind_ok.mp run
  obtain ⟨t, ht, rfl, rfl⟩ | ⟨-, rfl, rfl⟩ := take?_ok.mp take
  · simp only [statementKinds, List.mem_cons, List.not_mem_nil, or_false] at ht
    -- one case for each keyword that starts a statement, and a block
    rcases ht with h | h | h | h | h | h <;> simp only [h] at run₁
    · obtain ⟨u, rfl, hu⟩ := sound_forStatement he hs h _ _ _ run₁ clean
      exact ⟨t :: u, Cursor.before_before, hu⟩
    · obtain ⟨u, rfl, hu⟩ := sound_ifStatement he hs h _ _ _ run₁ clean
      exact ⟨t :: u, Cursor.before_before, hu⟩
    · obtain ⟨e, c₂, hexpr, run₂⟩ := bind_ok.mp run₁
      obtain ⟨k, c₃, close, run₃⟩ := discard_bind_ok.mp run₂
      obtain ⟨rfl, rfl⟩ := pure_ok.mp run₃
      obtain ⟨hk, rfl⟩ := expect_ok.mp close
      obtain ⟨u, rfl, hu⟩ := he _ _ _ hexpr clean
      exact ⟨t :: (u ++ [k]), by simp [Cursor.before], false, .print h hu hk, nofun⟩
    · obtain ⟨value, c₂, hvalue, run₂⟩ := bind_ok.mp run₁
      obtain ⟨k, c₃, close, run₃⟩ := discard_bind_ok.mp run₂
      obtain ⟨rfl, rfl⟩ := pure_ok.mp run₃
      obtain ⟨hk, rfl⟩ := expect_ok.mp close
      obtain ⟨u, rfl, hu⟩ := sound_optionalUnless he _ _ _ hvalue clean
      exact ⟨t :: (u ++ [k]), by simp [Cursor.before], false, .ret h hu hk, nofun⟩
    · obtain ⟨u, rfl, hu⟩ := sound_whileStatement he hs h _ _ _ run₁ clean
      exact ⟨t :: u, Cursor.before_before, hu⟩
    · obtain ⟨body, hbody, rfl⟩ := map_ok.mp run₁
      obtain ⟨_, rfl, u, d, rfl, hu, hd'⟩ := sound_block hd _ _ _ hbody clean
      exact ⟨t :: (u ++ [d]), by simp [Cursor.before], false, .block h hu hd', nofun⟩
  · obtain ⟨_, rfl, v, k, e, rfl, rfl, hv, hk⟩ := sound_expressionStatement he _ _ _ run₁ clean
    exact ⟨v ++ [k], rfl, false, .expr hv hk, nofun⟩

end Statements

/-! ### Declarations -/

section Declarations

variable {expression : Parser Expr} {statement : Parser Stmt} {declaration : Parser (Option Stmt)}

/-- A function was read, with its parameters and its body. -/
theorem sound_function (hd : Sound declaration DeclarationRead) (owner : Owner) :
    SoundFor .function (function declaration owner) := by
  intro c f c' run clean
  obtain ⟨t, c₁, name, run₁⟩ := bind_ok.mp run
  obtain ⟨p, c₂, opening, run₂⟩ := discard_bind_ok.mp run₁
  obtain ⟨⟨params, body⟩, c₃, hrest, run₃⟩ := bind_ok.mp run₂
  obtain ⟨rfl, rfl⟩ := pure_ok.mp run₃
  obtain ⟨_, rfl, x, q, b, v, d, rfl, hx, hq, hb, hv, hd'⟩ :=
    sound_functionRest hd owner _ _ _ hrest clean
  obtain ⟨hp, rfl⟩ := expect_ok.mp opening
  obtain ⟨ht, rfl⟩ := expect_ok.mp name
  exact ⟨_, by simp [Cursor.before], .function ht hp hx hq hb hv hd'⟩

/-- A superclass clause was read, or was not there. -/
theorem sound_superclassClause : SoundFor .superclass superclassClause := by
  intro c o c' run _
  obtain ⟨o', c₁, take, run₁⟩ := bind_ok.mp run
  obtain ⟨k, hk, rfl, rfl⟩ | ⟨-, rfl, rfl⟩ := take?_ok.mp take
  · obtain ⟨t, c₂, name, run₂⟩ := bind_ok.mp run₁
    obtain ⟨rfl, rfl⟩ := pure_ok.mp run₂
    obtain ⟨ht, rfl⟩ := expect_ok.mp name
    exact ⟨[k, t], by simp [Cursor.before], .someSuperclass hk ht⟩
  · obtain ⟨rfl, rfl⟩ := pure_ok.mp run₁
    exact ⟨[], rfl, .noSuperclass⟩

/-- Methods were read one after the other. -/
theorem sound_methods (hd : Sound declaration DeclarationRead) :
    SoundFor .methods (methods declaration) := by
  intro c fs c' run clean
  obtain ⟨reversed, c₁, hloop, run₁⟩ := bind_ok.mp run
  obtain ⟨rfl, rfl⟩ := pure_ok.mp run₁
  have loop := sound_collect (Derivation .methods) .noMethods ?_ [] _ _ _ hloop clean
  · obtain ⟨w, rfl, rest, rfl, hrest⟩ := loop
    exact ⟨w, rfl, by simpa using hrest⟩
  · intro fs c o c' run clean
    obtain ⟨b₁, c₁, hat, run₁⟩ := bind_ok.mp run
    obtain ⟨b₂, c₂, hend, run₂⟩ := bind_ok.mp run₁
    obtain ⟨-, rfl⟩ := isAt_ok.mp hat
    obtain ⟨-, rfl⟩ := atEnd_ok.mp hend
    split at run₂
    · obtain ⟨rfl, rfl⟩ := pure_ok.mp run₂
      exact ⟨[], rfl, rfl⟩
    · obtain ⟨f, c₃, hfunction, run₃⟩ := bind_ok.mp run₂
      obtain ⟨rfl, rfl⟩ := pure_ok.mp run₃
      obtain ⟨u, rfl, hu⟩ := sound_function hd .method _ _ _ hfunction clean
      exact ⟨u, rfl, f, rfl, fun w rest hrest => .methods hu hrest⟩

/-- A class was read, with its methods. -/
theorem sound_classDeclaration (hd : Sound declaration DeclarationRead) {k : Token}
    (hk : k.kind = .classKw) :
    Sound (classDeclaration declaration) fun u s _ => Derivation .declaration (k :: u) s := by
  intro c s c' run clean
  obtain ⟨t, c₁, name, run₁⟩ := bind_ok.mp run
  obtain ⟨superclass, c₂, hsuper, run₂⟩ := bind_ok.mp run₁
  obtain ⟨b, c₃, opening, run₃⟩ := discard_bind_ok.mp run₂
  obtain ⟨fs, c₄, hmethods, run₄⟩ := bind_ok.mp run₃
  obtain ⟨d, c₅, close, run₅⟩ := discard_bind_ok.mp run₄
  obtain ⟨rfl, rfl⟩ := pure_ok.mp run₅
  obtain ⟨hd', rfl⟩ := expect_ok.mp close
  obtain ⟨v, rfl, hv⟩ := sound_methods hd _ _ _ hmethods clean
  obtain ⟨hb, rfl⟩ := expect_ok.mp opening
  obtain ⟨u, rfl, hu⟩ := sound_superclassClause _ _ _ hsuper clean
  obtain ⟨ht, rfl⟩ := expect_ok.mp name
  exact ⟨t :: (u ++ b :: (v ++ [d])), by simp [Cursor.before], .classDecl hk ht hu hb hv hd'⟩

/-- A declaration was read, whichever it is. -/
theorem sound_anyDeclaration (he : SoundFor .expression expression)
    (hs : Sound statement StatementRead) (hd : Sound declaration DeclarationRead) :
    SoundFor .declaration (anyDeclaration expression statement declaration) := by
  intro c s c' run clean
  obtain ⟨b, c₁, hat, run₁⟩ := bind_ok.mp run
  obtain ⟨hb, rfl⟩ := areAt_ok.mp hat
  -- a name after the keyword tells a function from an expression
  cases b with
  | true =>
    obtain ⟨o, c₂, take, run₂⟩ := discard_bind_ok.mp run₁
    obtain ⟨decl, hdecl, rfl⟩ := map_ok.mp run₂
    obtain ⟨t₁, t₂, r, hrest, h₁, -⟩ := hb.mp rfl
    obtain ⟨f, hf, rfl, rfl⟩ | ⟨none, rfl, rfl⟩ := take?_ok.mp take
    · obtain ⟨u, rfl, hu⟩ := sound_function hd .function _ _ _ hdecl clean
      exact ⟨f :: u, Cursor.before_before, .fun (List.mem_singleton.mp hf) hu⟩
    · rw [hrest, ahead_cons, h₁] at none
      simp at none
  | false =>
    obtain ⟨o, c₂, take, run₂⟩ := bind_ok.mp run₁
    obtain ⟨t, ht, rfl, rfl⟩ | ⟨-, rfl, rfl⟩ := take?_ok.mp take
    · simp only at run₂
      split at run₂
      · next hk =>
        obtain ⟨u, rfl, hu⟩ := sound_classDeclaration hd hk _ _ _ run₂ clean
        exact ⟨t :: u, Cursor.before_before, hu⟩
      · next hk =>
        obtain ⟨u, rfl, hu⟩ := sound_varDeclaration he _ _ _ run₂ clean
        have hvar : t.kind = .varKw := by
          simpa [hk] using ht
        exact ⟨t :: u, Cursor.before_before, .var hvar hu⟩
    · obtain ⟨u, rfl, isOpen, hu, -⟩ := hs _ _ _ run₂ clean
      exact ⟨u, rfl, .statement hu⟩

end Declarations

/-! ### Programs -/

/-- At every depth of nesting, expressions, statements and declarations are read as such. -/
theorem sound_nested (n : Nat) :
    SoundFor .expression (expressionAt n) ∧ Sound (statementAt n) StatementRead ∧
      Sound (declarationAt n) DeclarationRead := by
  -- on the depth of nesting: each level reads with the readers of the level below
  induction n with
  | zero =>
    refine ⟨?_, ?_, ?_⟩
    · intro c e c' run _
      exact absurd (by rwa [expressionAt] at run) fail_ok
    · intro c s c' run _
      exact absurd (by rwa [statementAt] at run) fail_ok
    · intro c o c' run _
      exact absurd (by rwa [declarationAt] at run) fail_ok
  | succ n ih =>
    obtain ⟨he, hs, hd⟩ := ih
    refine ⟨?_, ?_, ?_⟩
    · intro c e c' run clean
      rw [expressionAt] at run
      exact sound_assignment he hd c e c' run clean
    · intro c s c' run clean
      rw [statementAt] at run
      exact sound_anyStatement he hs hd c s c' run clean
    · intro c o c' run clean
      rw [declarationAt] at run
      obtain ⟨s, rfl, inside⟩ := recover_ok run clean
      obtain ⟨u, hc, hu⟩ := sound_anyDeclaration he hs hd c s c' inside clean
      exact ⟨u, hc, s, rfl, hu⟩

/-- The step of the loop over the declarations of a text. -/
def topStep (n : Nat) (body : List Stmt) : Parser (Option (List Stmt)) := do
  if ← atEnd then return none
  else return some ((← declarationAt n).toList ++ body)

/-- The loop ends where the text does, and goes on with a declaration. -/
theorem sound_topStep (n : Nat) (body : List Stmt) :
    Sound (topStep n body) fun u o rest =>
      match o with
      | none => u = [] ∧ rest = []
      | some body' => ∃ s, body' = s :: body ∧ Derivation .declaration u s := by
  intro c o c' run clean
  obtain ⟨b, c₁, hend, run₁⟩ := bind_ok.mp run
  obtain ⟨hb, rfl⟩ := atEnd_ok.mp hend
  cases b with
  | true =>
    obtain ⟨rfl, rfl⟩ := pure_ok.mp run₁
    exact ⟨[], rfl, rfl, hb.mp rfl⟩
  | false =>
    obtain ⟨d, c₂, hdecl, run₂⟩ := bind_ok.mp run₁
    obtain ⟨rfl, rfl⟩ := pure_ok.mp run₂
    obtain ⟨u, rfl, s, rfl, hs⟩ := (sound_nested n).2.2 _ _ _ hdecl clean
    exact ⟨u, rfl, s, rfl, hs⟩

/-- The declarations of a text are read as such. -/
theorem sound_topLevel (n : Nat) : SoundFor .declarations (topLevel n) := by
  intro c body c' run clean
  obtain ⟨reversed, c₁, hloop, run₁⟩ := bind_ok.mp run
  obtain ⟨rfl, rfl⟩ := pure_ok.mp run₁
  have loop := sound_collect (Derivation .declarations) .noDeclarations ?_ [] _ _ _ hloop clean
  · obtain ⟨w, rfl, rest, rfl, hrest⟩ := loop
    exact ⟨w, rfl, by simpa using hrest⟩
  · intro body c o c' run clean
    obtain ⟨u, rfl, hu⟩ := sound_topStep n body c o c' run clean
    refine ⟨u, rfl, ?_⟩
    cases o with
    | none => exact hu.1
    | some body' =>
      obtain ⟨s, rfl, hs⟩ := hu
      exact ⟨s, rfl, fun w rest hrest => .declarations hs hrest⟩

end Lox.Grammar
