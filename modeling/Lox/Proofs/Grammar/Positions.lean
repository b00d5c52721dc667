import Lox.Proofs.Grammar.Track

/-!
Each production, read by position, goes on as it does from a cursor, with rounds to spare when there
are more rounds than tokens. The nesting is closed at the end, three levels to a token.
-/

namespace Lox.Grammar

variable {row : List Token} {last k fuel : Nat}

/-- The reader goes on as the parser wherever there are less than `k` tokens to come, as behind a
token that was taken. -/
def TracksBelow {α : Type} (row : List Token) (last k : Nat) (m : Reader α) (p : Parser α)
    (n : α → Nat) : Prop :=
  ∀ l < k, Tracks row last 0 l m p n

section

variable {α : Type} {m : Reader α} {p : Parser α} {n : α → Nat}

/-- Behind a token that was taken, and maybe more. -/
theorem TracksBelow.behind (h : TracksBelow row last k m p n) (more : 1 ≤ k) {l : Nat}
    (le : l ≤ k - 1) : Tracks row last 0 l m p n :=
  h l (by omega)

/-- A list is read on the tape as the parser reads it. -/
theorem tracks_separated (h : Tracks row last 0 k m p fun _ => 1) (enough : k < fuel)
    (closing : Token.Kind) :
    Tracks row last 0 k (Tape.separated fuel closing m) (Parser.separated closing p)
      fun _ => 0 := by
  refine tracks_check fun b => ?_
  cases b with
  | true => exact tracks_pure rfl
  | false =>
    refine h.bind fun first _ => Tracks.bind (n := fun _ => 0) (tracks_loop ?_ (by omega) _) ?_
    · exact fun items => tracks_take (tracks_pure rfl) fun _ _ =>
        (h.mono (by omega)).bind fun _ _ => tracks_pure rfl
    · exact fun _ _ => tracks_pure rfl

end

/-! ### Expressions -/

section Expressions

variable {expression' : Reader Expr} {expression : Parser Expr} {block' : Reader (List Stmt)}
  {block : Parser (List Stmt)}

/-- Parameters and a body are read on the tape as the parser reads them. -/
theorem tracks_functionRest (h : Tracks row last 0 k block' block fun _ => 0) (enough : k < fuel)
    (owner : Owner) :
    Tracks row last 0 k (Tape.functionRest fuel block' owner) (functionRest block owner)
      fun _ => 0 :=
  (tracks_separated (tracks_expect _ _) enough _).bind fun _ _ => tracks_expected fun _ =>
    tracks_expected fun _ => (h.mono (by omega)).bind fun _ _ => tracks_pure rfl

/-- An operand with operators in front of it, the innermost first. -/
def underOperators (ops : List Token) (e : Expr) : Expr := ops.foldl (fun e op => .unary op e) e

def moreOperators (ops : List Token) : Parser (Option (List Token)) :=
  return (← Parser.take? [.bang, .minus]).map (· :: ops)

variable (hexpr : TracksBelow row last k expression' expression fun _ => 1)
  (hblock : TracksBelow row last k block' block fun _ => 0) (enough : k < fuel)

include hexpr hblock enough

/-- A primary expression takes a token. -/
theorem tracks_primary :
    Tracks row last 0 k (Tape.primary fuel expression' block') (primary expression block)
      fun _ => 1 := by
  refine tracks_take tracks_fail fun t more => ?_
  dsimp only
  generalize t.kind = kind
  cases kind with
  | superKw => exact tracks_expected fun _ => (tracks_expect _ _).bind fun _ _ => tracks_pure rfl
  | funKw =>
    refine tracks_expected fun more' => Tracks.bind (n := fun _ => 0) (tracks_functionRest
      (hblock.behind more (by omega)) (by omega) .function) fun _ _ => tracks_pure rfl
  | leftParen =>
    exact (hexpr.behind more (Nat.le_refl _)).bind fun _ _ => tracks_expected fun _ =>
      tracks_pure rfl
  | _ => exact tracks_pure rfl

/-- A call takes a token, and each of its suffixes does. -/
theorem tracks_call :
    Tracks row last 0 k (Tape.call fuel expression' block') (call expression block)
      fun _ => 1 := by
  refine (tracks_primary hexpr hblock enough).bind fun e more =>
    tracks_loop (fun e => ?_) (by omega) e
  refine tracks_take (tracks_pure rfl) fun t _ => ?_
  dsimp only
  split
  · exact Tracks.bind (n := fun _ => 0)
      (tracks_separated (hexpr.behind more (by omega)) (by omega) _)
      fun _ _ => (tracks_expect _ _).bind fun _ _ => tracks_pure rfl
  · exact (tracks_expect _ _).bind fun _ _ => tracks_pure rfl

/-- Operators that nest by recursion are those that a loop collects. -/
theorem tracks_unary :
    Tracks row last 0 k (Tape.unary fuel expression' block' fuel) (unary expression block)
      fun _ => 1 := by
  -- the tape nests where the parser collects; the operators read so far make up the difference
  have rounds : ∀ rounds l, l ≤ k → l < rounds → ∀ (left : List Token), l < left.length → ∀ ops,
      Tracks row last 0 l (underOperators ops <$> Tape.unary fuel expression' block' rounds)
        (Parser.iterate moreOperators left ops >>= fun ops =>
          underOperators ops <$> call expression block) fun _ => 1 := by
    intro rounds
    induction rounds with
    | zero => exact fun l _ none => absurd none (Nat.not_lt_zero l)
    | succ rounds ih =>
      intro l le within left more ops
      cases left with
      | nil => exact absurd more (Nat.not_lt_zero l)
      | cons round left =>
        rw [List.length_cons] at more
        unfold Tape.unary Parser.iterate moreOperators
        simp only [map_eq_pure_bind, bind_assoc, pure_bind]
        refine tracks_take ?_ fun op taken => ?_
        · have operand := (tracks_call hexpr hblock enough).mono le
          exact operand.bind fun _ _ => tracks_pure rfl
        · have nested := ih (l - 1) (by omega) (by omega) left (by omega) (op :: ops)
          simp only [map_eq_pure_bind] at nested
          simp only [bind_assoc, pure_bind, Option.map_some]
          exact nested.weaken fun _ => Nat.zero_le _
  intro t c stands low high
  have length : (c.eof :: c.rest).length = c.rest.length + 1 := List.length_cons
  have whole := rounds fuel c.rest.length high (by omega) (c.eof :: c.rest) (by omega) [] t c stands
    low (Nat.le_refl _)
  have same : underOperators [] <$> Tape.unary fuel expression' block' fuel =
      Tape.unary fuel expression' block' fuel := id_map _
  rw [same] at whole
  exact whole

omit hexpr hblock in
/-- Operands take a token each, so the loop over them ends. -/
theorem tracks_leftAssoc {operand' : Reader Expr} {operand : Parser Expr}
    (h : Tracks row last 0 k operand' operand fun _ => 1) (kinds : List Token.Kind)
    (make : Token → Expr → Expr → Expr) :
    Tracks row last 0 k (Tape.leftAssoc fuel kinds make operand') (leftAssoc kinds make operand)
      fun _ => 1 := by
  refine h.bind fun first _ => tracks_loop (fun left => ?_) (by omega) first
  exact tracks_take (tracks_pure rfl) fun _ _ => (h.mono (by omega)).bind fun _ _ =>
    tracks_pure rfl

/-- An assignment is read on the tape as the parser reads it. -/
theorem tracks_assignment :
    Tracks row last 0 k (Tape.assignment fuel expression' block') (assignment expression block)
      fun _ => 1 := by
  have factor := tracks_leftAssoc enough (tracks_unary hexpr hblock enough) [.slash, .star] .binary
  have term := tracks_leftAssoc enough factor [.minus, .plus] .binary
  have comparison := tracks_leftAssoc enough term [.greater, .greaterEqual, .less, .lessEqual]
    .binary
  have equality := tracks_leftAssoc enough comparison [.bangEqual, .equalEqual] .binary
  have conjunction := tracks_leftAssoc enough equality [.andKw] .logical
  have disjunction := tracks_leftAssoc enough conjunction [.orKw] .logical
  refine disjunction.bind fun target more => tracks_take (tracks_pure rfl) fun equals _ =>
    (hexpr.behind more (by omega)).bind fun value _ => ?_
  have kept : Tracks row last 0 (k - 1 - 1 - 1)
      (do Tape.report ⟨equals, .assignmentTarget⟩; return target)
      (do Parser.report ⟨equals, .assignmentTarget⟩; return target) fun _ => 0 :=
    Tracks.bind (n := fun _ => 0) (tracks_report _) fun _ _ => tracks_pure rfl
  match target with
  | .variable _ | .get .. => exact tracks_pure rfl
  | .number _ | .string _ | .bool _ | .nil | .gap | .assign .. | .unary .. | .binary ..
  | .logical .. | .group _ | .call .. | .set .. | .this _ | .super .. | .lambda .. => exact kept

end Expressions

/-! ### Statements -/

section Statements

variable {expression' : Reader Expr} {expression : Parser Expr} {statement' : Reader Stmt}
  {statement : Parser Stmt} {declaration' : Reader (Option Stmt)}
  {declaration : Parser (Option Stmt)}

/-- Up to a closing brace or the end of the text, and there is a token to come if there is more. -/
theorem tracks_closing {α : Type} {m : Reader (Option α)} {p : Parser (Option α)}
    (more : Tracks row last 1 k m p progress) :
    Tracks row last 0 k
      (do
        if ← Tape.check .rightBrace then return none
        if ← Tape.atEnd then return none
        m)
      (do
        if (← Parser.isAt .rightBrace) || (← Parser.atEnd) then return none
        else p) progress := by
  refine tracks_check fun closing => ?_
  cases closing with
  | true => exact tracks_pure rfl
  | false => exact tracks_atEnd (tracks_pure rfl) more

/-- Each declaration takes a token, so the loop over them ends. -/
theorem tracks_declarations (h : Tracks row last 1 k declaration' declaration fun _ => 1)
    (enough : k < fuel) :
    Tracks row last 0 k (Tape.declarations fuel declaration') (declarations declaration)
      fun _ => 0 :=
  Tracks.bind (n := fun _ => 0)
    (tracks_loop (fun _ => tracks_closing (h.bind fun _ _ => tracks_pure rfl)) enough [])
    fun _ _ => tracks_pure rfl

/-- A block is read on the tape as the parser reads it. -/
theorem tracks_block (h : Tracks row last 1 k declaration' declaration fun _ => 1)
    (enough : k < fuel) :
    Tracks row last 0 k (Tape.block fuel declaration') (block declaration) fun _ => 0 :=
  (tracks_declarations h enough).bind fun _ _ => tracks_expected fun _ => tracks_pure rfl

/-- An expression statement takes a token. -/
theorem tracks_expressionStatement (h : Tracks row last 0 k expression' expression fun _ => 1) :
    Tracks row last 0 k (Tape.expressionStatement expression') (expressionStatement expression)
      fun _ => 1 :=
  h.bind fun _ _ => tracks_expected fun _ => tracks_pure rfl

theorem tracks_printStatement (h : Tracks row last 0 k expression' expression fun _ => 1) :
    Tracks row last 0 k (Tape.printStatement expression') (printStatement expression)
      fun _ => 0 :=
  h.bind fun _ _ => tracks_expected fun _ => tracks_pure rfl

/-- An expression that may be left out takes no token if it is. -/
theorem tracks_optionalUnless (h : Tracks row last 0 k expression' expression fun _ => 1)
    (closing : Token.Kind) :
    Tracks row last 0 k (Tape.optionalUnless expression' closing)
      (optionalUnless closing expression) fun _ => 0 := by
  refine tracks_check fun b => ?_
  cases b with
  | true => exact tracks_pure rfl
  | false => exact h.bind fun _ _ => tracks_pure rfl

theorem tracks_returnStatement (h : Tracks row last 0 k expression' expression fun _ => 1)
    (keyword : Token) :
    Tracks row last 0 k (Tape.returnStatement expression' keyword)
      (returnStatement expression keyword) fun _ => 0 :=
  (tracks_optionalUnless h _).bind fun _ _ => tracks_expected fun _ => tracks_pure rfl

/-- A variable is declared on the tape as the parser declares it. -/
theorem tracks_varDeclaration (h : Tracks row last 0 k expression' expression fun _ => 1) :
    Tracks row last 0 k (Tape.varDeclaration expression') (varDeclaration expression)
      fun _ => 0 := by
  refine (tracks_expect _ _).bind fun name _ => tracks_take ?_ fun _ _ => ?_
  · exact tracks_expected fun _ => tracks_pure rfl
  · refine Tracks.bind (n := fun _ => 0) ((h.mono (by omega)).map fun _ => Nat.zero_le 1)
      fun _ _ => tracks_expected fun _ => tracks_pure rfl

variable (hexpr : Tracks row last 0 k expression' expression fun _ => 1)
  (hstmt : TracksBelow row last k statement' statement fun _ => 1)

include hexpr hstmt

/-- The body of a loop is nested one deeper than the loop. -/
theorem tracks_whileStatement (more : 1 ≤ k) :
    Tracks row last 0 (k - 1) (Tape.whileStatement expression' statement')
      (whileStatement expression statement) fun _ => 0 :=
  tracks_expected fun _ => (hexpr.mono (by omega)).bind fun _ _ => tracks_expected fun _ =>
    (hstmt.behind more (by omega)).bind fun _ _ => tracks_pure rfl

/-- The branches of a condition are nested one deeper than the condition. -/
theorem tracks_ifStatement (more : 1 ≤ k) :
    Tracks row last 0 (k - 1) (Tape.ifStatement expression' statement')
      (ifStatement expression statement) fun _ => 0 :=
  tracks_expected fun _ => (hexpr.mono (by omega)).bind fun _ _ => tracks_expected fun _ =>
    (hstmt.behind more (by omega)).bind fun _ _ => tracks_take (tracks_pure rfl) fun _ _ =>
      (hstmt.behind more (by omega)).bind fun _ _ => tracks_pure rfl

omit hstmt in
/-- The start of a loop may be left out. -/
theorem tracks_forInit :
    Tracks row last 0 k (Tape.forInit expression') (forInit expression) fun _ => 0 := by
  refine tracks_take ((tracks_expressionStatement hexpr).map fun _ => Nat.zero_le 1) fun t _ => ?_
  dsimp only
  split
  · exact tracks_pure rfl
  · exact (tracks_varDeclaration (hexpr.mono (by omega))).map fun _ => Nat.zero_le 0

/-- The parts of a loop are read on the tape as the parser reads them. -/
theorem tracks_forStatement (more : 1 ≤ k) :
    Tracks row last 0 (k - 1) (Tape.forStatement expression' statement')
      (forStatement expression statement) fun _ => 0 :=
  tracks_expected fun _ => (tracks_forInit (hexpr.mono (by omega))).bind fun _ _ =>
    (tracks_optionalUnless (hexpr.mono (by omega)) _).bind fun _ _ => tracks_expected fun _ =>
      (tracks_optionalUnless (hexpr.mono (by omega)) _).bind fun _ _ => tracks_expected fun _ =>
        (hstmt.behind more (by omega)).bind fun _ _ => tracks_pure rfl

variable (hdecl : ∀ l < k, Tracks row last 1 l declaration' declaration fun _ => 1)
  (enough : k < fuel)

include hdecl enough

/-- A statement takes a token, whichever it is. -/
theorem tracks_anyStatement :
    Tracks row last 0 k (Tape.anyStatement fuel expression' statement' declaration')
      (anyStatement expression statement declaration) fun _ => 1 := by
  refine tracks_take (tracks_expressionStatement hexpr) fun t more => ?_
  have nested := hexpr.mono (Nat.sub_le k 1)
  dsimp only
  generalize t.kind = kind
  cases kind with
  | forKw => exact tracks_forStatement hexpr hstmt more
  | ifKw => exact tracks_ifStatement hexpr hstmt more
  | printKw => exact tracks_printStatement nested
  | returnKw => exact tracks_returnStatement nested t
  | whileKw => exact tracks_whileStatement hexpr hstmt more
  | _ => exact (tracks_block (hdecl (k - 1) (by omega)) (by omega)).map fun _ => Nat.le_refl 0

/-! ### Declarations -/

omit hexpr hstmt

/-- A function takes a token. -/
theorem tracks_function (owner : Owner) :
    Tracks row last 0 k (Tape.function fuel declaration' owner) (function declaration owner)
      fun _ => 1 :=
  (tracks_expect _ _).bind fun _ more => tracks_expected fun _ =>
    Tracks.bind (n := fun _ => 0) (tracks_functionRest
      ((tracks_block (hdecl (k - 1) (by omega)) (by omega)).mono (by omega)) (by omega) owner)
      fun _ _ => tracks_pure rfl

omit hdecl enough in
theorem tracks_superclassClause :
    Tracks row last 0 k Tape.superclassClause superclassClause fun _ => 0 :=
  tracks_take (tracks_pure rfl) fun _ _ => (tracks_expect _ _).bind fun _ _ => tracks_pure rfl

/-- Each method takes a token, so the loop over them ends. -/
theorem tracks_methods :
    Tracks row last 0 k (Tape.methods fuel declaration') (methods declaration) fun _ => 0 := by
  refine Tracks.bind (n := fun _ => 0) (tracks_loop (fun members => tracks_closing ?_) enough [])
    fun _ _ => tracks_pure rfl
  have member : Tracks row last 1 k (Tape.function fuel declaration' .method)
      (function declaration .method) fun _ => 1 :=
    fun t c stands _ => tracks_function hdecl enough .method t c stands (Nat.zero_le _)
  exact member.bind fun _ _ => tracks_pure rfl

/-- A class is read on the tape as the parser reads it. -/
theorem tracks_classDeclaration :
    Tracks row last 0 k (Tape.classDeclaration fuel declaration') (classDeclaration declaration)
      fun _ => 0 :=
  (tracks_expect _ _).bind fun _ _ => tracks_superclassClause.bind fun _ _ =>
    tracks_expected fun _ => Tracks.bind (n := fun _ => 0)
      ((tracks_methods hdecl enough).mono (by omega)) fun _ _ =>
        tracks_expected fun _ => tracks_pure rfl

omit hdecl enough in
/-- To tell a function from an expression the tape looks at two tokens. -/
theorem looks_atFunction (c : Cursor) :
    Looks row last c Tape.atFunction
      (match c.rest with
        | t :: u :: _ => t.kind = .funKw && u.kind = .identifier
        | _ => false) := by
  obtain ⟨rest, eof, errors⟩ := c
  refine (looks_check .funKw).bind ?_
  match rest with
  | [] => exact looks_pure false
  | u :: rest =>
    show Looks _ _ _ (if decide (u.kind = .funKw) = true then _ else _) _
    -- the second token is looked at only behind the keyword
    by_cases named : u.kind = .funKw
    · rw [if_pos (decide_eq_true named)]
      have next : Looks row last ⟨u :: rest, eof, errors⟩ (Tape.checkNext .identifier)
          (rest.head?.any (·.kind = .identifier)) := looks_checkNext rfl (by decide)
      cases rest with
      | nil => exact next
      | cons v rest =>
        simp only [named, decide_true, Bool.true_and]
        exact next
    · rw [if_neg (by simpa using named)]
      cases rest with
      | nil => exact looks_pure false
      | cons v rest =>
        simp only [named, decide_false, Bool.false_and]
        exact looks_pure false

omit hdecl enough in
/-- A function with a name, past its keyword, or something else. -/
theorem tracks_atFunction {α : Type} {m m₀ : Reader α} {p p₀ : Parser α} {n : α → Nat}
    (named : 1 ≤ k → Tracks row last 0 (k - 1) m p fun a => n a - 1)
    (other : Tracks row last 0 k m₀ p₀ n) :
    Tracks row last 0 k
      (do
        if ← Tape.atFunction then
          discard Tape.advance
          m
        else m₀)
      (do
        if ← Parser.areAt .funKw .identifier then
          discard (Parser.take? [.funKw])
          p
        else p₀) n := by
  intro t c stands low high
  obtain ⟨t₁, run, stands₁, -⟩ := looks_atFunction c t stands
  rw [run_bind run]
  obtain ⟨rest, eof, errors⟩ := c
  -- two tokens are looked at: with fewer left neither reader sees a function
  match rest with
  | [] => exact other t₁ _ stands₁ low high
  | [u] => exact other t₁ _ stands₁ low high
  | u :: v :: rest =>
    show Agrees _ _ _ _
      ((if (u.kind = .funKw && v.kind = .identifier : Bool) = true then _ else p₀) _)
      ((if (u.kind = .funKw && v.kind = .identifier : Bool) = true then _ else m₀) t₁)
    split
    · next both =>
      have keyword : u.kind = .funKw := of_decide_eq_true (Bool.and_eq_true_iff.mp both).1
      obtain ⟨t₂, advanced, stands₂, -⟩ := stands₁.advance rfl
      have taken : Parser.take? [.funKw] ⟨u :: v :: rest, eof, errors⟩ =
          .ok (some u) ⟨v :: rest, eof, errors⟩ :=
        take?_ok.mpr (.inl ⟨u, List.mem_singleton.mpr keyword, rfl, rfl⟩)
      have high : rest.length + 2 ≤ k := high
      have fewer : (v :: rest).length ≤ k - 1 := by
        rw [List.length_cons]
        omega
      rw [run_discard advanced, run_discard taken]
      exact (named (by omega) t₂ ⟨v :: rest, eof, errors⟩ stands₂ (Nat.zero_le _) fewer).behind
    · exact other t₁ _ stands₁ low high

omit hdecl enough in
/-- The keyword of a class may be looked for first. -/
theorem anyDeclaration_eq :
    anyDeclaration expression statement declaration = (do
      match ← Parser.take? [.classKw] with
      | some _ => classDeclaration declaration
      | none =>
        if ← Parser.areAt .funKw .identifier then
          discard (Parser.take? [.funKw])
          .function <$> function declaration .function
        else match ← Parser.take? [.varKw] with
          | some _ => varDeclaration expression
          | none => statement) := by
  funext ⟨rest, eof, errors⟩
  match rest with
  | [] => rfl
  | [⟨kind, lexeme, literal, line⟩] => cases kind <;> rfl
  | ⟨kind, lexeme, literal, line⟩ :: ⟨kind', lexeme', literal', line'⟩ :: rest =>
    cases kind with
    | funKw => cases kind' <;> rfl
    | _ => rfl

/-- A declaration is read on the tape as the parser reads it. -/
theorem tracks_anyDeclaration (hexpr : TracksBelow row last k expression' expression fun _ => 1)
    (hstmt : Tracks row last 0 k statement' statement fun _ => 1) :
    Tracks row last 0 k (Tape.anyDeclaration fuel expression' statement' declaration')
      (anyDeclaration expression statement declaration) fun _ => 1 := by
  have nested {l : Nat} (lt : l < k) : ∀ l' < l,
      Tracks row last 1 l' declaration' declaration fun _ => 1 := fun l' lt' => hdecl l' (by omega)
  rw [anyDeclaration_eq]
  refine tracks_take (tracks_atFunction (fun more => ?_) ?_) fun _ more => ?_
  · exact (tracks_function (nested (by omega)) (by omega) .function).map fun _ => Nat.zero_le 1
  · exact tracks_take hstmt fun _ more => tracks_varDeclaration (hexpr _ (by omega))
  · exact tracks_classDeclaration (nested (by omega)) (by omega)

end Statements

/-! ### Programs -/

/-- Every level of nesting takes a token, or goes from a declaration to a statement to an
expression. -/
theorem tracks_at (d d' : Nat) :
    (∀ k, 3 * k + 1 ≤ d → 3 * k + 1 ≤ d' →
      Tracks row last 0 k (Tape.expressionAt d') (expressionAt d) fun _ => 1) ∧
    (∀ k, 3 * k + 2 ≤ d → 3 * k + 2 ≤ d' →
      Tracks row last 0 k (Tape.statementAt d') (statementAt d) fun _ => 1) ∧
    ∀ k, 3 * k + 3 ≤ d → 3 * k + 3 ≤ d' →
      Tracks row last 1 k (Tape.declarationAt d') (declarationAt d) fun _ => 1 := by
  -- on the depth: a nested reader has fewer tokens, and three levels are spent on each of them
  induction d generalizing d' with
  | zero => exact ⟨fun k h => by omega, fun k h => by omega, fun k h => by omega⟩
  | succ d ih =>
    cases d' with
    | zero => exact ⟨fun k _ h => by omega, fun k _ h => by omega, fun k _ h => by omega⟩
    | succ d' =>
      obtain ⟨hexpr, hstmt, hdecl⟩ := ih d'
      refine ⟨fun k h h' => ?_, fun k h h' => ?_, fun k h h' => ?_⟩
      · exact tracks_assignment (fun l lt => hexpr l (by omega) (by omega))
          (fun l lt => tracks_block (hdecl l (by omega) (by omega)) (by omega)) (by omega)
      · exact tracks_anyStatement (hexpr k (by omega) (by omega))
          (fun l lt => hstmt l (by omega) (by omega)) (fun l lt => hdecl l (by omega) (by omega))
          (by omega)
      · exact tracks_recover (tracks_anyDeclaration (fun l lt => hdecl l (by omega) (by omega))
          (by omega) (fun l lt => hexpr l (by omega) (by omega)) (hstmt k (by omega) (by omega)))
          (by omega)

/-- Where there is a token to come, a declaration goes on, with a result or past a failure. -/
theorem declaration_goes_on {d d' : Nat} (h : 3 * k + 3 ≤ d) (h' : 3 * k + 3 ≤ d') {t : Tape}
    {c : Cursor} (stands : Stands row last t c) (more : 1 ≤ c.rest.length)
    (le : c.rest.length ≤ k) :
    ∃ o t' c', Tape.declarationAt d' t = .ok o t' ∧ declarationAt d c = .ok o c' ∧
      Stands row last t' c' ∧ c'.rest.length < c.rest.length := by
  have agrees := (tracks_at d d').2.2 k h h' t c stands more le
  -- with depth to spare a declaration fails only inside the recovery
  have recovers : ∃ o c', declarationAt d c = .ok o c' := by
    cases d with
    | zero => omega
    | succ d =>
      unfold declarationAt Parser.recover
      cases anyDeclaration (expressionAt d) (statementAt d) (declarationAt d) c with
      | ok o c' => exact ⟨some o, c', rfl⟩
      | error e c' => exact ⟨none, _, rfl⟩
  obtain ⟨o, c', run⟩ := recovers
  rw [run] at agrees
  cases run' : Tape.declarationAt d' t with
  | error h t' =>
    rw [run'] at agrees
    exact agrees.elim
  | ok o' t' =>
    rw [run'] at agrees
    obtain ⟨rfl, stands', fewer⟩ := agrees
    exact ⟨o', t', c', rfl, run, stands', fewer⟩

/-- The declarations of a text go on to its end. -/
theorem topLevel_ends {d d' : Nat} (h : 3 * k + 3 ≤ d) (h' : 3 * k + 3 ≤ d') {t : Tape}
    {c : Cursor} (stands : Stands row last t c) (le : c.rest.length ≤ k) :
    ∃ body t' c', Tape.topLevel d' t = .ok body t' ∧ topLevel d c = .ok body c' ∧
      Stands row last t' c' ∧ c'.rest = [] := by
  -- each round takes a token at least, so neither bound is reached
  have rounds : ∀ fuel (rounds : List Token) body t c, Stands row last t c → c.rest.length ≤ k →
      c.rest.length < fuel → c.rest.length < rounds.length → ∃ body' t' c',
        Tape.loop (fun body => do
          if ← Tape.atEnd then return none
          return some ((← Tape.declarationAt d').toList ++ body)) fuel body t = .ok body' t' ∧
        Parser.iterate (fun body => do
          if ← Parser.atEnd then return none
          else return some ((← declarationAt d).toList ++ body)) rounds body c = .ok body' c' ∧
        Stands row last t' c' ∧ c'.rest = [] := by
    intro fuel
    induction fuel with
    | zero => exact fun _ _ _ _ _ _ none => absurd none (Nat.not_lt_zero _)
    | succ fuel ih =>
      intro rounds body t c stands le within more
      cases rounds with
      | nil => exact absurd more (Nat.not_lt_zero _)
      | cons round rounds =>
        obtain ⟨t₁, ended, stands₁, -⟩ := looks_atEnd t stands
        unfold Tape.loop Parser.iterate
        have looked : Parser.atEnd c = .ok c.rest.isEmpty c := rfl
        cases done : c.rest.isEmpty with
        | true =>
          rw [done] at ended looked
          exact ⟨body, t₁, c, run_bind (a := none) (run_bind ended),
            run_bind (a := none) (run_bind looked), stands₁, List.isEmpty_iff.mp done⟩
        | false =>
          rw [done] at ended looked
          have more' : 1 ≤ c.rest.length := List.length_pos_iff.mpr fun none => by
            rw [none] at done
            cases done
          obtain ⟨o, t₂, c₂, run', run, stands₂, fewer⟩ := declaration_goes_on h h' stands₁ more' le
          rw [List.length_cons] at more
          obtain ⟨body', t₃, c₃, later', later, stands₃, spent⟩ := ih rounds (o.toList ++ body) t₂ c₂
            stands₂ (by omega) (by omega) (by omega)
          refine ⟨body', t₃, c₃, ?_, ?_, stands₃, spent⟩
          · exact (run_bind (a := some (o.toList ++ body))
              ((run_bind ended).trans (run_bind run'))).trans later'
          · exact (run_bind (a := some (o.toList ++ body))
              ((run_bind looked).trans (run_bind run))).trans later
  obtain ⟨body, t', c', run', run, stands', done⟩ := rounds d' (c.eof :: c.rest) [] t c stands le
    (by omega) (Nat.lt_succ_self _)
  have whole : topLevel d c = .ok body.reverse c' := run_bind run
  exact ⟨body.reverse, t', c', run_bind run', whole, stands', done⟩

end Lox.Grammar
