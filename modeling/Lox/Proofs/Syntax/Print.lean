import Lox.Proofs.Grammar.Derivation
import Lox.Proofs.Source.Spelling

/-!
The text of a parsed tree scans to tokens that derive the same tree again. Nothing is said about
parentheses anywhere: a tree that has a derivation has its operands at their levels already, and an
`else` in its text goes to the `if` that it came from.
-/

namespace Lox.Grammar

open Lox.Source

/-! ### Lists -/

section Lists

variable {α : Type}

/-- The items in order. -/
def Each (item : α → List Token → Prop) : List α → List Token → Prop
  | [] => (· = [])
  | a :: rest => Then (item a) (Each item rest)

/-- The items in order, with commas between them. -/
def Commas (item : α → List Token → Prop) : List α → List Token → Prop
  | [] => (· = [])
  | [a] => item a
  | a :: b :: rest => Then (Then (item a) (Spelled (fixedToken .comma))) (Commas item (b :: rest))

variable {items : List α} {item : α → List Token → Prop} (text : α → String)

/-- Items that scan one after another scan in a row. -/
theorem scans_each (h : ∀ a ∈ items, Scans (text a) Anything (item a)) :
    Scans (String.join (items.map text)) Anything (Each item items) := by
  induction items with
  | nil => exact scans_empty
  | cons a rest ih =>
    rw [List.map_cons, String.join_cons]
    exact (h a List.mem_cons_self).then (ih fun b hb => h b (List.mem_cons_of_mem _ hb)) trivial

theorem scans_comma : Scans ", " Anything (Spelled (fixedToken .comma)) :=
  scans_symbol_space (k := .comma) (by decide)

/-- Items with commas between them scan to a list with commas: each item ends before the comma. -/
theorem scans_commas (h : ∀ a ∈ items, Scans (text a) Stops (item a)) :
    Scans (String.intercalate ", " (items.map text)) Stops (Commas item items) := by
  induction items with
  | nil => exact scans_empty
  | cons a rest ih =>
    have first := h a List.mem_cons_self
    have more := ih fun b hb => h b (List.mem_cons_of_mem _ hb)
    cases rest with
    | nil =>
      rw [List.map_singleton, String.intercalate_singleton]
      exact first
    | cons b rest =>
      rw [List.map_cons, List.map_cons, String.intercalate_cons_cons, ← List.map_cons]
      exact (first.thenAny scans_comma fun _ => stops_append (by decide)).then more trivial

end Lists

theorem Expr.formats_eq_map (depth : Nat) (es : List Expr) :
    Expr.formats depth es = es.map (·.format depth) := by
  induction es with
  | nil => rfl
  | cons e rest ih => rw [Expr.formats, ih, List.map_cons]

theorem Stmt.formats_eq_map (depth : Nat) (body : List Stmt) :
    Stmt.formats depth body = body.map (·.format depth) := by
  induction body with
  | nil => rfl
  | cons s rest ih => rw [Stmt.formats, ih, List.map_cons]

theorem Function.formats_eq_map (depth : Nat) (fs : List Function) :
    Function.formats depth fs = fs.map (·.format depth) := by
  induction fs with
  | nil => rfl
  | cons f rest ih => rw [Function.formats, ih, List.map_cons]

/-! ### What it is to be printed -/

/-- The text starts with nothing that makes a symbol before it longer. -/
def Opens (s : String) : Prop :=
  ∀ rest : List Char, (s.toList ++ rest).head? ≠ some '=' ∧ (s.toList ++ rest).head? ≠ some '/'

/-- The text of the expression scans to what is read as the expression. -/
def ExprPrints (read : List Token → Expr → Prop) (e : Expr) : Prop :=
  ∀ depth, Opens (e.format depth) ∧
    Scans (e.format depth) Stops fun u => ∃ e', e'.bare = e.bare ∧ read u e'

/-- The text that `e` has after that of `a` scans to what makes `e` of `a`. -/
def SuffixPrints (read : List Token → Expr → Expr → Prop) (a e : Expr) : Prop :=
  ∀ depth, ∃ s, e.format depth = a.format depth ++ s ∧ StopsBefore s ∧
    Scans s Stops fun u => ∀ a', a'.bare = a.bare → ∃ e', e'.bare = e.bare ∧ read u a' e'

/-- The text of the statement scans to what is read as the statement. -/
def StmtPrints (read : List Token → Stmt → Prop) (s : Stmt) : Prop :=
  ∀ depth, Scans (s.format depth) Anything fun u => ∃ s', s'.bare = s.bare ∧ read u s'

/-- The text of the function scans to what is read as the function. -/
def FunctionPrints (f : Function) : Prop :=
  ∀ depth, Scans (f.format depth) Anything fun u => ∃ f', f'.bare = f.bare ∧ Derivation .function u f'

/-- A statement that is open only if it is allowed to be. -/
def ReadsStatement (isOpen : Bool) (u : List Token) (s : Stmt) : Prop :=
  ∃ o, Derivation (.statement o) u s ∧ (o = true → isOpen = true)

/-- A declaration is printed as such. -/
abbrev DeclarationPrints (s : Stmt) : Prop := StmtPrints (Derivation .declaration) s

/-- A token that is a name. -/
def NameToken (t : Token) : Prop := t.kind = .identifier ∧ Genuine t

/-- What it is for the tree of each category to be printed. -/
def Printed : (c : Category) → c.Tree → Prop
  | .expression => ExprPrints (Derivation .expression)
  | .level l => ExprPrints (Derivation (.level l))
  | .chain l => fun pair =>
    SuffixPrints (fun u a e => Derivation (.chain l) u (a, e)) pair.1 pair.2
  | .suffixes => fun pair =>
    SuffixPrints (fun u a e => Derivation .suffixes u (a, e)) pair.1 pair.2
  | .arguments | .moreArguments => fun args : List Expr =>
    ∀ e ∈ args, ExprPrints (Derivation .expression) e
  | .params | .moreParams => fun params : List Token => ∀ t ∈ params, NameToken t
  | .optional => fun o : Option Expr => ∀ e ∈ o, ExprPrints (Derivation .expression) e
  | .varRest | .declaration => DeclarationPrints
  | .forInit => fun o : Option Stmt => ∀ s ∈ o, DeclarationPrints s
  | .statement isOpen => StmtPrints (ReadsStatement isOpen)
  | .declarations => fun body : List Stmt => ∀ s ∈ body, DeclarationPrints s
  | .function => FunctionPrints
  | .methods => fun fs : List Function => ∀ f ∈ fs, FunctionPrints f
  | .superclass => fun o : Option Reference => ∀ ref ∈ o, NameToken ref.name ∧ ref.hops = none

/-! ### Tokens in place -/

theorem kind_eq_of_bare_eq {t t' : Token} (h : t'.bare = t.bare) : t'.kind = t.kind := by
  simpa using congrArg Token.kind h

/-- A fixed token is of its kind, and the same but for its line as any other that was scanned. -/
theorem fixed_kind {t : Token} {k : Token.Kind} (h : t.bare = (fixedToken k).bare) : t.kind = k :=
  congrArg Token.kind h

/-- A genuine token of a kind with one spelling is that kind's token, but for its line. -/
theorem fixed_bare {t g : Token} {k : Token.Kind} (h : t.bare = (fixedToken k).bare)
    (genuine : Genuine g) (hk : g.kind = k)
    (hmem : k ∈ closedSymbols ++ openSymbols ++ Token.Kind.keywords) : t.bare = g.bare := by
  rw [h, genuine.bare_eq hk hmem]
  rfl

theorem Opens.append {s : String} (h : Opens s) (t : String) : Opens (s ++ t) := by
  intro rest
  rw [String.toList_append, List.append_assoc]
  exact h _

/-- The first character decides what makes a symbol longer. -/
theorem opens_of_head {s : String}
    (h : s.toList.head?.any (fun c => c ≠ '=' && c ≠ '/') = true) : Opens s := by
  intro rest
  cases hs : s.toList with
  | nil => simp [hs] at h
  | cons c tail => simpa [hs] using h

/-- A word makes no symbol before it longer. -/
theorem opens_of_isWord {s : String} (h : IsWord s.toList) : Opens s := by
  intro rest
  cases hs : s.toList with
  | nil =>
    rw [hs] at h
    cases h
  | cons c tail =>
    rw [hs] at h
    have marker := isMarker_of_isWordPart (isWordPart_of_isWordStart h.1)
    constructor
    · rintro ⟨⟩
      revert marker
      decide
    · rintro ⟨⟩
      revert marker
      decide

/-- A token with one spelling, and a blank. -/
theorem scans_fixed_space {t : Token} {k : Token.Kind} (genuine : Genuine t) (hk : t.kind = k)
    (hmem : k ∈ closedSymbols ++ openSymbols ++ Token.Kind.keywords) :
    Scans (t.lexeme ++ " ") Anything (Spelled t) := by
  have lexeme : t.lexeme = k.name := hk ▸ (genuine.fixed (hk ▸ hmem)).1
  have scans : Scans (k.name ++ " ") Anything (Spelled (fixedToken k)) := by
    rcases List.mem_append.mp hmem with h | h
    · exact scans_symbol_space h
    · exact scans_keyword_space h
  rw [lexeme]
  refine scans.mono ?_
  rintro _ ⟨t', rfl, ht'⟩
  exact ⟨t', rfl, fixed_bare ht' genuine hk hmem⟩

/-- A point and a name. The point ends a number, since no digit starts a name. -/
theorem scans_dot_name {t : Token} (genuine : Genuine t) (ht : t.kind = .identifier) :
    Scans ("." ++ t.lexeme) Stops (Then (Spelled (fixedToken .dot)) (Spelled t)) ∧
      ∀ rest, Stops (("." ++ t.lexeme).toList ++ rest) := by
  have dot : Scans "." Anything (Spelled (fixedToken .dot)) :=
    scans_closedSymbol (k := .dot) (by decide)
  refine ⟨dot.then (genuine.scans_name ht) trivial, fun rest => ?_⟩
  rw [String.toList_append, List.append_assoc]
  refine ⟨by decide, fun _ d hd => ?_⟩
  have word := (genuine.name ht).1.word
  cases hs : t.lexeme.toList with
  | nil =>
    rw [hs] at word
    cases word
  | cons c tail =>
    rw [hs] at word hd
    cases hd
    exact isDigit_of_isWordStart word.1

theorem scans_equal : Scans " = " Anything (Spelled (fixedToken .equal)) :=
  scans_space.blankBefore (scans_symbol_space (k := .equal) (by decide)) trivial

theorem scans_leftParen : Scans "(" Anything (Spelled (fixedToken .leftParen)) :=
  scans_closedSymbol (k := .leftParen) (by decide)

theorem scans_rightParen : Scans ")" Anything (Spelled (fixedToken .rightParen)) :=
  scans_closedSymbol (k := .rightParen) (by decide)

theorem scans_semicolon : Scans ";" Anything (Spelled (fixedToken .semicolon)) :=
  scans_closedSymbol (k := .semicolon) (by decide)

/-! ### Expressions -/

section Expressions

variable {l : Level} {t op q : Token} {a b e value object : Expr}

/-- An operator is printed between its operands, with a blank on both sides. -/
theorem format_join (depth : Nat) :
    (l.join op a b).format depth =
      a.format depth ++ (" " ++ (op.lexeme ++ " ") ++ b.format depth) := by
  cases l <;> simp [Level.join, Expr.format, String.append_assoc]

theorem bare_join : (l.join op a b).bare = l.join op.bare a.bare b.bare := by
  cases l <;> rfl

/-- Every operator has one spelling. -/
theorem operators_fixed {k : Token.Kind} (h : k ∈ l.operators) :
    k ∈ closedSymbols ++ openSymbols ++ Token.Kind.keywords := by
  revert k
  cases l <;> decide

/-- Without an assignment, an expression is a disjunction. -/
theorem printed_value (h : Printed (.level .disjunction) e) : Printed .expression e := by
  intro depth
  obtain ⟨opens, scans⟩ := h depth
  refine ⟨opens, scans.mono ?_⟩
  rintro u ⟨e', he', hu⟩
  exact ⟨e', he', .value hu⟩

/-- The name, an equals sign and the value scan to an assignment. -/
theorem printed_assign (ht : t.kind = .identifier) (genuine : Genuine t)
    (h : Printed .expression value) : Printed .expression (.assign { name := t } value) := by
  intro depth
  obtain ⟨-, scans⟩ := h depth
  have name := genuine.scans_name ht
  have whole := (name.thenAny scans_equal fun _ => stops_append (by decide)).then scans trivial
  refine ⟨((opens_of_isWord (genuine.name ht).1.word).append _).append _, ?_⟩
  refine Scans.mono (by simpa only [Expr.format] using whole) ?_
  rintro _ ⟨_, u, rfl, ⟨_, _, rfl, ⟨t', rfl, ht'⟩, ⟨q', rfl, hq'⟩⟩, value', hvalue', hu⟩
  refine ⟨.assign { name := t' } value', ?_, ?_⟩
  · simp [Expr.bare, Reference.bare, ht', hvalue']
  · exact .assign ((kind_eq_of_bare_eq ht').trans ht) (fixed_kind hq') hu

/-- The object is printed as a call is, and the dot and the name stand behind it. -/
theorem printed_set (hobject : Printed (.level .call) object) (ht : t.kind = .identifier)
    (genuine : Genuine t) (h : Printed .expression value) :
    Printed .expression (.set object t value) := by
  intro depth
  obtain ⟨opens, scans⟩ := hobject depth
  obtain ⟨name, stops⟩ := scans_dot_name genuine ht
  have text : (Expr.set object t value).format depth =
      object.format depth ++ ("." ++ t.lexeme) ++ " = " ++ value.format depth := by
    simp only [Expr.format, String.append_assoc]
  have target := scans.append name (fun rest _ => stops rest) trivial
  have whole := (target.thenAny scans_equal fun _ => stops_append (by decide)).then (h depth).2
    trivial
  rw [text]
  refine ⟨((opens.append _).append _).append _, whole.mono ?_⟩
  rintro _ ⟨_, v, rfl, ⟨_, _, rfl, ⟨u, _, rfl, ⟨object', hobject', hu⟩, _, _, rfl, ⟨d', rfl, hd'⟩,
    ⟨t', rfl, ht'⟩⟩, ⟨q', rfl, hq'⟩⟩, value', hvalue', hv⟩
  refine ⟨.set object' t' value', ?_, ?_⟩
  · simp [Expr.bare, hobject', ht', hvalue']
  · have kind := (kind_eq_of_bare_eq ht').trans ht
    simpa using Derivation.set hu (fixed_kind hd') kind (fixed_kind hq') hv

/-- The operand of an operator is printed as what binds tighter, and the chain goes on behind it. -/
theorem printed_operand (nonempty : l.operators ≠ []) (first : Printed (.level l.inner) a)
    (next : Printed (.chain l) (a, e)) : Printed (.level l) e := by
  intro depth
  obtain ⟨opens, scans⟩ := first depth
  obtain ⟨s, text, stops, more⟩ := next depth
  dsimp only at text more
  rw [text]
  refine ⟨opens.append s, (scans.append more stops trivial).mono ?_⟩
  rintro _ ⟨u, w, rfl, ⟨a', ha', hu⟩, hw⟩
  obtain ⟨e', he', hw⟩ := hw a' ha'
  exact ⟨e', he', .operand nonempty hu hw⟩

/-- A chain may end anywhere: no text stands behind it. -/
theorem printed_end {read : List Token → Expr → Expr → Prop} (h : ∀ a, read [] a a) :
    SuffixPrints read a a := by
  intro depth
  refine ⟨"", by simp, fun rest hrest => by simpa using hrest, scans_empty.mono ?_⟩
  rintro _ rfl a' ha'
  exact ⟨a', ha', h a'⟩

/-- An operator and one more operand make the chain longer, and the chain goes on behind them. -/
theorem printed_chainStep (hop : op.kind ∈ l.operators) (genuine : Genuine op)
    (operand : Printed (.level l.inner) b) (next : Printed (.chain l) (l.join op a b, e)) :
    Printed (.chain l) (a, e) := by
  intro depth
  obtain ⟨-, scans⟩ := operand depth
  obtain ⟨s, text, stops, more⟩ := next depth
  dsimp only at text more
  have operator := scans_space.blankBefore
    (scans_fixed_space genuine rfl (operators_fixed hop)) trivial
  refine ⟨" " ++ (op.lexeme ++ " ") ++ b.format depth ++ s, ?_, ?_, ?_⟩
  · show e.format depth = _
    rw [text, format_join, String.append_assoc]
  · intro rest _
    simp only [String.toList_append, List.append_assoc]
    exact stops_append (s := " ") (by decide)
  · refine ((operator.then scans trivial).append more stops trivial).mono ?_
    rintro _ ⟨_, w, rfl, ⟨_, v, rfl, ⟨op', rfl, hop'⟩, b', hb', hv⟩, hw⟩ a' ha'
    -- what is read need only be the same but for lines
    have join : (l.join op' a' b').bare = (l.join op a b).bare := by
      rw [bare_join, bare_join, hop', ha', hb']
    obtain ⟨e', he', hw⟩ := hw _ join
    have kind : op'.kind ∈ l.operators := by rwa [kind_eq_of_bare_eq hop']
    exact ⟨e', he', .chainStep kind hv hw⟩

/-- An operator in front is printed without a blank: its operand makes no longer symbol of it. -/
theorem printed_unary (hop : op.kind ∈ [Token.Kind.bang, .minus]) (genuine : Genuine op)
    (h : Printed (.level .unary) e) : Printed (.level .unary) (.unary op e) := by
  intro depth
  obtain ⟨opens, scans⟩ := h depth
  have mem : op.kind ∈ closedSymbols ++ openSymbols ++ Token.Kind.keywords := by
    revert hop
    generalize op.kind = k
    revert k
    decide
  have lexeme := (genuine.fixed mem).1
  -- a minus stands alone before anything, a bang before what is no equals sign
  have operator : Scans op.lexeme
      (fun rest => rest.head? ≠ some '=' ∧ rest.head? ≠ some '/') (Spelled op) := by
    have scans : Scans op.kind.name (fun rest => rest.head? ≠ some '=' ∧ rest.head? ≠ some '/')
        (Spelled (fixedToken op.kind)) := by
      simp only [List.mem_cons, List.not_mem_nil, or_false] at hop
      rcases hop with hop | hop
      · exact scans_openSymbol (by simp [hop, openSymbols])
      · exact (scans_closedSymbol (by simp [hop, closedSymbols])).any
    rw [lexeme]
    refine scans.mono ?_
    rintro _ ⟨t', rfl, ht'⟩
    exact ⟨t', rfl, fixed_bare ht' genuine rfl mem⟩
  have starts : Opens op.lexeme := by
    rw [lexeme]
    simp only [List.mem_cons, List.not_mem_nil, or_false] at hop
    rcases hop with hop | hop
    · exact hop ▸ opens_of_head (by decide)
    · exact hop ▸ opens_of_head (by decide)
  refine ⟨starts.append _, (operator.append scans (fun rest _ => opens rest) trivial).mono ?_⟩
  rintro _ ⟨_, u, rfl, ⟨op', rfl, hop'⟩, e', he', hu⟩
  refine ⟨.unary op' e', by simp [Expr.bare, hop', he'], .unary ?_ hu⟩
  rwa [kind_eq_of_bare_eq hop']

theorem printed_plain (h : Printed (.level .call) e) : Printed (.level .unary) e := by
  intro depth
  obtain ⟨opens, scans⟩ := h depth
  refine ⟨opens, scans.mono ?_⟩
  rintro u ⟨e', he', hu⟩
  exact ⟨e', he', .plain hu⟩

/-- What is called is printed first, with its calls and properties behind it. -/
theorem printed_callee (first : Printed (.level .primary) a) (next : Printed .suffixes (a, e)) :
    Printed (.level .call) e := by
  intro depth
  obtain ⟨opens, scans⟩ := first depth
  obtain ⟨s, text, stops, more⟩ := next depth
  dsimp only at text more
  rw [text]
  refine ⟨opens.append s, (scans.append more stops trivial).mono ?_⟩
  rintro _ ⟨u, w, rfl, ⟨a', ha', hu⟩, hw⟩
  obtain ⟨e', he', hw⟩ := hw a' ha'
  exact ⟨e', he', .callee hu hw⟩

/-- Expressions with commas between them are read as arguments. -/
theorem derivation_arguments {args : List Expr} {u : List Token}
    (h : Commas (fun e u => ∃ e', e'.bare = e.bare ∧ Derivation .expression u e') args u) :
    ∃ args', Expr.bares args' = Expr.bares args ∧ Derivation .arguments u args' := by
  -- What follows the first argument, by induction on the list.
  suffices more : ∀ (rest : List Expr) (e : Expr) (u : List Token),
      Commas (fun e u => ∃ e', e'.bare = e.bare ∧ Derivation .expression u e') (e :: rest) u →
      ∃ v w e' rest', u = v ++ w ∧ e'.bare = e.bare ∧ Expr.bares rest' = Expr.bares rest ∧
        Derivation .expression v e' ∧ Derivation .moreArguments w rest' by
    cases args with
    | nil =>
      cases h
      exact ⟨[], rfl, .noArguments⟩
    | cons e rest =>
      obtain ⟨v, w, e', rest', rfl, he', hrest', hv, hw⟩ := more rest e u h
      exact ⟨e' :: rest', by simp [Expr.bares, he', hrest'], .arguments hv hw⟩
  intro rest
  induction rest with
  | nil =>
    rintro e u ⟨e', he', hu⟩
    exact ⟨u, [], e', [], by simp, he', rfl, hu, .argumentsEnd⟩
  | cons e₁ rest ih =>
    rintro e _ ⟨_, x, rfl, ⟨v, _, rfl, ⟨e', he', hv⟩, ⟨k, rfl, hk⟩⟩, hx⟩
    obtain ⟨v₁, w₁, e₁', rest', rfl, he₁', hrest', hv₁, hw₁⟩ := ih e₁ x hx
    refine ⟨v, k :: (v₁ ++ w₁), e', e₁' :: rest', by simp, he', ?_, hv, ?_⟩
    · simp [Expr.bares, he₁', hrest']
    · exact .argument (fixed_kind hk) hv₁ hw₁

/-- Names with commas between them are read as parameters. -/
theorem derivation_params {params : List Token} {u : List Token}
    (names : ∀ t ∈ params, NameToken t) (h : Commas Spelled params u) :
    ∃ params' : List Token, params'.map Token.bare = params.map Token.bare ∧
      Derivation .params u params' := by
  -- with the first name apart, since the commas stand between
  suffices more : ∀ (rest : List Token) (t : Token) (u : List Token),
      (∀ n ∈ t :: rest, NameToken n) → Commas Spelled (t :: rest) u →
      ∃ (t' : Token) (w rest' : List Token), u = t' :: w ∧ t'.bare = t.bare ∧ t'.kind = .identifier ∧
        rest'.map Token.bare = rest.map Token.bare ∧ Derivation .moreParams w rest' by
    cases params with
    | nil =>
      cases h
      exact ⟨[], rfl, .noParams⟩
    | cons t rest =>
      obtain ⟨t', w, rest', rfl, ht', kind, hrest', hw⟩ := more rest t u names h
      exact ⟨t' :: rest', by simp [ht', hrest'], .params kind hw⟩
  intro rest
  induction rest with
  | nil =>
    rintro t _ names ⟨t', rfl, ht'⟩
    have kind := (kind_eq_of_bare_eq ht').trans (names t List.mem_cons_self).1
    exact ⟨t', [], [], rfl, ht', kind, rfl, .paramsEnd⟩
  | cons t₁ rest ih =>
    rintro t _ names ⟨_, x, rfl, ⟨_, _, rfl, ⟨t', rfl, ht'⟩, ⟨k, rfl, hk⟩⟩, hx⟩
    have kind := (kind_eq_of_bare_eq ht').trans (names t List.mem_cons_self).1
    obtain ⟨t₁', w₁, rest', rfl, ht₁', kind₁, hrest', hw₁⟩ :=
      ih t₁ x (fun n hn => names n (List.mem_cons_of_mem _ hn)) hx
    refine ⟨t', k :: t₁' :: w₁, t₁' :: rest', by simp, ht', kind, ?_, ?_⟩
    · simp [ht₁', hrest']
    · exact .param (fixed_kind hk) kind₁ hw₁

/-- Arguments in brackets call what stands before them. -/
theorem printed_call {args : List Expr} (hargs : Printed .arguments args)
    (hq : q.kind = .rightParen) (genuine : Genuine q)
    (next : Printed .suffixes (.call a q args, e)) : Printed .suffixes (a, e) := by
  intro depth
  obtain ⟨s, text, stops, more⟩ := next depth
  dsimp only at text more
  have arguments := scans_commas (fun e => e.format depth) fun e he => (hargs e he depth).2
  rw [← Expr.formats_eq_map] at arguments
  -- the arguments end before the bracket
  have parens := (scans_leftParen.then arguments trivial).thenAny scans_rightParen
    fun _ => stops_append (by decide)
  refine ⟨"(" ++ String.intercalate ", " (Expr.formats depth args) ++ ")" ++ s, ?_, ?_, ?_⟩
  · show e.format depth = _
    simp only [text, Expr.format, String.append_assoc]
  · intro rest _
    simp only [String.toList_append, List.append_assoc]
    exact stops_append (s := "(") (by decide)
  · refine (parens.then more trivial).mono ?_
    rintro _ ⟨_, w, rfl, ⟨_, _, rfl, ⟨_, v, rfl, ⟨p', rfl, hp'⟩, hv⟩, ⟨q', rfl, hq'⟩⟩, hw⟩ a' ha'
    obtain ⟨args', hargs', hv⟩ := derivation_arguments hv
    have call : (Expr.call a' q' args').bare = (Expr.call a q args).bare := by
      simp [Expr.bare, ha', hargs', fixed_bare hq' genuine hq (by decide)]
    obtain ⟨e', he', hw⟩ := hw _ call
    exact ⟨e', he', by simpa using Derivation.call (fixed_kind hp') hv (fixed_kind hq') hw⟩

/-- A dot and a name take a property of what stands before them. -/
theorem printed_get (ht : t.kind = .identifier) (genuine : Genuine t)
    (next : Printed .suffixes (.get a t, e)) : Printed .suffixes (a, e) := by
  intro depth
  obtain ⟨s, text, stops, more⟩ := next depth
  dsimp only at text more
  obtain ⟨name, hstops⟩ := scans_dot_name genuine ht
  refine ⟨"." ++ t.lexeme ++ s, ?_, ?_, ?_⟩
  · show e.format depth = _
    simp only [text, Expr.format, String.append_assoc]
  · intro rest _
    rw [String.toList_append, List.append_assoc]
    exact hstops _
  · refine (name.append more stops trivial).mono ?_
    rintro _ ⟨_, w, rfl, ⟨_, _, rfl, ⟨d', rfl, hd'⟩, ⟨t', rfl, ht'⟩⟩, hw⟩ a' ha'
    have get : (Expr.get a' t').bare = (Expr.get a t).bare := by
      simp [Expr.bare, ha', ht']
    obtain ⟨e', he', hw⟩ := hw _ get
    exact ⟨e', he', .get (fixed_kind hd') ((kind_eq_of_bare_eq ht').trans ht) hw⟩

/-- The parameters are printed in brackets, with commas between them. -/
theorem scans_params {params : List Token} (names : ∀ t ∈ params, NameToken t) :
    Scans (paramText params) Anything fun u => ∃ p v q params', u = p :: (v ++ [q]) ∧
      p.kind = .leftParen ∧ q.kind = .rightParen ∧
      params'.map Token.bare = params.map Token.bare ∧ Derivation .params v params' := by
  have inner := scans_commas Token.lexeme fun t ht =>
    (names t ht).2.scans_name (names t ht).1
  have parens := (scans_leftParen.then inner trivial).thenAny scans_rightParen
    fun _ => stops_append (by decide)
  refine parens.mono ?_
  rintro _ ⟨_, _, rfl, ⟨_, v, rfl, ⟨p, rfl, hp⟩, hv⟩, ⟨q, rfl, hq⟩⟩
  obtain ⟨params', hparams', hv⟩ := derivation_params names hv
  exact ⟨p, v, q, params', rfl, fixed_kind hp, fixed_kind hq, hparams', hv⟩

end Expressions

/-! ### Bodies -/

/-- Starting a line makes no token. -/
theorem scans_newLine (depth : Nat) : Scans (newLine depth) Anything (· = []) := by
  have line : Scans "\n" Anything (· = []) := scans_blank (c := '\n') rfl
  have indent : Scans "  " Anything (· = []) := scans_space.blankBefore scans_space trivial
  have indents : Scans (String.join (List.replicate depth "  ")) Anything (· = []) := by
    induction depth with
    | zero => exact scans_empty
    | succ n ih =>
      rw [List.replicate_succ, String.join_cons]
      exact indent.blankBefore ih trivial
  exact line.blankBefore indents trivial

/-- Lines in braces. -/
theorem scans_braces {α : Type} {items : List α} {item : α → List Token → Prop} {depth : Nat}
    (text : α → String) (h : ∀ a ∈ items, Scans (text a) Anything (item a)) :
    Scans (braces depth (items.map text)) Anything fun u => ∃ b v d, u = b :: (v ++ [d]) ∧
      b.kind = .leftBrace ∧ d.kind = .rightBrace ∧ Each item items v := by
  have opening : Scans "\x7b" Anything (Spelled (fixedToken .leftBrace)) :=
    scans_closedSymbol (k := .leftBrace) (by decide)
  have closing : Scans "\x7d" Anything (Spelled (fixedToken .rightBrace)) :=
    scans_closedSymbol (k := .rightBrace) (by decide)
  have lines := scans_each (fun a => newLine (depth + 1) ++ text a) fun a ha =>
    (scans_newLine (depth + 1)).blankBefore (h a ha) trivial
  have inner := (opening.then lines trivial).blankAfter (scans_newLine depth) (fun _ _ => trivial)
    trivial
  have whole := inner.then closing trivial
  rw [braces, List.map_map]
  refine whole.mono ?_
  rintro _ ⟨_, _, rfl, ⟨_, v, rfl, ⟨b, rfl, hb⟩, hv⟩, ⟨d, rfl, hd⟩⟩
  exact ⟨b, v, d, rfl, fixed_kind hb, fixed_kind hd, hv⟩

/-- Declarations one after another are read as a list of declarations. -/
theorem derivation_declarations {body : List Stmt} {u : List Token}
    (h : Each (fun s u => ∃ s', s'.bare = s.bare ∧ Derivation .declaration u s') body u) :
    ∃ body', Stmt.bares body' = Stmt.bares body ∧ Derivation .declarations u body' := by
  induction body generalizing u with
  | nil =>
    cases h
    exact ⟨[], rfl, .noDeclarations⟩
  | cons s rest ih =>
    obtain ⟨v, w, rfl, ⟨s', hs', hv⟩, hw⟩ := h
    obtain ⟨rest', hrest', hw⟩ := ih hw
    exact ⟨s' :: rest', by simp [Stmt.bares, hs', hrest'], .declarations hv hw⟩

/-- A body is printed in braces, each of its declarations on a line of its own. -/
theorem scans_body {body : List Stmt} (h : ∀ s ∈ body, DeclarationPrints s) (depth : Nat) :
    Scans (braces depth (Stmt.formats (depth + 1) body)) Anything fun u => ∃ b v d body',
      u = b :: (v ++ [d]) ∧ b.kind = .leftBrace ∧ d.kind = .rightBrace ∧
      Stmt.bares body' = Stmt.bares body ∧ Derivation .declarations v body' := by
  rw [Stmt.formats_eq_map]
  refine (scans_braces _ fun s hs => h s hs (depth + 1)).mono ?_
  rintro _ ⟨b, v, d, rfl, hb, hd, hv⟩
  obtain ⟨body', hbody', hv⟩ := derivation_declarations hv
  exact ⟨b, v, d, body', rfl, hb, hd, hbody', hv⟩

/-- Name, parameters and body scan to the function that is declared. -/
theorem printed_function {t : Token} {params : List Token} {body : List Stmt} (name : NameToken t)
    (names : ∀ t ∈ params, NameToken t) (h : ∀ s ∈ body, DeclarationPrints s) :
    FunctionPrints { name := t, params, body } := by
  intro depth
  have head := (name.2.scans_name name.1).thenAny (scans_params names) fun rest => by
    rw [paramText, String.append_assoc, String.toList_append, List.append_assoc]
    exact stops_append (by decide)
  have whole := (head.blankAfter scans_space (fun _ _ => trivial) trivial).then
    (scans_body h depth) trivial
  refine Scans.mono (by simpa only [Function.format] using whole) ?_
  rintro _ ⟨_, _, rfl, ⟨_, _, rfl, ⟨t', rfl, ht'⟩, p, u, q, params', rfl, hp, hq, hparams', hu⟩,
    b, v, d, body', rfl, hb, hd, hbody', hv⟩
  refine ⟨{ name := t', params := params', body := body' }, ?_, ?_⟩
  · simp [Function.bare, ht', hparams', hbody']
  · have kind := (kind_eq_of_bare_eq ht').trans name.1
    simpa using Derivation.function kind hp hu hq hb hv hd

/-- A function without a name is printed with its keyword, its parameters and its body. -/
theorem printed_lambda {f : Token} {params : List Token} {body : List Stmt}
    (hf : f.kind = .funKw) (genuine : Genuine f) (names : ∀ t ∈ params, NameToken t)
    (h : ∀ s ∈ body, DeclarationPrints s) :
    Printed (.level .primary) (.lambda f params body) := by
  intro depth
  have keyword : Scans "fun " Anything (Spelled (fixedToken .funKw)) :=
    scans_keyword_space (k := .funKw) (by decide)
  have head := keyword.then (scans_params names) trivial
  have whole := (head.blankAfter scans_space (fun _ _ => trivial) trivial).then
    (scans_body h depth) trivial
  have opens : Opens "fun " := opens_of_head (by decide)
  refine ⟨((opens.append _).append _).append _, ?_⟩
  refine Scans.mono (by simpa only [Expr.format] using whole.any) ?_
  rintro _ ⟨_, _, rfl, ⟨_, _, rfl, ⟨f', rfl, hf'⟩, p, u, q, params', rfl, hp, hq, hparams', hu⟩,
    b, v, d, body', rfl, hb, hd, hbody', hv⟩
  refine ⟨.lambda f' params' body', ?_, ?_⟩
  · simp [Expr.bare, fixed_bare hf' genuine hf (by decide), hparams', hbody']
  · simpa using Derivation.lambda (fixed_kind hf') hp hu hq hb hv hd

/-! ### Primary expressions -/

section Primary

variable {t : Token} {e : Expr}

/-- A keyword that stands for a value. -/
theorem prints_keyword {k : Token.Kind} (hk : k ∈ Token.Kind.keywords)
    (text : ∀ depth, e.format depth = k.name)
    (read : ∀ t, t.bare = (fixedToken k).bare → ∃ e', e'.bare = e.bare ∧ Atom t e') :
    Printed (.level .primary) e := by
  intro depth
  have known : ∀ k ∈ Token.Kind.keywords, IsWord k.name.toList := by decide +kernel
  rw [text]
  refine ⟨opens_of_isWord (known k hk), (scans_keyword hk).mono ?_⟩
  rintro _ ⟨t, rfl, ht⟩
  obtain ⟨e', he', hatom⟩ := read t ht
  exact ⟨e', he', .atom hatom⟩

theorem printed_bool (b : Bool) : Printed (.level .primary) (.bool b) := by
  cases b with
  | false =>
    refine prints_keyword (k := .falseKw) (by decide) (fun _ => rfl) fun t ht => ?_
    exact ⟨_, rfl, .falseKw (fixed_kind ht)⟩
  | true =>
    refine prints_keyword (k := .trueKw) (by decide) (fun _ => rfl) fun t ht => ?_
    exact ⟨_, rfl, .trueKw (fixed_kind ht)⟩

/-- A literal or a name is printed as text that scans to one token like its own. -/
theorem printed_atom (genuine : Genuine t) (h : Atom t e) : Printed (.level .primary) e := by
  cases h with
  | falseKw => exact printed_bool false
  | trueKw => exact printed_bool true
  | nilKw =>
    refine prints_keyword (k := .nilKw) (by decide) (fun _ => rfl) fun t ht => ?_
    exact ⟨_, rfl, .nilKw (fixed_kind ht)⟩
  | thisKw hk =>
    refine prints_keyword (k := .thisKw) (by decide) (fun _ => rfl) fun t ht => ?_
    refine ⟨.this { name := t }, ?_, .thisKw (fixed_kind ht)⟩
    simp [Expr.bare, Reference.bare, fixed_bare ht genuine hk (by decide)]
  | number hk =>
    obtain ⟨x, literal, written⟩ := genuine.number hk
    have value : numberOf t = x := by rw [numberOf, literal]
    intro depth
    -- a number starts with a digit
    have numeral : Opens (treeNumber.number x) := by
      obtain ⟨whole, fraction, text, nonempty, digits, -⟩ := written.1
      intro rest
      rw [text]
      cases whole with
      | nil => exact absurd rfl nonempty
      | cons c whole =>
        have marker := isMarker_of_isWordPart
          (isWordPart_of_isDigit (digits c List.mem_cons_self))
        constructor
        · rintro ⟨⟩
          revert marker
          decide
        · rintro ⟨⟩
          revert marker
          decide
    rw [value]
    refine ⟨numeral, (scans_number written).mono ?_⟩
    rintro _ ⟨t', rfl, hk', literal'⟩
    have value' : numberOf t' = x := by rw [numberOf, literal']
    exact ⟨.number x, rfl, .atom (value' ▸ .number hk')⟩
  | string hk =>
    obtain ⟨s, literal, plain⟩ := genuine.string hk
    have value : stringOf t = s := by rw [stringOf, literal]
    intro depth
    have quoted : Opens (stringText s) :=
      ((opens_of_head (by decide) : Opens "\"").append s).append "\""
    rw [value]
    refine ⟨quoted, (scans_string plain).any.mono ?_⟩
    rintro _ ⟨t', rfl, hk', literal'⟩
    have value' : stringOf t' = s := by rw [stringOf, literal']
    exact ⟨.string s, rfl, .atom (value' ▸ .string hk')⟩
  | identifier hk =>
    intro depth
    refine ⟨opens_of_isWord (genuine.name hk).1.word, (genuine.scans_name hk).mono ?_⟩
    rintro _ ⟨t', rfl, ht'⟩
    refine ⟨.variable { name := t' }, by simp [Expr.bare, Reference.bare, ht'], ?_⟩
    exact .atom (.identifier ((kind_eq_of_bare_eq ht').trans hk))

theorem printed_super {s : Token} (hs : s.kind = .superKw) (genuineS : Genuine s)
    (ht : t.kind = .identifier) (genuine : Genuine t) :
    Printed (.level .primary) (.super { name := s } t) := by
  intro depth
  obtain ⟨name, stops⟩ := scans_dot_name genuine ht
  have keyword : Scans "super" Stops (Spelled (fixedToken .superKw)) :=
    scans_keyword (k := .superKw) (by decide)
  have text : (Expr.super { name := s } t).format depth = "super" ++ ("." ++ t.lexeme) := by
    rw [Expr.format, ← String.append_assoc]
    rfl
  have opens : Opens "super" := opens_of_head (by decide)
  rw [text]
  refine ⟨opens.append _, (keyword.append name (fun rest _ => stops rest) trivial).mono ?_⟩
  rintro _ ⟨_, _, rfl, ⟨s', rfl, hs'⟩, _, _, rfl, ⟨d', rfl, hd'⟩, ⟨t', rfl, ht'⟩⟩
  refine ⟨.super { name := s' } t', ?_, ?_⟩
  · simp [Expr.bare, Reference.bare, ht', fixed_bare hs' genuineS hs (by decide)]
  · exact .super (fixed_kind hs') (fixed_kind hd') ((kind_eq_of_bare_eq ht').trans ht)

theorem printed_group (h : Printed .expression e) : Printed (.level .primary) (.group e) := by
  intro depth
  obtain ⟨-, scans⟩ := h depth
  have whole := (scans_leftParen.then scans trivial).thenAny scans_rightParen
    fun _ => stops_append (by decide)
  have opens : Opens "(" := opens_of_head (by decide)
  refine ⟨(opens.append _).append _, Scans.mono (by simpa only [Expr.format] using whole.any) ?_⟩
  rintro _ ⟨_, _, rfl, ⟨_, u, rfl, ⟨p, rfl, hp⟩, e', he', hu⟩, ⟨q, rfl, hq⟩⟩
  exact ⟨.group e', by simp [Expr.bare, he'], .group (fixed_kind hp) hu (fixed_kind hq)⟩

/-- An expression of one token is one at every level. -/
theorem printed_of_primary (h : Printed (.level .primary) e) : Printed .expression e := by
  have call : Printed (.level .call) e := printed_callee h (printed_end fun _ => .suffixEnd)
  have lift {l : Level} (nonempty : l.operators ≠ []) (h : Printed (.level l.inner) e) :
      Printed (.level l) e := printed_operand nonempty h (printed_end fun _ => .chainEnd)
  have factor := lift (l := .factor) (by decide) (printed_plain call)
  have term := lift (l := .term) (by decide) factor
  have comparison := lift (l := .comparison) (by decide) term
  have equality := lift (l := .equality) (by decide) comparison
  have conjunction := lift (l := .conjunction) (by decide) equality
  exact printed_value (lift (l := .disjunction) (by decide) conjunction)

end Primary

/-! ### Statements -/

section Statements

variable {t r : Token} {e test value : Expr} {s body yes no : Stmt} {isOpen : Bool}

/-- A semicolon ends an expression. -/
theorem scans_ended (h : Printed .expression e) (depth : Nat) :
    Scans (e.format depth ++ ";") Anything fun u => ∃ v k e', u = v ++ [k] ∧ k.kind = .semicolon ∧
      e'.bare = e.bare ∧ Derivation .expression v e' := by
  refine ((h depth).2.thenAny scans_semicolon fun _ => stops_append (by decide)).mono ?_
  rintro _ ⟨v, _, rfl, ⟨e', he', hv⟩, ⟨k, rfl, hk⟩⟩
  exact ⟨v, k, e', rfl, fixed_kind hk, he', hv⟩

/-- A statement is a declaration, open or not. -/
theorem printed_statement (h : Printed (.statement isOpen) s) : DeclarationPrints s := by
  intro depth
  refine (h depth).mono ?_
  rintro u ⟨s', hs', o, hu, -⟩
  exact ⟨s', hs', .statement hu⟩

theorem printed_expr (h : Printed .expression e) : Printed (.statement false) (.expr e) := by
  intro depth
  refine (scans_ended h depth).mono ?_
  rintro _ ⟨v, k, e', rfl, hk, he', hv⟩
  exact ⟨.expr e', by simp [Stmt.bare, he'], false, .expr hv hk, by simp⟩

theorem printed_print (h : Printed .expression e) : Printed (.statement false) (.print e) := by
  intro depth
  have keyword : Scans "print " Anything (Spelled (fixedToken .printKw)) :=
    scans_keyword_space (k := .printKw) (by decide)
  have whole := keyword.then (scans_ended h depth) trivial
  rw [Stmt.format, String.append_assoc]
  refine whole.mono ?_
  rintro _ ⟨_, _, rfl, ⟨p, rfl, hp⟩, v, k, e', rfl, hk, he', hv⟩
  exact ⟨.print e', by simp [Stmt.bare, he'], false, .print (fixed_kind hp) hv hk, by simp⟩

/-- A return without a value is its keyword and a semicolon. -/
theorem printed_retNone (hr : r.kind = .returnKw) (genuine : Genuine r) :
    Printed (.statement false) (.ret r none) := by
  intro depth
  have whole : Scans "return;" Anything
      (Then (Spelled (fixedToken .returnKw)) (Spelled (fixedToken .semicolon))) :=
    (scans_keyword (k := .returnKw) (by decide)).thenAny scans_semicolon
      fun _ => stops_append (by decide)
  refine whole.mono ?_
  rintro _ ⟨_, _, rfl, ⟨r', rfl, hr'⟩, ⟨k, rfl, hk⟩⟩
  refine ⟨.ret r' none, ?_, false, .ret (fixed_kind hr') .noExpression (fixed_kind hk), by simp⟩
  simp [Stmt.bare, fixed_bare hr' genuine hr (by decide)]

theorem printed_retSome (hr : r.kind = .returnKw) (genuine : Genuine r)
    (h : Printed .expression e) : Printed (.statement false) (.ret r (some e)) := by
  intro depth
  have keyword : Scans "return " Anything (Spelled (fixedToken .returnKw)) :=
    scans_keyword_space (k := .returnKw) (by decide)
  have whole := keyword.then (scans_ended h depth) trivial
  rw [Stmt.format, String.append_assoc]
  refine whole.mono ?_
  rintro _ ⟨_, _, rfl, ⟨r', rfl, hr'⟩, v, k, e', rfl, hk, he', hv⟩
  refine ⟨.ret r' (some e'), ?_, false, .ret (fixed_kind hr') (.someExpression hv) hk, by simp⟩
  simp [Stmt.bare, he', fixed_bare hr' genuine hr (by decide)]

/-- A block is a body in braces, and never open. -/
theorem printed_block {body : List Stmt} (h : ∀ s ∈ body, DeclarationPrints s) :
    Printed (.statement isOpen) (.block body) := by
  intro depth
  refine (scans_body h depth).mono ?_
  rintro _ ⟨b, v, d, body', rfl, hb, hd, hbody', hv⟩
  exact ⟨.block body', by simp [Stmt.bare, hbody'], false, .block hb hv hd, by simp⟩

/-- A keyword and a condition. -/
theorem scans_condition {k : Token.Kind} (hk : k ∈ Token.Kind.keywords)
    (h : Printed .expression test) (depth : Nat) :
    Scans (k.name ++ " (" ++ test.format depth ++ ") ") Anything fun u => ∃ t p v q test',
      u = t :: p :: (v ++ [q]) ∧ t.kind = k ∧ p.kind = .leftParen ∧ q.kind = .rightParen ∧
      test'.bare = test.bare ∧ Derivation .expression v test' := by
  have opening : Scans " (" Anything (Spelled (fixedToken .leftParen)) :=
    scans_space.blankBefore scans_leftParen trivial
  have closing : Scans ") " Anything (Spelled (fixedToken .rightParen)) :=
    scans_symbol_space (k := .rightParen) (by decide)
  have keyword := (scans_keyword hk).thenAny opening fun _ => stops_append (by decide)
  have whole := (keyword.then (h depth).2 trivial).thenAny closing
    fun _ => stops_append (by decide)
  refine whole.mono ?_
  rintro _ ⟨_, _, rfl, ⟨_, v, rfl, ⟨_, _, rfl, ⟨t, rfl, ht⟩, ⟨p, rfl, hp⟩⟩, test', htest', hv⟩,
    ⟨q, rfl, hq⟩⟩
  exact ⟨t, p, v, q, test', by simp, fixed_kind ht, fixed_kind hp, fixed_kind hq, htest', hv⟩

/-- A loop is open where its body is. -/
theorem printed_loop (htest : Printed .expression test) (hbody : Printed (.statement isOpen) body) :
    Printed (.statement isOpen) (.loop test body) := by
  intro depth
  have whole := (scans_condition (k := .whileKw) (by decide) htest depth).then (hbody depth) trivial
  refine Scans.mono (s := (Stmt.loop test body).format depth) whole ?_
  rintro _ ⟨_, v, rfl, ⟨t, p, u, q, test', rfl, ht, hp, hq, htest', hu⟩, body', hbody', o, hv, ho⟩
  refine ⟨.loop test' body', by simp [Stmt.bare, htest', hbody'], o, ?_, ho⟩
  simpa using Derivation.loop ht hp hu hq hv

/-- A conditional without an else branch is open, so that it may not stand before an `else`. -/
theorem printed_cond (htest : Printed .expression test) (hyes : Printed (.statement isOpen) yes) :
    Printed (.statement true) (.cond test yes none) := by
  intro depth
  have whole := (scans_condition (k := .ifKw) (by decide) htest depth).then (hyes depth) trivial
  refine Scans.mono (s := (Stmt.cond test yes none).format depth) whole ?_
  rintro _ ⟨_, v, rfl, ⟨t, p, u, q, test', rfl, ht, hp, hq, htest', hu⟩, yes', hyes', o, hv, -⟩
  refine ⟨.cond test' yes' none, by simp [Stmt.bare, htest', hyes'], true, ?_, by simp⟩
  simpa using Derivation.cond ht hp hu hq hv

/-- The branch before an `else` is not open, so the `else` belongs to this conditional. -/
theorem printed_condElse (htest : Printed .expression test)
    (hyes : Printed (.statement false) yes) (hno : Printed (.statement isOpen) no) :
    Printed (.statement isOpen) (.cond test yes (some no)) := by
  intro depth
  have keyword : Scans " else " Anything (Spelled (fixedToken .elseKw)) :=
    scans_space.blankBefore (scans_keyword_space (k := .elseKw) (by decide)) trivial
  have whole := (((scans_condition (k := .ifKw) (by decide) htest depth).then (hyes depth)
    trivial).then keyword trivial).then (hno depth) trivial
  refine Scans.mono (s := (Stmt.cond test yes (some no)).format depth) whole ?_
  rintro _ ⟨_, w, rfl, ⟨_, _, rfl, ⟨_, v, rfl, ⟨t, p, u, q, test', rfl, ht, hp, hq, htest', hu⟩,
    yes', hyes', o, hv, closed⟩, ⟨l, rfl, hl⟩⟩, no', hno', o', hw, ho'⟩
  -- The branch is not open, so the `else` after it stays with this `if`.
  obtain rfl : o = false := by simpa using closed
  refine ⟨.cond test' yes' (some no'), by simp [Stmt.bare, htest', hyes', hno'], o', ?_, ho'⟩
  simpa using Derivation.condElse ht hp hu hq hv (fixed_kind hl) hw

/-- A loop over a variable is printed as what it stands for, and that is read again. -/
theorem printed_forLoop {init : Option Stmt} {test step : Option Expr}
    (hinit : Printed .forInit init) (htest : Printed .optional test) (hstep : Printed .optional step)
    (hbody : Printed (.statement isOpen) body) :
    Printed (.statement isOpen) (desugarFor init test step body) := by
  have condition : Printed .expression (test.getD (.bool true)) := by
    cases test with
    | none => exact printed_of_primary (printed_bool true)
    | some test => exact htest test rfl
  -- the loop, with its initializer before it in a block
  have whole : ∀ inner, Printed (.statement isOpen) inner →
      Printed (.statement isOpen) (desugarFor init test none inner) := by
    intro inner hinner
    have loop := printed_loop condition hinner
    cases init with
    | none => exact loop
    | some init =>
      refine printed_block fun s hs => ?_
      rcases List.mem_cons.mp hs with rfl | hs
      · exact hinit s rfl
      · obtain rfl := List.mem_singleton.mp hs
        exact printed_statement loop
  cases step with
  | none => exact whole body hbody
  | some step =>
    refine whole (.block [body, .expr step]) (printed_block fun s hs => ?_)
    rcases List.mem_cons.mp hs with rfl | hs
    · exact printed_statement hbody
    · obtain rfl := List.mem_singleton.mp hs
      exact printed_statement (printed_expr (hstep step rfl))

/-- A variable is printed with its value, if it has one. -/
theorem printed_var {init : Option Expr} (name : NameToken t) (h : Printed .optional init) :
    DeclarationPrints (.var t init) := by
  intro depth
  have keyword : Scans "var " Anything (Spelled (fixedToken .varKw)) :=
    scans_keyword_space (k := .varKw) (by decide)
  -- the keyword and the name, with or without a value behind them
  have head := keyword.then (name.2.scans_name name.1) trivial
  cases init with
  | none =>
    have whole := head.thenAny scans_semicolon fun _ => stops_append (by decide)
    refine Scans.mono (s := (Stmt.var t none).format depth) whole ?_
    rintro _ ⟨_, _, rfl, ⟨_, _, rfl, ⟨v, rfl, hv⟩, ⟨t', rfl, ht'⟩⟩, ⟨k, rfl, hk⟩⟩
    have kind := (kind_eq_of_bare_eq ht').trans name.1
    refine ⟨.var t' none, by simp [Stmt.bare, ht'], ?_⟩
    exact .var (fixed_kind hv) (.varNone kind (fixed_kind hk))
  | some init =>
    have whole := (head.thenAny scans_equal fun _ => stops_append (by decide)).then
      (scans_ended (h init rfl) depth) trivial
    have text : (Stmt.var t (some init)).format depth =
        "var " ++ t.lexeme ++ " = " ++ (init.format depth ++ ";") := by
      simp only [Stmt.format, String.append_assoc]
    rw [text]
    refine whole.mono ?_
    rintro _ ⟨_, _, rfl, ⟨_, _, rfl, ⟨_, _, rfl, ⟨v, rfl, hv⟩, ⟨t', rfl, ht'⟩⟩, ⟨q, rfl, hq⟩⟩,
      u, k, init', rfl, hk, hinit', hu⟩
    have kind := (kind_eq_of_bare_eq ht').trans name.1
    refine ⟨.var t' (some init'), by simp [Stmt.bare, ht', hinit'], ?_⟩
    exact .var (fixed_kind hv) (.varSome kind (fixed_kind hq) hu hk)

theorem printed_fun {decl : Function} (h : FunctionPrints decl) :
    DeclarationPrints (.function decl) := by
  intro depth
  have keyword : Scans "fun " Anything (Spelled (fixedToken .funKw)) :=
    scans_keyword_space (k := .funKw) (by decide)
  refine Scans.mono (s := (Stmt.function decl).format depth) (keyword.then (h depth) trivial) ?_
  rintro _ ⟨_, u, rfl, ⟨f, rfl, hf⟩, decl', hdecl', hu⟩
  exact ⟨.function decl', by simp [Stmt.bare, hdecl'], .fun (fixed_kind hf) hu⟩

/-- Functions one after another are read as the methods of a class. -/
theorem derivation_methods {methods : List Function} {u : List Token}
    (h : Each (fun f u => ∃ f', f'.bare = f.bare ∧ Derivation .function u f') methods u) :
    ∃ methods', Function.bares methods' = Function.bares methods ∧
      Derivation .methods u methods' := by
  induction methods generalizing u with
  | nil =>
    cases h
    exact ⟨[], rfl, .noMethods⟩
  | cons f rest ih =>
    obtain ⟨v, w, rfl, ⟨f', hf', hv⟩, hw⟩ := h
    obtain ⟨rest', hrest', hw⟩ := ih hw
    exact ⟨f' :: rest', by simp [Function.bares, hf', hrest'], .methods hv hw⟩

/-- A class is printed with its superclass, if it has one, and its methods in braces. -/
theorem printed_classDecl {superclass : Option Reference} {methods : List Function}
    (name : NameToken t) (hsuper : Printed .superclass superclass)
    (hmethods : ∀ f ∈ methods, FunctionPrints f) :
    DeclarationPrints (.classDecl t superclass methods) := by
  intro depth
  have keyword : Scans "class " Anything (Spelled (fixedToken .classKw)) :=
    scans_keyword_space (k := .classKw) (by decide)
  have head := keyword.then (name.2.scans_name name.1) trivial
  -- the methods are printed in braces, whatever stands before these
  have body : Scans (braces depth (Function.formats (depth + 1) methods)) Anything fun u =>
      ∃ b v d methods', u = b :: (v ++ [d]) ∧ b.kind = .leftBrace ∧ d.kind = .rightBrace ∧
        Function.bares methods' = Function.bares methods ∧ Derivation .methods v methods' := by
    rw [Function.formats_eq_map]
    refine (scans_braces _ fun f hf => hmethods f hf (depth + 1)).mono ?_
    rintro _ ⟨b, v, d, rfl, hb, hd, hv⟩
    obtain ⟨methods', hmethods', hv⟩ := derivation_methods hv
    exact ⟨b, v, d, methods', rfl, hb, hd, hmethods', hv⟩
  cases superclass with
  | none =>
    have whole := (head.blankAfter scans_space (fun _ _ => stops_append (by decide)) trivial).then
      body trivial
    refine Scans.mono (s := (Stmt.classDecl t none methods).format depth) whole ?_
    rintro _ ⟨_, _, rfl, ⟨_, _, rfl, ⟨c, rfl, hc⟩, ⟨t', rfl, ht'⟩⟩, b, v, d, methods', rfl, hb, hd,
      hmethods', hv⟩
    have kind := (kind_eq_of_bare_eq ht').trans name.1
    refine ⟨.classDecl t' none methods', by simp [Stmt.bare, ht', hmethods'], ?_⟩
    simpa using Derivation.classDecl (fixed_kind hc) kind .noSuperclass hb hv hd
  | some ref =>
    obtain ⟨superName, hops⟩ := hsuper ref rfl
    have less : Scans " < " Anything (Spelled (fixedToken .less)) :=
      scans_space.blankBefore (scans_symbol_space (k := .less) (by decide)) trivial
    have clause := (head.thenAny less fun _ => stops_append (by decide)).then
      (superName.2.scans_name superName.1) trivial
    have whole := (clause.blankAfter scans_space (fun _ _ => stops_append (by decide))
      trivial).then body trivial
    refine Scans.mono (s := (Stmt.classDecl t (some ref) methods).format depth) whole ?_
    rintro _ ⟨_, _, rfl, ⟨_, _, rfl, ⟨_, _, rfl, ⟨_, _, rfl, ⟨c, rfl, hc⟩, ⟨t', rfl, ht'⟩⟩,
      ⟨l, rfl, hl⟩⟩, ⟨n, rfl, hn⟩⟩, b, v, d, methods', rfl, hb, hd, hmethods', hv⟩
    have kind := (kind_eq_of_bare_eq ht').trans name.1
    have superKind := (kind_eq_of_bare_eq hn).trans superName.1
    have lessKind : l.kind ∈ [Token.Kind.less, .colon] := by simp [fixed_kind hl]
    refine ⟨.classDecl t' (some { name := n }) methods', ?_, ?_⟩
    · simp [Stmt.bare, ht', hmethods', Reference.bare, hn, hops]
    · simpa using Derivation.classDecl (fixed_kind hc) kind (.someSuperclass lessKind superKind) hb
        hv hd

end Statements

/-- What was read from scanned tokens is printed as what is read the same way. -/
theorem Derivation.printed {c : Category} {u : List Token} {a : c.Tree} (h : Derivation c u a)
    (genuine : ∀ t ∈ u, Genuine t) : Printed c a := by
  -- on the derivation: the tokens of each part are among those of the whole
  induction h with
  | assign ht _ _ ih =>
    simp only [List.forall_mem_cons] at genuine
    exact printed_assign ht genuine.1 (ih genuine.2.2)
  | set _ _ ht _ _ ihu ihv =>
    simp only [List.forall_mem_append, List.forall_mem_cons] at genuine
    exact printed_set (ihu genuine.1) ht genuine.2.2.1 (ihv genuine.2.2.2.2)
  | value _ ih => exact printed_value (ih genuine)
  | operand nonempty _ _ ihu ihw =>
    simp only [List.forall_mem_append] at genuine
    exact printed_operand nonempty (ihu genuine.1) (ihw genuine.2)
  | chainEnd => exact printed_end fun _ => .chainEnd
  | chainStep hop _ _ ihv ihw =>
    simp only [List.forall_mem_cons, List.forall_mem_append] at genuine
    exact printed_chainStep hop genuine.1 (ihv genuine.2.1) (ihw genuine.2.2)
  | unary hop _ ih =>
    simp only [List.forall_mem_cons] at genuine
    exact printed_unary hop genuine.1 (ih genuine.2)
  | plain _ ih => exact printed_plain (ih genuine)
  | callee _ _ ihu ihw =>
    simp only [List.forall_mem_append] at genuine
    exact printed_callee (ihu genuine.1) (ihw genuine.2)
  | suffixEnd => exact printed_end fun _ => .suffixEnd
  | call _ _ hq _ ihv ihw =>
    simp only [List.forall_mem_append, List.forall_mem_cons] at genuine
    exact printed_call (ihv genuine.2.1) hq genuine.2.2.1 (ihw genuine.2.2.2)
  | get _ ht _ ih =>
    simp only [List.forall_mem_cons] at genuine
    exact printed_get ht genuine.2.1 (ih genuine.2.2)
  | atom ha => exact printed_atom (genuine _ List.mem_cons_self) ha
  | super hs _ ht =>
    simp only [List.forall_mem_cons] at genuine
    exact printed_super hs genuine.1 ht genuine.2.2.1
  | group _ _ _ ih =>
    simp only [List.forall_mem_append, List.forall_mem_cons] at genuine
    exact printed_group (ih genuine.2.1)
  | lambda hf _ _ _ _ _ _ ihu ihv =>
    simp only [List.forall_mem_append, List.forall_mem_cons] at genuine
    exact printed_lambda hf genuine.1 (ihu genuine.2.2.1) (ihv genuine.2.2.2.2.2.1)
  | noArguments | argumentsEnd | noParams | paramsEnd | noDeclarations | noMethods =>
    simp [Printed]
  | noExpression | noInit | noSuperclass => simp [Printed]
  | arguments _ _ ihu ihw =>
    simp only [List.forall_mem_append] at genuine
    exact List.forall_mem_cons.mpr ⟨ihu genuine.1, ihw genuine.2⟩
  | argument _ _ _ ihu ihw =>
    simp only [List.forall_mem_cons, List.forall_mem_append] at genuine
    exact List.forall_mem_cons.mpr ⟨ihu genuine.2.1, ihw genuine.2.2⟩
  | params ht _ ih =>
    simp only [List.forall_mem_cons] at genuine
    exact List.forall_mem_cons.mpr ⟨⟨ht, genuine.1⟩, ih genuine.2⟩
  | param _ ht _ ih =>
    simp only [List.forall_mem_cons] at genuine
    exact List.forall_mem_cons.mpr ⟨⟨ht, genuine.2.1⟩, ih genuine.2.2⟩
  | someExpression _ ih =>
    rintro _ ⟨⟩
    exact ih genuine
  | varNone ht _ =>
    simp only [List.forall_mem_cons] at genuine
    exact printed_var ⟨ht, genuine.1⟩ (by simp [Printed])
  | varSome ht _ _ _ ih =>
    simp only [List.forall_mem_append, List.forall_mem_cons] at genuine
    refine printed_var ⟨ht, genuine.1⟩ ?_
    rintro _ ⟨⟩
    exact ih genuine.2.2.1
  | varInit _ _ ih =>
    simp only [List.forall_mem_cons] at genuine
    rintro _ ⟨⟩
    exact ih genuine.2
  | exprInit _ _ ih =>
    simp only [List.forall_mem_append] at genuine
    rintro _ ⟨⟩
    exact printed_statement (printed_expr (ih genuine.1))
  | expr _ _ ih =>
    simp only [List.forall_mem_append] at genuine
    exact printed_expr (ih genuine.1)
  | print _ _ _ ih =>
    simp only [List.forall_mem_cons, List.forall_mem_append] at genuine
    exact printed_print (ih genuine.2.1)
  | @ret _ _ _ value hr _ _ ih =>
    simp only [List.forall_mem_cons, List.forall_mem_append] at genuine
    cases value with
    | none => exact printed_retNone hr genuine.1
    | some value => exact printed_retSome hr genuine.1 (ih genuine.2.1 value rfl)
  | block _ _ _ ih =>
    simp only [List.forall_mem_cons, List.forall_mem_append] at genuine
    exact printed_block (ih genuine.2.1)
  | loop _ _ _ _ _ ihu ihv =>
    simp only [List.forall_mem_cons, List.forall_mem_append] at genuine
    exact printed_loop (ihu genuine.2.2.1) (ihv genuine.2.2.2.2)
  | cond _ _ _ _ _ ihu ihv =>
    simp only [List.forall_mem_cons, List.forall_mem_append] at genuine
    exact printed_cond (ihu genuine.2.2.1) (ihv genuine.2.2.2.2)
  | condElse _ _ _ _ _ _ _ ihu ihv ihw =>
    simp only [List.forall_mem_cons, List.forall_mem_append] at genuine
    exact printed_condElse (ihu genuine.2.2.1) (ihv genuine.2.2.2.2.1)
      (ihw genuine.2.2.2.2.2.2)
  | forLoop _ _ _ _ _ _ _ _ ihu ihv ihw ihx =>
    simp only [List.forall_mem_cons, List.forall_mem_append] at genuine
    obtain ⟨-, -, gu, gv, -, gw, -, gx⟩ := genuine
    exact printed_forLoop (ihu gu) (ihv gv) (ihw gw) (ihx gx)
  | statement _ ih => exact printed_statement (ih genuine)
  | var _ _ ih =>
    simp only [List.forall_mem_cons] at genuine
    exact ih genuine.2
  | «fun» _ _ ih =>
    simp only [List.forall_mem_cons] at genuine
    exact printed_fun (ih genuine.2)
  | classDecl _ ht _ _ _ _ ihu ihv =>
    simp only [List.forall_mem_cons, List.forall_mem_append] at genuine
    obtain ⟨-, gt, gu, -, gv, -⟩ := genuine
    exact printed_classDecl ⟨ht, gt⟩ (ihu gu) (ihv gv)
  | declarations _ _ ihu ihv =>
    simp only [List.forall_mem_append] at genuine
    exact List.forall_mem_cons.mpr ⟨ihu genuine.1, ihv genuine.2⟩
  | function ht _ _ _ _ _ _ ihu ihv =>
    simp only [List.forall_mem_cons, List.forall_mem_append] at genuine
    obtain ⟨gt, -, gu, -, -, gv, -⟩ := genuine
    exact printed_function ⟨ht, gt⟩ (ihu gu) (ihv gv)
  | methods _ _ ihu ihv =>
    simp only [List.forall_mem_append] at genuine
    exact List.forall_mem_cons.mpr ⟨ihu genuine.1, ihv genuine.2⟩
  | someSuperclass _ ht =>
    simp only [List.forall_mem_cons] at genuine
    rintro _ ⟨⟩
    exact ⟨⟨ht, genuine.2.1⟩, rfl⟩

end Lox.Grammar
