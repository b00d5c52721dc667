import Lox.Proofs.Source.Plain
import Lox.Proofs.Syntax.Readback
import Lox.Proofs.Syntax.RoundTrip

/-!
The parenthesised text of a parsed program says which program it is, but for the lines of its
tokens. Names are not quoted there; that no name is written like another word, a number or a form
follows from how words are normalized.
-/

namespace Lox

open Source Grammar

/-! ### Tokens of a text -/

/-- The values of the numbers of a text. -/
def Source.numbersOf (text : String) : List Float :=
  (cut text.toList).filterMap fun
    | .number x _ => some x
    | _ => none

theorem Source.mem_numbersOf {text : String} {x : Float} :
    x ∈ numbersOf text ↔ ∃ w, .number x w ∈ cut text.toList := by
  rw [numbersOf, List.mem_filterMap]
  constructor
  · rintro ⟨p, hp, value⟩
    split at value
    · cases value
      exact ⟨_, hp⟩
    · cases value
  · rintro ⟨w, hw⟩
    exact ⟨_, hw, rfl⟩

theorem isDelimiter_of_isPlain {c : Char} (h : IsPlain c) : Sexp.isDelimiter c = false := by
  rw [← Bool.not_eq_true]
  intro delimits
  simp only [Sexp.isDelimiter, Bool.or_eq_true, decide_eq_true_eq] at delimits
  unfold IsPlain at h
  rcases delimits with (((rfl | rfl) | rfl) | rfl) | rfl <;> exact absurd h (by decide)

/-- A token as scanning gives it, whatever normalization makes of words. -/
structure Token.IsScanned (numbers : List Float) (t : Token) : Prop where
  fixed : ∀ {k : Kind}, t.kind = k → k ∈ closedSymbols ++ openSymbols ++ Kind.keywords →
    t.bare = fixedToken k
  name : t.kind = .identifier → t.IsLegible
  number : t.kind = .number → ∃ x ∈ numbers, t.literal = .number x
  string : t.kind = .string → ∃ s, t.literal = .string s ∧ '"' ∉ s.toList

section Scanned

variable {t : Token} {numbers : List Float}

/-- A word that is scanned is a legible name. -/
theorem isLegible_of_word {w : List Char} (h : IsWord w) (lexeme : t.lexeme = wordLexeme w)
    (name : t.IsName) (bare : t.bare = .ofWord t.lexeme) : t.IsLegible := by
  obtain ⟨plain, c, hc, letter⟩ := plain_normalize h
  have text : t.lexeme.toList = Text.normalize w := by simp [lexeme, wordLexeme]
  rw [← text] at plain hc
  refine ⟨⟨List.ne_nil_of_mem hc, fun d hd => isDelimiter_of_isPlain (plain d hd)⟩, name,
    ⟨c, hc, letter, ?_⟩, bare⟩
  rintro rfl
  have noPoint : ¬ (128 ≤ '.'.toNat ∨ isWordPart '.' = true) := by decide
  exact noPoint (plain _ hc)

/-- The tokens of a text are scanned ones, whatever other numbers there are. -/
theorem isScanned_of_mem_tokensAt {text : String} (all : ∀ x ∈ numbersOf text, x ∈ numbers)
    (h : t ∈ tokensAt 1 (cut text.toList)) : t.IsScanned numbers := by
  obtain ⟨p, hp, line, token⟩ := mem_tokensAt h
  have sound := sound_of_mem_cut hp
  have scanned := scannedFrom_of_token? sound token
  constructor
  · rintro k rfl kind
    obtain ⟨lexeme, literal⟩ := scanned.fixed kind
    exact bare_eq_fixedToken lexeme literal
  · intro kind
    obtain ⟨⟨w, rfl, lexeme⟩, name, literal⟩ := scanned.name kind
    refine isLegible_of_word sound lexeme name ?_
    rw [Token.bare, Token.ofWord, kind, name, literal]
  · intro kind
    obtain ⟨x, w, rfl, literal⟩ := scanned.number kind
    exact ⟨x, all x (mem_numbersOf.mpr ⟨w, hp⟩), literal⟩
  · exact scanned.string

end Scanned

/-! ### Parsed trees -/

namespace Grammar

variable {numbers : List Float}

/-- What a category gives is read back; what comes after a first part keeps it so. -/
def IsLegible (numbers : List Float) : (c : Category) → c.Tree → Prop
  | .expression | .level _ => Expr.IsLegible numbers
  | .chain _ | .suffixes => fun pair : Expr × Expr =>
    pair.1.IsLegible numbers → pair.2.IsLegible numbers
  | .arguments | .moreArguments => fun es : List Expr => ∀ e ∈ es, e.IsLegible numbers
  | .params | .moreParams => fun params : List Token => ∀ t ∈ params, t.IsLegible
  | .superclass => fun o : Option Reference => ∀ ref ∈ o, ref.name.IsLegible ∧ ref.hops = none
  | .optional => fun o : Option Expr => ∀ e ∈ o, e.IsLegible numbers
  | .varRest | .statement _ | .declaration => Stmt.IsLegible numbers
  | .forInit => fun o : Option Stmt => ∀ s ∈ o, s.IsLegible numbers
  | .declarations => fun body : List Stmt => ∀ s ∈ body, s.IsLegible numbers
  | .function => Function.IsLegible numbers
  | .methods => fun fs : List Function => ∀ f ∈ fs, f.IsLegible numbers

theorem operator_bare {op : Token} (scanned : op.IsScanned numbers)
    (h : op.kind ∈ Token.operators) : op.bare = fixedToken op.kind := by
  have fixed : ∀ k ∈ Token.operators, k ∈ closedSymbols ++ openSymbols ++ Token.Kind.keywords := by
    decide
  exact scanned.fixed rfl (fixed _ h)

theorem isLegible_join {l : Level} {op : Token} (hop : op.kind ∈ l.operators)
    (scanned : op.IsScanned numbers) {a b : Expr} (ha : a.IsLegible numbers)
    (hb : b.IsLegible numbers) : (l.join op a b).IsLegible numbers := by
  have known : ∀ k ∈ l.operators, k ∈ Token.operators ∧
      (k ∈ [Token.Kind.andKw, .orKw] ↔ l = .disjunction ∨ l = .conjunction) := by
    cases l <;> decide
  obtain ⟨operator, decides⟩ := known _ hop
  have bare := operator_bare scanned operator
  cases l with
  | disjunction | conjunction => exact legible_logical (decides.mpr (by decide)) bare ha hb
  | _ => exact legible_binary operator (mt decides.mp (by decide)) bare ha hb

/-- An atom of the text is read back. -/
theorem isLegible_atom (told : ToldApart numbers) {t : Token} (scanned : t.IsScanned numbers)
    {e : Expr} (h : Atom t e) : e.IsLegible numbers := by
  cases h with
  | falseKw | trueKw => exact legible_bool _
  | nilKw => exact legible_nil
  | number kind =>
    obtain ⟨x, mem, literal⟩ := scanned.number kind
    rw [numberOf, literal]
    exact legible_number told mem
  | string kind =>
    obtain ⟨s, literal, inside⟩ := scanned.string kind
    rw [stringOf, literal]
    exact legible_string inside
  | thisKw kind => exact legible_this (scanned.fixed kind (by decide))
  | identifier kind => exact legible_variable told (scanned.name kind)

theorem isLegible_forLoop {init : Option Stmt} {test step : Option Expr} {body : Stmt}
    (hinit : ∀ s ∈ init, s.IsLegible numbers) (htest : ∀ e ∈ test, e.IsLegible numbers)
    (hstep : ∀ e ∈ step, e.IsLegible numbers) (hbody : body.IsLegible numbers) :
    (desugarFor init test step body).IsLegible numbers := by
  have condition : (test.getD (.bool true)).IsLegible numbers := by
    cases test with
    | none => exact legible_bool true
    | some test => exact htest test rfl
  have pair {s s' : Stmt} (h : s.IsLegible numbers) (h' : s'.IsLegible numbers) :
      (Stmt.block [s, s']).IsLegible numbers :=
    legible_block (List.forall_mem_cons.mpr ⟨h, List.forall_mem_singleton.mpr h'⟩)
  have rounds {s : Stmt} (h : s.IsLegible numbers) :
      (desugarFor init test none s).IsLegible numbers := by
    cases init with
    | none => exact legible_loop condition h
    | some init => exact pair (hinit init rfl) (legible_loop condition h)
  cases step with
  | none => exact rounds hbody
  | some step => exact rounds (pair hbody (legible_expr (hstep step rfl)))

/-- What is read from scanned tokens is read back from its text. -/
theorem Derivation.isLegible (told : ToldApart numbers) {c : Category} {u : List Token} {a : c.Tree}
    (h : Derivation c u a) (scanned : ∀ t ∈ u, t.IsScanned numbers) : IsLegible numbers c a := by
  induction h with
  | assign kind _ _ ih =>
    simp only [List.forall_mem_cons] at scanned
    exact legible_assign (scanned.1.name kind) (ih scanned.2.2)
  | set _ _ kind _ _ ihu ihv =>
    simp only [List.forall_mem_append, List.forall_mem_cons] at scanned
    exact legible_set (ihu scanned.1) (scanned.2.2.1.name kind) (ihv scanned.2.2.2.2)
  | value _ ih | plain _ ih | statement _ ih => exact ih scanned
  | operand _ _ _ ihu ihw | callee _ _ ihu ihw =>
    simp only [List.forall_mem_append] at scanned
    exact ihw scanned.2 (ihu scanned.1)
  | chainEnd | suffixEnd => exact id
  | chainStep hop _ _ ihv ihw =>
    simp only [List.forall_mem_append, List.forall_mem_cons] at scanned
    exact fun ha => ihw scanned.2.2 (isLegible_join hop scanned.1 ha (ihv scanned.2.1))
  | call _ _ kind _ ihv ihw =>
    simp only [List.forall_mem_append, List.forall_mem_cons] at scanned
    obtain ⟨-, sv, paren, sw⟩ := scanned
    exact fun ha => ihw sw (legible_call ha (paren.fixed kind (by decide)) (ihv sv))
  | get _ kind _ ih =>
    simp only [List.forall_mem_cons] at scanned
    exact fun ha => ih scanned.2.2 (legible_get ha (scanned.2.1.name kind))
  | unary hop _ ih =>
    simp only [List.forall_mem_cons] at scanned
    have operator : ∀ k ∈ [Token.Kind.bang, .minus], k ∈ Token.operators := by decide
    have operator := operator _ hop
    exact legible_unary operator (operator_bare scanned.1 operator) (ih scanned.2)
  | atom ha => exact isLegible_atom told (scanned _ List.mem_cons_self) ha
  | super kind _ name =>
    simp only [List.forall_mem_cons] at scanned
    exact legible_super (scanned.1.fixed kind (by decide)) (scanned.2.2.1.name name)
  | group _ _ _ ih =>
    simp only [List.forall_mem_append, List.forall_mem_cons] at scanned
    exact legible_group (ih scanned.2.1)
  | lambda kind _ _ _ _ _ _ ihu ihv =>
    simp only [List.forall_mem_append, List.forall_mem_cons] at scanned
    obtain ⟨keyword, -, su, -, -, sv, -⟩ := scanned
    exact legible_lambda (keyword.fixed kind (by decide)) (ihu su) (ihv sv)
  | noArguments | argumentsEnd | noDeclarations | noMethods | noParams | paramsEnd | noExpression
  | noInit | noSuperclass => simp [IsLegible]
  | someSuperclass _ kind =>
    simp only [List.forall_mem_cons] at scanned
    rintro _ ⟨⟩
    exact ⟨scanned.2.1.name kind, rfl⟩
  | arguments _ _ ihu ihw | declarations _ _ ihu ihw | methods _ _ ihu ihw =>
    simp only [List.forall_mem_append] at scanned
    exact List.forall_mem_cons.mpr ⟨ihu scanned.1, ihw scanned.2⟩
  | argument _ _ _ ihu ihw =>
    simp only [List.forall_mem_append, List.forall_mem_cons] at scanned
    exact List.forall_mem_cons.mpr ⟨ihu scanned.2.1, ihw scanned.2.2⟩
  | params kind _ ih =>
    simp only [List.forall_mem_cons] at scanned
    exact List.forall_mem_cons.mpr ⟨scanned.1.name kind, ih scanned.2⟩
  | param _ kind _ ih =>
    simp only [List.forall_mem_cons] at scanned
    exact List.forall_mem_cons.mpr ⟨scanned.2.1.name kind, ih scanned.2.2⟩
  | someExpression _ ih =>
    rintro _ ⟨⟩
    exact ih scanned
  | varInit _ _ ih =>
    simp only [List.forall_mem_cons] at scanned
    rintro _ ⟨⟩
    exact ih scanned.2
  | exprInit _ _ ih =>
    simp only [List.forall_mem_append] at scanned
    rintro _ ⟨⟩
    exact legible_expr (ih scanned.1)
  | varNone kind _ =>
    simp only [List.forall_mem_cons] at scanned
    exact legible_var (scanned.1.name kind) (by simp)
  | varSome kind _ _ _ ih =>
    simp only [List.forall_mem_append, List.forall_mem_cons] at scanned
    refine legible_var (scanned.1.name kind) ?_
    rintro _ ⟨⟩
    exact ih scanned.2.2.1
  | expr _ _ ih =>
    simp only [List.forall_mem_append] at scanned
    exact legible_expr (ih scanned.1)
  | print _ _ _ ih =>
    simp only [List.forall_mem_append, List.forall_mem_cons] at scanned
    exact legible_print (ih scanned.2.1)
  | block _ _ _ ih =>
    simp only [List.forall_mem_append, List.forall_mem_cons] at scanned
    exact legible_block (ih scanned.2.1)
  | ret kind _ _ ih =>
    simp only [List.forall_mem_append, List.forall_mem_cons] at scanned
    exact legible_ret (scanned.1.fixed kind (by decide)) (ih scanned.2.1)
  | loop _ _ _ _ _ ihu ihv =>
    simp only [List.forall_mem_append, List.forall_mem_cons] at scanned
    exact legible_loop (ihu scanned.2.2.1) (ihv scanned.2.2.2.2)
  | cond _ _ _ _ _ ihu ihv =>
    simp only [List.forall_mem_append, List.forall_mem_cons] at scanned
    exact legible_cond (ihu scanned.2.2.1) (ihv scanned.2.2.2.2) (by simp)
  | condElse _ _ _ _ _ _ _ ihu ihv ihw =>
    simp only [List.forall_mem_append, List.forall_mem_cons] at scanned
    obtain ⟨-, -, su, -, sv, -, sw⟩ := scanned
    refine legible_cond (ihu su) (ihv sv) ?_
    rintro _ ⟨⟩
    exact ihw sw
  | forLoop _ _ _ _ _ _ _ _ ihu ihv ihw ihx =>
    simp only [List.forall_mem_append, List.forall_mem_cons] at scanned
    obtain ⟨-, -, su, sv, -, sw, -, sx⟩ := scanned
    exact isLegible_forLoop (ihu su) (ihv sv) (ihw sw) (ihx sx)
  | var _ _ ih =>
    simp only [List.forall_mem_cons] at scanned
    exact ih scanned.2
  | «fun» _ _ ih =>
    simp only [List.forall_mem_cons] at scanned
    exact legible_declaration (ih scanned.2)
  | classDecl _ kind _ _ _ _ ihu ihv =>
    simp only [List.forall_mem_append, List.forall_mem_cons] at scanned
    obtain ⟨-, name, su, -, sv, -⟩ := scanned
    exact legible_class (name.name kind) (ihu su) (ihv sv)
  | function kind _ _ _ _ _ _ ihu ihv =>
    simp only [List.forall_mem_append, List.forall_mem_cons] at scanned
    obtain ⟨name, -, su, -, -, sv, -⟩ := scanned
    exact legible_function (name.name kind) (ihu su) (ihv sv)

/-- Every statement of an accepted text is read back, if the numbers are told apart. -/
theorem isLegible_of_parseSource (told : ToldApart numbers) {text : String} {p : Program}
    (accepted : parseSource text = .ok p) (all : ∀ x ∈ numbersOf text, x ∈ numbers) :
    ∀ s ∈ p.body, s.IsLegible numbers := by
  obtain ⟨-, derivation⟩ := parseSource_eq_ok_iff.mp accepted
  exact derivation.isLegible told fun t => isScanned_of_mem_tokensAt all

/-- Parsed programs with the same parenthesised text are the same but for the lines of their tokens,
if it tells the numbers of the two texts apart. -/
theorem bare_eq_of_sexpr_eq {text text' : String} {p q : Program}
    (accepted : parseSource text = .ok p) (accepted' : parseSource text' = .ok q)
    (apart : ∀ x ∈ numbersOf text ++ numbersOf text', ∀ y ∈ numbersOf text ++ numbersOf text',
      treeNumber.number x = treeNumber.number y → x = y)
    (same : p.sexpr = q.sexpr) : p.bare = q.bare := by
  have told : ToldApart (numbersOf text ++ numbersOf text') := by
    refine ⟨fun x hx => ?_, apart⟩
    have numeral {text : String} (hx : x ∈ numbersOf text) :
        IsNumeral (treeNumber.number x).toList := by
      obtain ⟨w, hw⟩ := mem_numbersOf.mp hx
      exact Decimal.isNumeral_of_read? (sound_of_mem_cut hw)
    exact (List.mem_append.mp hx).elim numeral numeral
  exact Program.bare_eq_of_isLegible
    (isLegible_of_parseSource told accepted fun _ => List.mem_append_left _)
    (isLegible_of_parseSource told accepted' fun _ => List.mem_append_right _) same

/-- A minus of one operand and one of two, a number and a string with parentheses. -/
def differenceText : String := "print -a - 1.50 + \"(b)\";"

/-- The same on the second line, with fewer blanks and digits. -/
def crowdedDifference : String := "\nprint -a-1.5+\"(b)\";"

theorem cut_differenceText : cut differenceText.toList =
    [.word ['p', 'r', 'i', 'n', 't'], .blank ' ', .symbol .minus ['-'], .word ['a'], .blank ' ',
      .symbol .minus ['-'], .blank ' ', .number 1.5 ['1', '.', '5', '0'], .blank ' ',
      .symbol .plus ['+'], .blank ' ', .string ['"', '(', 'b', ')', '"'],
      .symbol .semicolon [';']] := by
  have text : differenceText.toList = ['p', 'r', 'i', 'n', 't', ' ', '-', 'a', ' ', '-', ' ', '1',
      '.', '5', '0', ' ', '+', ' ', '"', '(', 'b', ')', '"', ';'] := by
    decide +kernel
  have number : Decimal.read? ['1', '.', '5', '0'] = some 1.5 := by decide +kernel
  have numeral : IsNumeral ['1', '.', '5', '0'] :=
    ⟨['1'], ['.', '5', '0'], rfl, by decide, List.all_eq_true.mp rfl,
      .inr ⟨_, rfl, by decide, List.all_eq_true.mp rfl⟩⟩
  rw [text]
  iterate 7 refine cut_step rfl ?_
  refine (cut_number numeral number ?_).trans (congrArg _ ?_)
  · exact ⟨by decide, by simp⟩
  · iterate 5 refine cut_step rfl ?_
    exact cut_nil

theorem cut_crowdedDifference : cut crowdedDifference.toList =
    [.blank '\n', .word ['p', 'r', 'i', 'n', 't'], .blank ' ', .symbol .minus ['-'], .word ['a'],
      .symbol .minus ['-'], .number 1.5 ['1', '.', '5'], .symbol .plus ['+'],
      .string ['"', '(', 'b', ')', '"'], .symbol .semicolon [';']] := by
  have text : crowdedDifference.toList = ['\n', 'p', 'r', 'i', 'n', 't', ' ', '-', 'a', '-', '1',
      '.', '5', '+', '"', '(', 'b', ')', '"', ';'] := by
    decide +kernel
  have number : Decimal.read? ['1', '.', '5'] = some 1.5 := by decide +kernel
  have numeral : IsNumeral ['1', '.', '5'] :=
    ⟨['1'], ['.', '5'], rfl, by decide, List.all_eq_true.mp rfl,
      .inr ⟨_, rfl, by decide, List.all_eq_true.mp rfl⟩⟩
  rw [text]
  iterate 6 refine cut_step rfl ?_
  refine (cut_number numeral number ?_).trans (congrArg _ ?_)
  · exact ⟨by decide, by simp⟩
  · iterate 3 refine cut_step rfl ?_
    exact cut_nil

theorem bare_eq_of_sexpr_eq_difference : ∃ p q, parseSource differenceText = .ok p ∧
    parseSource crowdedDifference = .ok q ∧ p.sexpr = "(print (+ (- (- a) 1.5) \"(b)\"))" ∧
      q.sexpr = p.sexpr ∧ p.bare = q.bare := by
  have spaced : ∃ p, parseSource differenceText = .ok p ∧
      p.sexpr = "(print (+ (- (- a) 1.5) \"(b)\"))" := by
    unfold parseSource scan
    rw [cut_differenceText]
    dsimp only
    rw [if_pos (by decide +kernel), if_pos (by decide +kernel)]
    exact ⟨_, rfl, by decide +kernel⟩
  have crowded : ∃ q, parseSource crowdedDifference = .ok q ∧
      q.sexpr = "(print (+ (- (- a) 1.5) \"(b)\"))" := by
    unfold parseSource scan
    rw [cut_crowdedDifference]
    dsimp only
    rw [if_pos (by decide +kernel), if_pos (by decide +kernel)]
    exact ⟨_, rfl, by decide +kernel⟩
  obtain ⟨p, hp, text⟩ := spaced
  obtain ⟨q, hq, text'⟩ := crowded
  have numbers : numbersOf differenceText ++ numbersOf crowdedDifference = [1.5, 1.5] := by
    rw [numbersOf, numbersOf, cut_differenceText, cut_crowdedDifference]
    rfl
  have same : p.sexpr = q.sexpr := text.trans text'.symm
  refine ⟨p, q, hp, hq, text, same.symm, bare_eq_of_sexpr_eq hp hq ?_ same⟩
  rw [numbers]
  simp

end Grammar

end Lox
