import Lox.Proofs.Source.Spelling
import Lox.Proofs.Syntax.Prefix
import Lox.Proofs.Syntax.Shape

/-!
Trees read back from their parenthesised text. What a form stands for depends on its head, on the
number of its parts and on where it stands: a head may be that of an expression and of a statement.
-/

namespace Lox

open Source (fixedToken)

/-! ### Parenthesised text as trees -/

/-- What a word or a form stands for in each place where it may stand. -/
structure Reading where
  word : Option String := none
  words : Option (List String) := none
  expr : Option Expr := none
  stmt : Option Stmt := none
  function : Option Function := none

/-- A use of a name without a line. -/
def Reference.ofWord (word : String) : Reference := { name := .ofWord word }

/-- The expression of a word; `numbers` are the numbers there may be. -/
def Expr.ofWord (numbers : List Float) (word : String) : Expr :=
  if word = "true" then .bool true
  else if word = "false" then .bool false
  else if word = "nil" then .nil
  else if word = "this" then .this (.ofWord "this")
  else match numbers.find? (treeNumber.number · = word) with
    | some x => .number x
    | none => .variable (.ofWord word)

@[simp] def Expr.ofForm : String → List Reading → Option Expr
  | "=", [name, value] => do return .assign (.ofWord (← name.word)) (← value.expr)
  | "group", [inner] => do return .group (← inner.expr)
  | "call", callee :: args => do
    return .call (← callee.expr) (fixedToken .rightParen) (← args.mapM (·.expr))
  | ".", [object, name] => do return .get (← object.expr) (.ofWord (← name.word))
  | "set", [object, name, value] => do
    return .set (← object.expr) (.ofWord (← name.word)) (← value.expr)
  | "super", [method] => do return .super (.ofWord "super") (.ofWord (← method.word))
  | "fun", params :: body => do
    return .lambda (.ofWord "fun") ((← params.words).map .ofWord) (← body.mapM (·.stmt))
  | op, [operand] => do return .unary (← Token.operator? op) (← operand.expr)
  | op, [left, right] => do
    let op ← Token.operator? op
    let join := if op.kind ∈ [.andKw, .orKw] then Expr.logical else Expr.binary
    return join op (← left.expr) (← right.expr)
  | _, _ => none

@[simp] def Function.ofForm : String → List Reading → Option Function
  | "fun", name :: params :: body => do
    return ⟨.ofWord (← name.word), (← params.words).map .ofWord, ← body.mapM (·.stmt)⟩
  | _, _ => none

/-- A class from behind its name. -/
def Stmt.ofClass (name : String) (parts : List Reading) : Option Stmt :=
  if parts.head?.bind (·.word) = some "<" then do
    return .classDecl (.ofWord name) (some (.ofWord (← parts[1]?.bind (·.word))))
      (← (parts.drop 2).mapM (·.function))
  else do
    return .classDecl (.ofWord name) none (← parts.mapM (·.function))

@[simp] def Stmt.ofForm : String → List Reading → Option Stmt
  | ";", [e] => do return .expr (← e.expr)
  | "print", [e] => do return .print (← e.expr)
  | "var", [name] => do return .var (.ofWord (← name.word)) none
  | "var", [name, init] => do return .var (.ofWord (← name.word)) (some (← init.expr))
  | "block", body => do return .block (← body.mapM (·.stmt))
  | "if", [test, yes] => do return .cond (← test.expr) (← yes.stmt) none
  | "if-else", [test, yes, no] => do
    return .cond (← test.expr) (← yes.stmt) (some (← no.stmt))
  | "while", [test, body] => do return .loop (← test.expr) (← body.stmt)
  | "return", [] => some (.ret (.ofWord "return") none)
  | "return", [value] => do return .ret (.ofWord "return") (some (← value.expr))
  | "class", name :: rest => do Stmt.ofClass (← name.word) rest
  | "fun", parts => do return .function (← Function.ofForm "fun" parts)
  | _, _ => none

def Reading.ofItems : List Reading → Reading
  | [] => { words := some [] }
  | first :: parts =>
    { words := (first :: parts).mapM (·.word)
      expr := do Expr.ofForm (← first.word) parts
      stmt := do Stmt.ofForm (← first.word) parts
      function := do Function.ofForm (← first.word) parts }

mutual

@[simp] def Sexp.read (numbers : List Float) : Sexp → Reading
  | .atom word => { word := some word, expr := some (Expr.ofWord numbers word) }
  | .quoted body => { expr := some (.string body) }
  | .list items => .ofItems (Sexp.reads numbers items)

def Sexp.reads (numbers : List Float) : List Sexp → List Reading
  | [] => []
  | item :: rest => item.read numbers :: Sexp.reads numbers rest

end

theorem Sexp.reads_eq_map (numbers : List Float) (items : List Sexp) :
    Sexp.reads numbers items = items.map (Sexp.read numbers) := by
  induction items with
  | nil => simp only [reads, List.map_nil]
  | cons item rest ih => simp only [reads, ih, List.map_cons]

theorem Reading.words_ofItems (items : List Reading) :
    (ofItems items).words = items.mapM (·.word) := by
  cases items <;> rfl

/-! ### Trees that are read back -/

/-- The text can stand as a word. -/
def Sexp.IsAtom (text : String) : Prop :=
  text.toList ≠ [] ∧ ∀ c ∈ text.toList, isDelimiter c = false

instance (text : String) : Decidable (Sexp.IsAtom text) :=
  @instDecidableAnd _ _ _ (List.decidableBAll _ _)

/-- The token is a name that no number is written like. -/
structure Token.IsLegible (t : Token) : Prop where
  atom : Sexp.IsAtom t.lexeme
  name : t.IsName
  letter : ∃ c ∈ t.lexeme.toList, Source.isDigit c = false ∧ c ≠ '.'
  bare : t.bare = .ofWord t.lexeme

/-- The numbers are told apart by how they are written. -/
structure ToldApart (numbers : List Float) : Prop where
  numeral : ∀ x ∈ numbers, Source.IsNumeral (treeNumber.number x).toList
  apart : ∀ x ∈ numbers, ∀ y ∈ numbers, treeNumber.number x = treeNumber.number y → x = y

section Legible

variable (numbers : List Float)

/-- The text of the tree reads as the tree. -/
structure Expr.IsLegible (e : Expr) : Prop where
  sound : e.sexp.Sound
  reads : (e.sexp.read numbers).expr = some e.bare

structure Stmt.IsLegible (s : Stmt) : Prop where
  sound : s.sexp.Sound
  reads : (s.sexp.read numbers).stmt = some s.bare

structure Function.IsLegible (f : Function) : Prop where
  sound : f.sexp.Sound
  reads : (f.sexp.read numbers).function = some f.bare

end Legible

variable {numbers : List Float}

section Forms

variable {head : String} {parts : List Sexp}

/-- A word that is no bracket, blank or quote is read back as one atom. -/
theorem Sexp.IsAtom.sound {text : String} (h : IsAtom text) : (Sexp.atom text).Sound := .atom h.1 h.2

/-- A form is read back as it was written if its head is a word and its parts are. -/
theorem Sexp.sound_form (h : IsAtom head) (more : ∀ part ∈ parts, part.Sound) :
    (form head parts).Sound :=
  .list (List.forall_mem_cons.mpr ⟨h.sound, more⟩)

/-- Reading a form reads its head and its parts. -/
theorem Sexp.read_form : (form head parts).read numbers =
    .ofItems ((Sexp.atom head).read numbers :: parts.map (Sexp.read numbers)) := by
  simp only [form, read, reads_eq_map, List.map_cons]

theorem Sexp.word_atom (text : String) : ((Sexp.atom text).read numbers).word = some text := by
  rw [read]

@[simp] theorem Sexp.word_form : ((form head parts).read numbers).word = none := by
  rw [read_form]
  rfl

/-- What a form means as an expression depends on its head and on the readings of its parts. -/
@[simp] theorem Sexp.expr_form : ((form head parts).read numbers).expr =
    Expr.ofForm head (parts.map (Sexp.read numbers)) := by
  rw [read_form]
  simp only [Reading.ofItems, word_atom]
  rfl

@[simp] theorem Sexp.stmt_form : ((form head parts).read numbers).stmt =
    Stmt.ofForm head (parts.map (Sexp.read numbers)) := by
  rw [read_form]
  simp only [Reading.ofItems, word_atom]
  rfl

@[simp] theorem Sexp.function_form : ((form head parts).read numbers).function =
    Function.ofForm head (parts.map (Sexp.read numbers)) := by
  rw [read_form]
  simp only [Reading.ofItems, word_atom]
  rfl

/-- What reads back one by one reads back in sequence. -/
theorem mapM_reads {α β : Type} {sexp : α → Sexp} {value : α → β} {place : Reading → Option β}
    {items : List α} (h : ∀ a ∈ items, place ((sexp a).read numbers) = some (value a)) :
    ((items.map sexp).map (Sexp.read numbers)).mapM place = some (items.map value) := by
  induction items with
  | nil => rfl
  | cons a rest ih =>
    obtain ⟨first, more⟩ := List.forall_mem_cons.mp h
    simp only [List.map_cons, List.mapM_cons, first, ih more]
    rfl

/-- The names in a list are read as their lexemes. -/
@[simp] theorem Sexp.words_names (params : List Token) :
    ((Sexp.names params).read numbers).words = some (params.map Token.lexeme) := by
  rw [names, read, reads_eq_map, Reading.words_ofItems]
  exact mapM_reads fun t _ => word_atom t.lexeme

end Forms

/-! ### Words -/

section Words

variable {text : List Char}

/-- Only digits and a point stand in a numeral. -/
theorem Source.IsNumeral.mem (h : IsNumeral text) : ∀ c ∈ text, isDigit c = true ∨ c = '.' := by
  obtain ⟨whole, fraction, rfl, -, digits, more⟩ := h
  rw [List.forall_mem_append]
  refine ⟨fun c hc => .inl (digits c hc), ?_⟩
  obtain rfl | ⟨rest, rfl, -, digits⟩ := more
  · nofun
  · exact List.forall_mem_cons.mpr ⟨.inr rfl, fun c hc => .inl (digits c hc)⟩

theorem Source.IsNumeral.ne_nil (h : IsNumeral text) : text ≠ [] := by
  obtain ⟨whole, fraction, rfl, nonempty, -⟩ := h
  exact List.append_ne_nil_of_left_ne_nil nonempty _

/-- What has a character that numbers do not have is no number. -/
theorem Source.IsNumeral.ne {word : List Char} (h : IsNumeral text)
    (letter : ∃ c ∈ word, isDigit c = false ∧ c ≠ '.') : text ≠ word := by
  rintro rfl
  obtain ⟨c, hc, other, noPoint⟩ := letter
  obtain digit | point := h.mem c hc
  · rw [digit] at other
    cases other
  · exact noPoint point

/-- A numeral is a word. -/
theorem Sexp.isAtom_of_isNumeral {word : String} (h : Source.IsNumeral word.toList) :
    IsAtom word := by
  refine ⟨h.ne_nil, fun c hc => ?_⟩
  rw [← Bool.not_eq_true]
  intro delimits
  simp only [isDelimiter, Bool.or_eq_true, decide_eq_true_eq] at delimits
  have other := h.mem c hc
  rcases delimits with (((rfl | rfl) | rfl) | rfl) | rfl <;> exact absurd other (by decide)

/-- The word of a number is read as that number, since no other of the numbers is written so. -/
theorem Expr.ofWord_number (told : ToldApart numbers) {x : Float} (mem : x ∈ numbers) :
    Expr.ofWord numbers (treeNumber.number x) = .number x := by
  have other {keyword : String}
      (letter : ∃ c ∈ keyword.toList, Source.isDigit c = false ∧ c ≠ '.') :
      treeNumber.number x ≠ keyword := fun same =>
    (told.numeral x mem).ne letter (congrArg String.toList same)
  rw [Expr.ofWord, if_neg (other ⟨'t', by decide⟩), if_neg (other ⟨'f', by decide⟩),
    if_neg (other ⟨'n', by decide⟩), if_neg (other ⟨'t', by decide⟩)]
  cases found : numbers.find? (treeNumber.number · = treeNumber.number x) with
  | none => simpa using List.find?_eq_none.mp found x mem
  | some y =>
    have same : treeNumber.number y = treeNumber.number x := by simpa using List.find?_some found
    rw [told.apart y (List.mem_of_find?_eq_some found) x mem same]

/-- A word with a letter in it is no numeral, so it is read as a name. -/
theorem Expr.ofWord_name (told : ToldApart numbers) {t : Token} (h : t.IsLegible) :
    Expr.ofWord numbers t.lexeme = .variable (.ofWord t.lexeme) := by
  have none : numbers.find? (treeNumber.number · = t.lexeme) = none := by
    refine List.find?_eq_none.mpr fun x hx same => ?_
    exact (told.numeral x hx).ne h.letter (congrArg String.toList (of_decide_eq_true same))
  rw [Expr.ofWord, if_neg (h.name.ne (by decide)), if_neg (h.name.ne (by decide)),
    if_neg (h.name.ne (by decide)), if_neg (h.name.ne (by decide)), none]

end Words

/-! ### Sequences -/

/-- Expressions that are read back one by one are read back as a list. -/
theorem Expr.legible_sexps {es : List Expr} (h : ∀ e ∈ es, e.IsLegible numbers) :
    (∀ item ∈ Expr.sexps es, item.Sound) ∧
      ((Expr.sexps es).map (Sexp.read numbers)).mapM (·.expr) = some (Expr.bares es) := by
  induction es with
  | nil => exact ⟨nofun, rfl⟩
  | cons e rest ih =>
    obtain ⟨first, more⟩ := List.forall_mem_cons.mp h
    obtain ⟨sound, reads⟩ := ih more
    exact ⟨List.forall_mem_cons.mpr ⟨first.sound, sound⟩,
      by simp [Expr.bares, first.reads, reads]⟩

/-- Statements that are read back one by one are read back as a list. -/
theorem Stmt.legible_sexps {body : List Stmt} (h : ∀ s ∈ body, s.IsLegible numbers) :
    (∀ item ∈ Stmt.sexps body, item.Sound) ∧
      ((Stmt.sexps body).map (Sexp.read numbers)).mapM (·.stmt) = some (Stmt.bares body) := by
  induction body with
  | nil => exact ⟨nofun, rfl⟩
  | cons s rest ih =>
    obtain ⟨first, more⟩ := List.forall_mem_cons.mp h
    obtain ⟨sound, reads⟩ := ih more
    exact ⟨List.forall_mem_cons.mpr ⟨first.sound, sound⟩,
      by simp [Stmt.bares, first.reads, reads]⟩

/-- Functions that are read back one by one are read back as a list. -/
theorem Function.legible_sexps {fs : List Function} (h : ∀ f ∈ fs, f.IsLegible numbers) :
    (∀ item ∈ Function.sexps fs, item.Sound) ∧
      ((Function.sexps fs).map (Sexp.read numbers)).mapM (·.function) =
        some (Function.bares fs) := by
  induction fs with
  | nil => exact ⟨nofun, rfl⟩
  | cons f rest ih =>
    obtain ⟨first, more⟩ := List.forall_mem_cons.mp h
    obtain ⟨sound, reads⟩ := ih more
    exact ⟨List.forall_mem_cons.mpr ⟨first.sound, sound⟩,
      by simp [Function.bares, first.reads, reads]⟩

theorem Sexp.sound_names {params : List Token} (h : ∀ t ∈ params, t.IsLegible) :
    (names params).Sound :=
  .list (List.forall_mem_map.mpr fun t ht => (h t ht).atom.sound)

theorem bare_names {params : List Token} (h : ∀ t ∈ params, t.IsLegible) :
    params.map (Token.ofWord ∘ Token.lexeme) = params.map Token.bare :=
  List.map_congr_left fun t ht => (h t ht).bare.symm

/-! ### One node of a tree -/

/-- An operator is read by its spelling, with one operand or with two. -/
theorem Expr.ofForm_operator {k : Token.Kind} (h : k ∈ Token.operators) (left right : Reading) :
    (Expr.ofForm k.name [left] = do return .unary (fixedToken k) (← left.expr)) ∧
      Expr.ofForm k.name [left, right] = do
        return (if k ∈ [.andKw, .orKw] then Expr.logical else Expr.binary) (fixedToken k)
          (← left.expr) (← right.expr) := by
  simp only [Token.operators, List.mem_cons, List.not_mem_nil, or_false] at h
  rcases h with rfl | rfl | rfl | rfl | rfl | rfl | rfl | rfl | rfl | rfl | rfl | rfl | rfl <;>
    exact ⟨rfl, rfl⟩

/-- The spelling of every operator is a word. -/
theorem Sexp.isAtom_operator : ∀ k ∈ Token.operators, IsAtom k.name := by
  decide

section Expressions

variable {t op : Token} {ref : Reference} {params : List Token} {e value object callee : Expr}
  {left right : Expr} {args : List Expr} {body : List Stmt}

/-- A number is read back where the numbers are told apart. -/
theorem legible_number (told : ToldApart numbers) {x : Float} (mem : x ∈ numbers) :
    (Expr.number x).IsLegible numbers where
  sound := (Sexp.isAtom_of_isNumeral (told.numeral x mem)).sound
  reads := by simp [Expr.ofWord_number told mem, Expr.bare]

/-- A string is read back, since no quote stands in it. -/
theorem legible_string {s : String} (h : '"' ∉ s.toList) : (Expr.string s).IsLegible numbers where
  sound := .quoted h
  reads := by simp [Expr.bare]

theorem legible_bool (b : Bool) : (Expr.bool b).IsLegible numbers where
  sound := by cases b <;> exact Sexp.IsAtom.sound (by decide)
  reads := by cases b <;> simp [Expr.bare, boolText, Expr.ofWord]

theorem legible_nil : Expr.nil.IsLegible numbers where
  sound := Sexp.IsAtom.sound (by decide)
  reads := by simp [Expr.bare, Expr.ofWord]

/-- The word `this` is a name that no variable has. -/
theorem legible_this (h : t.bare = .ofWord "this") :
    (Expr.this { name := t }).IsLegible numbers where
  sound := Sexp.IsAtom.sound (by decide)
  reads := by simp [Expr.bare, Expr.ofWord, Reference.bare, Reference.ofWord, h]

theorem legible_variable (told : ToldApart numbers) (h : t.IsLegible) :
    (Expr.variable { name := t }).IsLegible numbers where
  sound := h.atom.sound
  reads := by simp [Expr.ofWord_name told h, Expr.bare, Reference.bare, Reference.ofWord, h.bare]

theorem legible_assign (name : t.IsLegible) (h : value.IsLegible numbers) :
    (Expr.assign { name := t } value).IsLegible numbers where
  sound := Sexp.sound_form (by decide) (by simp [name.atom.sound, h.sound])
  reads := by simp [h.reads, Expr.bare, Reference.bare, Reference.ofWord, name.bare]

theorem legible_group (h : e.IsLegible numbers) : (Expr.group e).IsLegible numbers where
  sound := Sexp.sound_form (by decide) (by simp [h.sound])
  reads := by simp [h.reads, Expr.bare]

/-- A call is read back with its arguments. Its closing bracket is not written, but there is one
only. -/
theorem legible_call (h : callee.IsLegible numbers) (paren : t.bare = fixedToken .rightParen)
    (hargs : ∀ e ∈ args, e.IsLegible numbers) : (Expr.call callee t args).IsLegible numbers := by
  obtain ⟨sound, reads⟩ := Expr.legible_sexps hargs
  refine ⟨Sexp.sound_form (by decide) (List.forall_mem_cons.mpr ⟨h.sound, sound⟩), ?_⟩
  simp [h.reads, reads, Expr.bare, paren]

theorem legible_get (h : object.IsLegible numbers) (name : t.IsLegible) :
    (Expr.get object t).IsLegible numbers where
  sound := Sexp.sound_form (by decide) (by simp [name.atom.sound, h.sound])
  reads := by simp [h.reads, Expr.bare, name.bare]

theorem legible_set (h : object.IsLegible numbers) (name : t.IsLegible)
    (hvalue : value.IsLegible numbers) : (Expr.set object t value).IsLegible numbers where
  sound := Sexp.sound_form (by decide) (by simp [name.atom.sound, h.sound, hvalue.sound])
  reads := by simp [h.reads, hvalue.reads, Expr.bare, name.bare]

theorem legible_super (h : op.bare = .ofWord "super") (name : t.IsLegible) :
    (Expr.super { name := op } t).IsLegible numbers where
  sound := Sexp.sound_form (by decide) (by simp [name.atom.sound])
  reads := by simp [Expr.bare, Reference.bare, Reference.ofWord, name.bare, h]

/-- A function without a name is read back with its parameters and its body. -/
theorem legible_lambda (h : op.bare = .ofWord "fun") (names : ∀ t ∈ params, t.IsLegible)
    (hbody : ∀ s ∈ body, s.IsLegible numbers) : (Expr.lambda op params body).IsLegible numbers := by
  obtain ⟨sound, reads⟩ := Stmt.legible_sexps hbody
  refine ⟨Sexp.sound_form (by decide)
    (List.forall_mem_cons.mpr ⟨Sexp.sound_names names, sound⟩), ?_⟩
  simp [bare_names names, reads, Expr.bare, h]

/-- A token of a kind with one spelling has it as its lexeme. -/
theorem lexeme_of_spelled {k : Token.Kind} (h : op.bare = fixedToken k) : op.lexeme = k.name :=
  congrArg Token.lexeme h

/-- The head of an operator in front is its spelling, with one operand behind it. -/
theorem legible_unary (h : op.kind ∈ Token.operators) (spelled : op.bare = fixedToken op.kind)
    (operand : e.IsLegible numbers) : (Expr.unary op e).IsLegible numbers := by
  constructor
  · rw [Expr.sexp, lexeme_of_spelled spelled]
    exact Sexp.sound_form (Sexp.isAtom_operator _ h) (by simp [operand.sound])
  · rw [Expr.sexp, Sexp.expr_form, lexeme_of_spelled spelled, Expr.bare, spelled]
    refine (Expr.ofForm_operator h (e.sexp.read numbers) {}).1.trans ?_
    rw [operand.reads]
    rfl

/-- Which operator it is says whether the right operand is always evaluated. -/
theorem reads_operator (h : op.kind ∈ Token.operators) (spelled : op.bare = fixedToken op.kind)
    (hleft : left.IsLegible numbers) (hright : right.IsLegible numbers) :
    (Sexp.form op.lexeme [left.sexp, right.sexp]).Sound ∧
      ((Sexp.form op.lexeme [left.sexp, right.sexp]).read numbers).expr =
        some ((if op.kind ∈ [.andKw, .orKw] then Expr.logical else Expr.binary) op.bare left.bare
          right.bare) := by
  rw [lexeme_of_spelled spelled, spelled]
  constructor
  · exact Sexp.sound_form (Sexp.isAtom_operator _ h) (by simp [hleft.sound, hright.sound])
  · rw [Sexp.expr_form]
    refine (Expr.ofForm_operator h (left.sexp.read numbers) (right.sexp.read numbers)).2.trans ?_
    rw [hleft.reads, hright.reads]
    rfl

/-- The head of an operator is its spelling, and two operands make it one between expressions. -/
theorem legible_binary (h : op.kind ∈ Token.operators) (both : op.kind ∉ [.andKw, .orKw])
    (spelled : op.bare = fixedToken op.kind) (hleft : left.IsLegible numbers)
    (hright : right.IsLegible numbers) : (Expr.binary op left right).IsLegible numbers := by
  obtain ⟨sound, reads⟩ := reads_operator h spelled hleft hright
  rw [if_neg both] at reads
  exact ⟨sound, reads⟩

/-- The words `and` and `or` are heads of their own. -/
theorem legible_logical (h : op.kind ∈ [.andKw, .orKw]) (spelled : op.bare = fixedToken op.kind)
    (hleft : left.IsLegible numbers) (hright : right.IsLegible numbers) :
    (Expr.logical op left right).IsLegible numbers := by
  have known : ∀ k ∈ [Token.Kind.andKw, .orKw], k ∈ Token.operators := by decide
  obtain ⟨sound, reads⟩ := reads_operator (known _ h) spelled hleft hright
  rw [if_pos h] at reads
  exact ⟨sound, reads⟩

end Expressions

section Statements

variable {t : Token} {params : List Token} {e test : Expr} {yes no s : Stmt} {body : List Stmt}
  {methods : List Function}

theorem legible_expr (h : e.IsLegible numbers) : (Stmt.expr e).IsLegible numbers where
  sound := Sexp.sound_form (by decide) (by simp [h.sound])
  reads := by simp [h.reads, Stmt.bare]

theorem legible_print (h : e.IsLegible numbers) : (Stmt.print e).IsLegible numbers where
  sound := Sexp.sound_form (by decide) (by simp [h.sound])
  reads := by simp [h.reads, Stmt.bare]

theorem legible_var (name : t.IsLegible) {init : Option Expr}
    (h : ∀ e ∈ init, e.IsLegible numbers) : (Stmt.var t init).IsLegible numbers := by
  cases init with
  | none =>
    refine ⟨Sexp.sound_form (by decide) (by simp [name.atom.sound]), ?_⟩
    simp [Stmt.bare, name.bare]
  | some init =>
    have h := h init rfl
    refine ⟨Sexp.sound_form (by decide) (by simp [name.atom.sound, h.sound]), ?_⟩
    simp [h.reads, Stmt.bare, name.bare]

theorem legible_block (h : ∀ s ∈ body, s.IsLegible numbers) :
    (Stmt.block body).IsLegible numbers := by
  obtain ⟨sound, reads⟩ := Stmt.legible_sexps h
  refine ⟨Sexp.sound_form (by decide) sound, ?_⟩
  simp [reads, Stmt.bare]

/-- A conditional is read back with the branches that it has: their number tells. -/
theorem legible_cond (htest : test.IsLegible numbers) (hyes : yes.IsLegible numbers)
    {no : Option Stmt} (hno : ∀ s ∈ no, s.IsLegible numbers) :
    (Stmt.cond test yes no).IsLegible numbers := by
  cases no with
  | none =>
    refine ⟨Sexp.sound_form (by decide) (by simp [htest.sound, hyes.sound]), ?_⟩
    simp [htest.reads, hyes.reads, Stmt.bare]
  | some no =>
    have hno := hno no rfl
    refine ⟨Sexp.sound_form (by decide) (by simp [htest.sound, hyes.sound, hno.sound]), ?_⟩
    simp [htest.reads, hyes.reads, hno.reads, Stmt.bare]

theorem legible_loop (htest : test.IsLegible numbers) (h : s.IsLegible numbers) :
    (Stmt.loop test s).IsLegible numbers where
  sound := Sexp.sound_form (by decide) (by simp [htest.sound, h.sound])
  reads := by simp [htest.reads, h.reads, Stmt.bare]

/-- A return is read back with its value, if it has one. -/
theorem legible_ret (keyword : t.bare = .ofWord "return") {value : Option Expr}
    (h : ∀ e ∈ value, e.IsLegible numbers) : (Stmt.ret t value).IsLegible numbers := by
  cases value with
  | none =>
    refine ⟨Sexp.sound_form (by decide) nofun, ?_⟩
    simp [Stmt.bare, keyword]
  | some value =>
    have h := h value rfl
    refine ⟨Sexp.sound_form (by decide) (by simp [h.sound]), ?_⟩
    simp [h.reads, Stmt.bare, keyword]

theorem legible_function (name : t.IsLegible) (names : ∀ t ∈ params, t.IsLegible)
    (h : ∀ s ∈ body, s.IsLegible numbers) :
    (⟨t, params, body⟩ : Function).IsLegible numbers := by
  obtain ⟨sound, reads⟩ := Stmt.legible_sexps h
  refine ⟨Sexp.sound_form (by decide) (List.forall_mem_cons.mpr ⟨name.atom.sound,
    List.forall_mem_cons.mpr ⟨Sexp.sound_names names, sound⟩⟩), ?_⟩
  simp [bare_names names, reads, Function.bare, name.bare]

theorem legible_declaration {decl : Function} (h : decl.IsLegible numbers) :
    (Stmt.function decl).IsLegible numbers where
  sound := h.sound
  reads := by
    obtain ⟨_, _, _⟩ := decl
    have reads := h.reads
    simp only [Function.sexp, Sexp.function_form, List.map_cons] at reads
    simp only [Stmt.sexp, Function.sexp, Sexp.stmt_form, List.map_cons, Stmt.ofForm, reads,
      Stmt.bare]
    rfl

/-- A class is read back with its superclass and its methods: the superclass is marked by a sign. -/
theorem legible_class (name : t.IsLegible) {superclass : Option Reference}
    (hsuper : ∀ ref ∈ superclass, ref.name.IsLegible ∧ ref.hops = none)
    (h : ∀ f ∈ methods, f.IsLegible numbers) :
    (Stmt.classDecl t superclass methods).IsLegible numbers := by
  obtain ⟨sound, reads⟩ := Function.legible_sexps h
  cases superclass with
  | none =>
    have noMarker : ((Function.sexps methods).map (Sexp.read numbers)).head?.bind (·.word) ≠
        some "<" := by
      cases methods with
      | nil => nofun
      | cons f rest =>
        obtain ⟨_, _, _⟩ := f
        simp
    refine ⟨Sexp.sound_form (by decide) (List.forall_mem_cons.mpr ⟨name.atom.sound, sound⟩), ?_⟩
    have whole : Stmt.ofClass t.lexeme ((Function.sexps methods).map (Sexp.read numbers)) =
        some (.classDecl (.ofWord t.lexeme) none (Function.bares methods)) := by
      rw [Stmt.ofClass, if_neg noMarker, reads]
      rfl
    simp [whole, Stmt.bare, name.bare]
  | some ref =>
    obtain ⟨hname, hops⟩ := hsuper ref rfl
    have marker : (Sexp.atom "<").Sound := Sexp.IsAtom.sound (by decide)
    refine ⟨Sexp.sound_form (by decide) ?_, ?_⟩
    · simp only [List.forall_mem_cons]
      exact ⟨name.atom.sound, marker, hname.atom.sound, sound⟩
    · simp [Stmt.ofClass, reads, Stmt.bare, name.bare, Reference.bare, Reference.ofWord,
        hname.bare, hops]

end Statements

/-! ### Programs -/

/-- A legible statement is no gap, so its line is its own text. -/
theorem Stmt.sexprLine_eq {s : Stmt} (h : s.IsLegible numbers) : s.sexprLine = s.sexpr := by
  cases s with
  | gap =>
    obtain ⟨nonempty, -⟩ | _ := h.sound
    exact absurd rfl nonempty
  | _ => rfl

theorem Stmt.map_sexprLine {body : List Stmt} (h : ∀ s ∈ body, s.IsLegible numbers) :
    body.map Stmt.sexprLine = Stmt.sexprs body := by
  induction body with
  | nil => rfl
  | cons s rest ih =>
    obtain ⟨first, more⟩ := List.forall_mem_cons.mp h
    rw [List.map_cons, sexprLine_eq first, ih more, sexprs]

/-- The text of a program is that of its statements, each on a line of its own. -/
theorem Program.spread_sexpr {s : Stmt} {rest : List Stmt}
    (h : ∀ s' ∈ s :: rest, s'.IsLegible numbers) :
    Sexp.spread '\n' (Stmt.sexps (s :: rest)) = '\n' :: (Program.sexpr ⟨s :: rest⟩).toList := by
  rw [Program.sexpr, Stmt.map_sexprLine h, Stmt.sexprs,
    ← Sexp.chars_intercalate rfl s.chars_sexp (Stmt.chars_sexps rest)]
  rfl

/-- A program with a statement has a text that is not empty. -/
theorem Program.sexpr_ne_empty {s : Stmt} {rest : List Stmt}
    (h : ∀ s' ∈ s :: rest, s'.IsLegible numbers) : Program.sexpr ⟨s :: rest⟩ ≠ "" := by
  intro empty
  have text := spread_sexpr h
  obtain ⟨c, tail, starts, -⟩ := (h s List.mem_cons_self).sound.head
  rw [empty, Stmt.sexps, Sexp.spread, List.flatMap_cons, starts] at text
  cases (List.cons.inj text).2

/-- Programs that are read back from the same text are the same. -/
theorem Program.bare_eq_of_isLegible {p q : Program} (hp : ∀ s ∈ p.body, s.IsLegible numbers)
    (hq : ∀ s ∈ q.body, s.IsLegible numbers) (h : p.sexpr = q.sexpr) : p.bare = q.bare := by
  obtain ⟨body⟩ := p
  obtain ⟨body'⟩ := q
  obtain ⟨sound, reads⟩ := Stmt.legible_sexps hp
  obtain ⟨sound', reads'⟩ := Stmt.legible_sexps hq
  have same : Stmt.sexps body = Stmt.sexps body' := by
    cases body with
    | nil =>
      cases body' with
      | nil => rfl
      | cons => exact absurd h.symm (Program.sexpr_ne_empty hq)
    | cons s rest =>
      cases body' with
      | nil => exact absurd h (Program.sexpr_ne_empty hp)
      | cons s' rest' =>
        have lines : Sexp.spread '\n' (Stmt.sexps (s :: rest)) ++ [] =
            Sexp.spread '\n' (Stmt.sexps (s' :: rest')) ++ [] := by
          rw [spread_sexpr hp, spread_sexpr hq, h]
        have ended : Sexp.Ended [] := by simp [Sexp.Ended]
        have done : ([] : List Char).head? ≠ some '\n' := by simp
        exact (Sexp.spread_append_inj rfl (fun item mem => (sound item mem).readable) sound' ended
          ended done done lines).1
  rw [same] at reads
  exact congrArg Program.mk (Option.some.inj (reads.symm.trans reads'))

end Lox
