import Lox.Proofs.Grammar.Derivation

/-!
The shape of a parsed program: it has no gaps, a branch and the body of a loop declare nothing,
since they are statements and not declarations, an operator has as many operands as it takes, and a
name is not spelled like a keyword.
-/

namespace Lox

/-- The token is spelled like a name and not like a keyword. -/
def Token.IsName (t : Token) : Prop := Token.Kind.ofWord t.lexeme = .identifier

/-- A name is no keyword. -/
theorem Token.IsName.ne {t : Token} (h : t.IsName) {word : String}
    (keyword : Kind.ofWord word ≠ .identifier) : t.lexeme ≠ word := by
  rintro rfl
  exact keyword h

theorem Token.IsName.ne_this {t : Token} (h : t.IsName) : t.lexeme ≠ "this" :=
  h.ne (by decide)

theorem Token.IsName.ne_super {t : Token} (h : t.IsName) : t.lexeme ≠ "super" :=
  h.ne (by decide)

/-- The spelling of the token goes with its kind. -/
structure Token.Spelled (t : Token) : Prop where
  name : t.kind = .identifier → t.IsName
  this : t.kind = .thisKw → t.lexeme = "this"
  super : t.kind = .superKw → t.lexeme = "super"

/-- The token is an operator in front of one operand. -/
def Token.IsUnary (t : Token) : Prop := t.kind ∈ [Token.Kind.bang, .minus]

/-- The token is an operator between two operands that are both evaluated. -/
def Token.IsBinary (t : Token) : Prop :=
  t.kind ∈ [Token.Kind.bangEqual, .equalEqual, .greater, .greaterEqual, .less, .lessEqual, .minus,
    .plus, .slash, .star]

def Stmt.isDeclaration : Stmt → Bool
  | .var .. | .function _ | .classDecl .. => true
  | _ => false

mutual

/-- Nothing is missing, no branch and no body of a loop is a declaration, and names are told from
keywords. -/
def Expr.Shaped : Expr → Prop
  | .number _ | .string _ | .bool _ | .nil => True
  | .gap => False
  | .variable ref => ref.name.IsName
  | .this ref => ref.name.lexeme = "this"
  | .super ref _ => ref.name.lexeme = "super"
  | .assign ref value => ref.name.IsName ∧ value.Shaped
  | .unary op operand => op.IsUnary ∧ operand.Shaped
  | .binary op left right => op.IsBinary ∧ left.Shaped ∧ right.Shaped
  | .logical _ left right => left.Shaped ∧ right.Shaped
  | .group inner => inner.Shaped
  | .call callee _ args => callee.Shaped ∧ Expr.AllShaped args
  | .get object _ => object.Shaped
  | .set object _ value => object.Shaped ∧ value.Shaped
  | .lambda _ params body => (∀ t ∈ params, t.IsName) ∧ Stmt.AllShaped body

def Expr.AllShaped : List Expr → Prop
  | [] => True
  | e :: rest => e.Shaped ∧ Expr.AllShaped rest

def Stmt.Shaped : Stmt → Prop
  | .expr e | .print e => e.Shaped
  | .ret _ none => True
  | .gap => False
  | .var name none => name.IsName
  | .var name (some init) => name.IsName ∧ init.Shaped
  | .block body => Stmt.AllShaped body
  | .cond test yes none => test.Shaped ∧ yes.Shaped ∧ yes.isDeclaration = false
  | .cond test yes (some no) =>
    test.Shaped ∧ (yes.Shaped ∧ yes.isDeclaration = false) ∧ no.Shaped ∧ no.isDeclaration = false
  | .loop test body => test.Shaped ∧ body.Shaped ∧ body.isDeclaration = false
  | .function decl => decl.name.IsName ∧ decl.Shaped
  | .ret _ (some value) => value.Shaped
  | .classDecl name superclass methods =>
    name.IsName ∧ (∀ ref ∈ superclass, ref.name.IsName) ∧ Function.AllShaped methods

def Stmt.AllShaped : List Stmt → Prop
  | [] => True
  | s :: rest => s.Shaped ∧ Stmt.AllShaped rest

def Function.Shaped : Function → Prop
  | ⟨_, params, body⟩ => (∀ t ∈ params, t.IsName) ∧ Stmt.AllShaped body

def Function.AllShaped : List Function → Prop
  | [] => True
  | f :: rest => f.Shaped ∧ Function.AllShaped rest

end

namespace Grammar

/-- What a category gives has the shape; what comes after a first part keeps it. -/
def HasShape : (c : Category) → c.Tree → Prop
  | .expression | .level _ => Expr.Shaped
  | .chain _ | .suffixes => fun pair : Expr × Expr => pair.1.Shaped → pair.2.Shaped
  | .arguments | .moreArguments => Expr.AllShaped
  | .params | .moreParams => fun params : List Token => ∀ t ∈ params, t.IsName
  | .superclass => fun o : Option Reference => ∀ ref ∈ o, ref.name.IsName
  | .optional => fun o : Option Expr => ∀ e ∈ o, e.Shaped
  | .varRest | .declaration => Stmt.Shaped
  | .forInit => fun o : Option Stmt => ∀ s ∈ o, s.Shaped
  | .statement _ => fun s : Stmt => s.Shaped ∧ s.isDeclaration = false
  | .declarations => Stmt.AllShaped
  | .function => fun f : Function => f.name.IsName ∧ f.Shaped
  | .methods => Function.AllShaped

/-- An operator between shaped operands is shaped. -/
theorem hasShape_join (l : Level) {op : Token} (hop : op.kind ∈ l.operators) {a b : Expr}
    (ha : a.Shaped) (hb : b.Shaped) : (l.join op a b).Shaped := by
  have binary : ∀ l : Level, l ≠ .disjunction → l ≠ .conjunction → ∀ k ∈ l.operators,
      k ∈ [Token.Kind.bangEqual, .equalEqual, .greater, .greaterEqual, .less, .lessEqual, .minus,
        .plus, .slash, .star] := by
    intro l
    cases l <;> decide
  cases l with
  | disjunction | conjunction => exact ⟨ha, hb⟩
  | _ => exact ⟨binary _ (by decide) (by decide) _ hop, ha, hb⟩

/-- What a loop over a variable stands for is shaped. -/
theorem hasShape_forLoop {init : Option Stmt} {test step : Option Expr} {body : Stmt}
    (hinit : ∀ s ∈ init, s.Shaped) (htest : ∀ e ∈ test, e.Shaped) (hstep : ∀ e ∈ step, e.Shaped)
    (hbody : body.Shaped ∧ body.isDeclaration = false) :
    (desugarFor init test step body).Shaped ∧
      (desugarFor init test step body).isDeclaration = false := by
  have condition : (test.getD (.bool true)).Shaped := by
    cases test with
    | none => trivial
    | some test => exact htest test rfl
  have rounds : ∀ s, s.Shaped ∧ s.isDeclaration = false →
      (desugarFor init test none s).Shaped ∧
        (desugarFor init test none s).isDeclaration = false := by
    intro s hs
    cases init with
    | none => exact ⟨⟨condition, hs⟩, rfl⟩
    | some init => exact ⟨⟨hinit init rfl, ⟨condition, hs⟩, trivial⟩, rfl⟩
  cases step with
  | none => exact rounds body hbody
  | some step => exact rounds _ ⟨⟨hbody.1, hstep step rfl, trivial⟩, rfl⟩

/-- What the grammar derives is shaped, by induction on the derivation. -/
theorem Derivation.hasShape {c : Category} {u : List Token} {a : c.Tree} (h : Derivation c u a)
    (spelled : ∀ t ∈ u, t.Spelled) : HasShape c a := by
  induction h with
  | assign ht _ _ ih =>
    simp only [List.forall_mem_cons] at spelled
    exact ⟨spelled.1.name ht, ih spelled.2.2⟩
  | set _ _ _ _ _ ihu ihv =>
    simp only [List.forall_mem_append, List.forall_mem_cons] at spelled
    exact ⟨ihu spelled.1, ihv spelled.2.2.2.2⟩
  | value _ ih | plain _ ih | statement _ ih => first | exact ih spelled | exact (ih spelled).1
  | operand _ _ _ ihu ihw | callee _ _ ihu ihw =>
    simp only [List.forall_mem_append] at spelled
    exact ihw spelled.2 (ihu spelled.1)
  | chainEnd | suffixEnd => exact id
  | chainStep hop _ _ ihv ihw =>
    simp only [List.forall_mem_append, List.forall_mem_cons] at spelled
    exact fun ha => ihw spelled.2.2 (hasShape_join _ hop ha (ihv spelled.2.1))
  | call _ _ _ _ ihv ihw =>
    simp only [List.forall_mem_append, List.forall_mem_cons] at spelled
    exact fun ha => ihw spelled.2.2.2 ⟨ha, ihv spelled.2.1⟩
  | get _ _ _ ih =>
    simp only [List.forall_mem_cons] at spelled
    exact ih spelled.2.2
  | unary hop _ ih =>
    simp only [List.forall_mem_cons] at spelled
    exact ⟨hop, ih spelled.2⟩
  | atom ha =>
    simp only [List.forall_mem_cons] at spelled
    cases ha with
    | thisKw kind => exact spelled.1.this kind
    | identifier kind => exact spelled.1.name kind
    | _ => trivial
  | super kind _ _ =>
    simp only [List.forall_mem_cons] at spelled
    exact spelled.1.super kind
  | group _ _ _ ih =>
    simp only [List.forall_mem_append, List.forall_mem_cons] at spelled
    exact ih spelled.2.1
  | lambda _ _ _ _ _ _ _ ihu ihv =>
    simp only [List.forall_mem_append, List.forall_mem_cons] at spelled
    exact ⟨ihu spelled.2.2.1, ihv spelled.2.2.2.2.2.1⟩
  | noArguments | argumentsEnd | noDeclarations | noMethods => trivial
  | noParams | paramsEnd | noExpression | noInit | noSuperclass => simp [HasShape]
  | someSuperclass _ ht =>
    simp only [List.forall_mem_cons] at spelled
    rintro _ ⟨⟩
    exact spelled.2.1.name ht
  | arguments _ _ ihu ihw | declarations _ _ ihu ihw =>
    simp only [List.forall_mem_append] at spelled
    exact ⟨ihu spelled.1, ihw spelled.2⟩
  | methods _ _ ihu ihw =>
    simp only [List.forall_mem_append] at spelled
    exact ⟨(ihu spelled.1).2, ihw spelled.2⟩
  | argument _ _ _ ihu ihw =>
    simp only [List.forall_mem_append, List.forall_mem_cons] at spelled
    exact ⟨ihu spelled.2.1, ihw spelled.2.2⟩
  | params ht _ ih =>
    simp only [List.forall_mem_cons] at spelled
    exact List.forall_mem_cons.mpr ⟨spelled.1.name ht, ih spelled.2⟩
  | param _ ht _ ih =>
    simp only [List.forall_mem_cons] at spelled
    exact List.forall_mem_cons.mpr ⟨spelled.2.1.name ht, ih spelled.2.2⟩
  | someExpression _ ih =>
    rintro _ ⟨⟩
    exact ih spelled
  | varInit _ _ ih =>
    simp only [List.forall_mem_cons] at spelled
    rintro _ ⟨⟩
    exact ih spelled.2
  | exprInit _ _ ih =>
    simp only [List.forall_mem_append] at spelled
    rintro _ ⟨⟩
    exact ih spelled.1
  | varNone ht _ =>
    simp only [List.forall_mem_cons] at spelled
    exact spelled.1.name ht
  | varSome ht _ _ _ ih =>
    simp only [List.forall_mem_append, List.forall_mem_cons] at spelled
    exact ⟨spelled.1.name ht, ih spelled.2.2.1⟩
  | expr _ _ ih =>
    simp only [List.forall_mem_append] at spelled
    exact ⟨ih spelled.1, rfl⟩
  | print _ _ _ ih | block _ _ _ ih =>
    simp only [List.forall_mem_append, List.forall_mem_cons] at spelled
    exact ⟨ih spelled.2.1, rfl⟩
  | @ret _ _ _ value _ _ _ ih =>
    simp only [List.forall_mem_append, List.forall_mem_cons] at spelled
    cases value with
    | none => exact ⟨trivial, rfl⟩
    | some value => exact ⟨ih spelled.2.1 value rfl, rfl⟩
  | loop _ _ _ _ _ ihu ihv | cond _ _ _ _ _ ihu ihv =>
    simp only [List.forall_mem_append, List.forall_mem_cons] at spelled
    exact ⟨⟨ihu spelled.2.2.1, ihv spelled.2.2.2.2⟩, rfl⟩
  | condElse _ _ _ _ _ _ _ ihu ihv ihw =>
    simp only [List.forall_mem_append, List.forall_mem_cons] at spelled
    exact ⟨⟨ihu spelled.2.2.1, ihv spelled.2.2.2.2.1, ihw spelled.2.2.2.2.2.2⟩, rfl⟩
  | forLoop _ _ _ _ _ _ _ _ ihu ihv ihw ihx =>
    simp only [List.forall_mem_append, List.forall_mem_cons] at spelled
    obtain ⟨-, -, su, sv, -, sw, -, sx⟩ := spelled
    exact hasShape_forLoop (ihu su) (ihv sv) (ihw sw) (ihx sx)
  | var _ _ ih =>
    simp only [List.forall_mem_cons] at spelled
    exact ih spelled.2
  | «fun» _ _ ih =>
    simp only [List.forall_mem_cons] at spelled
    exact ih spelled.2
  | classDecl _ ht _ _ _ _ ihu ihv =>
    simp only [List.forall_mem_append, List.forall_mem_cons] at spelled
    exact ⟨spelled.2.1.name ht, ihu spelled.2.2.1, ihv spelled.2.2.2.2.1⟩
  | function ht _ _ _ _ _ _ ihu ihv =>
    simp only [List.forall_mem_append, List.forall_mem_cons] at spelled
    exact ⟨spelled.1.name ht, ihu spelled.2.2.1, ihv spelled.2.2.2.2.2.1⟩

end Grammar

end Lox
