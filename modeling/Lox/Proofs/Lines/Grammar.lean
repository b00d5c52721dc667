import Lox.Proofs.Grammar.Derivation
import Lox.Proofs.Lines.Tree

/-!
Parsing on other lines. Which tokens are read as which tree does not depend on their lines: the
tokens that are moved are read as the tree that is moved.
-/

namespace Lox.Grammar

/-- What is read, on other lines. -/
def moveTree (φ : Nat → Nat) : (c : Category) → c.Tree → c.Tree
  | .expression | .level _ => Expr.move φ
  | .chain _ | .suffixes => Prod.map (Expr.move φ) (Expr.move φ)
  | .arguments | .moreArguments => Expr.moveAll φ
  | .params | .moreParams => List.map (Token.move φ)
  | .optional => Option.map (Expr.move φ)
  | .varRest | .statement _ | .declaration => Stmt.move φ
  | .forInit => Option.map (Stmt.move φ)
  | .declarations => Stmt.moveAll φ
  | .function => Function.move φ
  | .methods => Function.moveAll φ
  | .superclass => Option.map (Reference.move φ)

variable {φ : Nat → Nat}

/-- Atoms are told by their kinds, so they may stand on any line. -/
theorem Atom.move {t : Token} {e : Expr} (h : Atom t e) : Atom (t.move φ) (e.move φ) := by
  cases h with
  | falseKw kind => exact .falseKw kind
  | trueKw kind => exact .trueKw kind
  | nilKw kind => exact .nilKw kind
  | number kind => exact .number (t := t.move φ) kind
  | string kind => exact .string (t := t.move φ) kind
  | thisKw kind => exact .thisKw (t := t.move φ) kind
  | identifier kind => exact .identifier (t := t.move φ) kind

/-- An operator and its operands move together. -/
theorem join_move (l : Level) (op : Token) (a b : Expr) :
    (l.join op a b).move φ = l.join (op.move φ) (a.move φ) (b.move φ) := by
  cases l <;> rfl

/-- A loop over a variable stands for the same loop on other lines. -/
theorem desugarFor_move (init : Option Stmt) (test step : Option Expr) (body : Stmt) :
    (desugarFor init test step body).move φ =
      desugarFor (init.map (Stmt.move φ)) (test.map (Expr.move φ)) (step.map (Expr.move φ))
        (body.move φ) := by
  cases init <;> cases test <;> cases step <;> rfl

/-- What derives from tokens derives from them on other lines, moved. By induction on the
derivation. -/
theorem Derivation.move {c : Category} {u : List Token} {a : c.Tree} (h : Derivation c u a) :
    Derivation c (u.map (Token.move φ)) (moveTree φ c a) := by
  induction h with
  | assign ht hq _ ih => exact .assign ht hq ih
  | set _ hd ht hq _ ihu ihv =>
    rw [List.map_append]
    exact .set ihu hd ht hq ihv
  | value _ ih => exact .value ih
  | operand nonempty _ _ ihu ihw =>
    rw [List.map_append]
    exact .operand nonempty ihu ihw
  | chainEnd => exact .chainEnd
  | @chainStep l op v w a b e hop _ _ ihv ihw =>
    have more : Derivation (.chain l) (w.map (Token.move φ))
        (l.join (op.move φ) (a.move φ) (b.move φ), e.move φ) := by
      rw [← join_move]
      exact ihw
    rw [List.map_cons, List.map_append]
    exact .chainStep hop ihv more
  | unary hop _ ih => exact .unary hop ih
  | plain _ ih => exact .plain ih
  | callee _ _ ihu ihw =>
    rw [List.map_append]
    exact .callee ihu ihw
  | suffixEnd => exact .suffixEnd
  | call hp _ hq _ ihv ihw =>
    rw [List.map_cons, List.map_append, List.map_cons]
    exact .call hp ihv hq ihw
  | get hd ht _ ih => exact .get hd ht ih
  | atom ha => exact .atom ha.move
  | «super» hs hd ht => exact .super hs hd ht
  | group hp _ hq ih =>
    rw [List.map_cons, List.map_append]
    exact .group hp ih hq
  | lambda hf hp _ hq hb _ hd ihu ihv =>
    rw [List.map_cons, List.map_cons, List.map_append, List.map_cons, List.map_cons,
      List.map_append]
    exact .lambda hf hp ihu hq hb ihv hd
  | noArguments => exact .noArguments
  | arguments _ _ ihu ihw =>
    rw [List.map_append]
    exact .arguments ihu ihw
  | argumentsEnd => exact .argumentsEnd
  | argument hk _ _ ihu ihw =>
    rw [List.map_cons, List.map_append]
    exact .argument hk ihu ihw
  | noParams => exact .noParams
  | params ht _ ih => exact .params ht ih
  | paramsEnd => exact .paramsEnd
  | param hk ht _ ih => exact .param hk ht ih
  | noExpression => exact .noExpression
  | someExpression _ ih => exact .someExpression ih
  | varNone ht hk => exact .varNone ht hk
  | varSome ht hq _ hk ih =>
    rw [List.map_cons, List.map_cons, List.map_append]
    exact .varSome ht hq ih hk
  | noInit hk => exact .noInit hk
  | varInit hv _ ih => exact .varInit hv ih
  | exprInit _ hk ih =>
    rw [List.map_append]
    exact .exprInit ih hk
  | expr _ hk ih =>
    rw [List.map_append]
    exact .expr ih hk
  | print hp _ hk ih =>
    rw [List.map_cons, List.map_append]
    exact .print hp ih hk
  | @ret _ _ _ value hr _ hk ih =>
    rw [List.map_cons, List.map_append]
    cases value <;> exact .ret hr ih hk
  | block hb _ hd ih =>
    rw [List.map_cons, List.map_append]
    exact .block hb ih hd
  | loop hw hp _ hq _ ihu ihv =>
    rw [List.map_cons, List.map_cons, List.map_append, List.map_cons]
    exact .loop hw hp ihu hq ihv
  | cond hi hp _ hq _ ihu ihv =>
    rw [List.map_cons, List.map_cons, List.map_append, List.map_cons]
    exact .cond hi hp ihu hq ihv
  | condElse hi hp _ hq _ hl _ ihu ihv ihw =>
    rw [List.map_cons, List.map_cons, List.map_append, List.map_cons, List.map_append,
      List.map_cons]
    exact .condElse hi hp ihu hq ihv hl ihw
  | @forLoop f p k q _ _ _ _ init test step body isOpen hf hp _ _ hk _ hq _ ihu ihv ihw ihx =>
    rw [List.map_cons, List.map_cons, List.map_append, List.map_append, List.map_cons,
      List.map_append, List.map_cons]
    change Derivation (.statement isOpen) _ ((desugarFor init test step body).move φ)
    rw [desugarFor_move]
    exact .forLoop hf hp ihu ihv hk ihw hq ihx
  | statement _ ih => exact .statement ih
  | var hv _ ih => exact .var hv ih
  | «fun» hf _ ih => exact .fun hf ih
  | classDecl hc ht _ hb _ hd ihu ihv =>
    rw [List.map_cons, List.map_cons, List.map_append, List.map_cons, List.map_append]
    exact .classDecl hc ht ihu hb ihv hd
  | noDeclarations => exact .noDeclarations
  | declarations _ _ ihu ihv =>
    rw [List.map_append]
    exact .declarations ihu ihv
  | function ht hp _ hq hb _ hd ihu ihv =>
    rw [List.map_cons, List.map_cons, List.map_append, List.map_cons, List.map_cons,
      List.map_append]
    exact .function ht hp ihu hq hb ihv hd
  | noMethods => exact .noMethods
  | methods _ _ ihu ihv =>
    rw [List.map_append]
    exact .methods ihu ihv
  | noSuperclass => exact .noSuperclass
  | someSuperclass hk ht => exact .someSuperclass hk ht

end Lox.Grammar
