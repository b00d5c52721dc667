import Lox.Proofs.Syntax.Sexp
import Lox.Syntax.Sexpr

/-!
The parenthesised text of a tree is that of words, quoted texts and lists: the shape that the text
has is a tree of its own.
-/

namespace Lox

def Sexp.form (head : String) (parts : List Sexp) : Sexp := .list (.atom head :: parts)

def Sexp.names (params : List Token) : Sexp := .list (params.map (.atom ·.lexeme))

mutual

@[simp] def Expr.sexp : Expr → Sexp
  | .number x => .atom (treeNumber.number x)
  | .string s => .quoted s
  | .bool b => .atom (boolText b)
  | .nil => .atom "nil"
  | .variable ref => .atom ref.name.lexeme
  | .assign ref value => .form "=" [.atom ref.name.lexeme, value.sexp]
  | .unary op operand => .form op.lexeme [operand.sexp]
  | .binary op left right => .form op.lexeme [left.sexp, right.sexp]
  | .logical op left right => .form op.lexeme [left.sexp, right.sexp]
  | .group inner => .form "group" [inner.sexp]
  | .call callee _ args => .form "call" (callee.sexp :: Expr.sexps args)
  | .get object name => .form "." [object.sexp, .atom name.lexeme]
  | .set object name value => .form "set" [object.sexp, .atom name.lexeme, value.sexp]
  | .this _ => .atom "this"
  | .super _ method => .form "super" [.atom method.lexeme]
  | .lambda _ params body => .form "fun" (.names params :: Stmt.sexps body)
  | .gap => .atom ""

@[simp] def Expr.sexps : List Expr → List Sexp
  | [] => []
  | e :: rest => e.sexp :: Expr.sexps rest

@[simp] def Stmt.sexp : Stmt → Sexp
  | .expr e => .form ";" [e.sexp]
  | .print e => .form "print" [e.sexp]
  | .var name none => .form "var" [.atom name.lexeme]
  | .var name (some init) => .form "var" [.atom name.lexeme, init.sexp]
  | .block body => .form "block" (Stmt.sexps body)
  | .cond test yes none => .form "if" [test.sexp, yes.sexp]
  | .cond test yes (some no) => .form "if-else" [test.sexp, yes.sexp, no.sexp]
  | .loop test body => .form "while" [test.sexp, body.sexp]
  | .function decl => decl.sexp
  | .ret _ none => .form "return" []
  | .ret _ (some value) => .form "return" [value.sexp]
  | .classDecl name none methods =>
    .form "class" (.atom name.lexeme :: Function.sexps methods)
  | .classDecl name (some superclass) methods =>
    .form "class"
      (.atom name.lexeme :: .atom "<" :: .atom superclass.name.lexeme :: Function.sexps methods)
  | .gap => .atom ""

@[simp] def Stmt.sexps : List Stmt → List Sexp
  | [] => []
  | s :: rest => s.sexp :: Stmt.sexps rest

@[simp] def Function.sexp : Function → Sexp
  | ⟨name, params, body⟩ => .form "fun" (.atom name.lexeme :: .names params :: Stmt.sexps body)

@[simp] def Function.sexps : List Function → List Sexp
  | [] => []
  | f :: rest => f.sexp :: Function.sexps rest

end

namespace Sexp

variable {parts items : List Sexp} {texts : List String}

/-- The characters of a form are those of the text with brackets. -/
theorem chars_form {head : String} (h : parts.map chars = texts.map String.toList) :
    (form head parts).chars = (sexprForm head texts).toList := by
  have behind : spread ' ' parts = (String.join (texts.map (" " ++ ·))).toList := by
    calc spread ' ' parts
        = (parts.map chars).flatMap (' ' :: ·) := (List.flatMap_map ..).symm
      _ = texts.flatMap fun s => ' ' :: s.toList := by rw [h, List.flatMap_map]
      _ = (String.join (texts.map (" " ++ ·))).toList := by
          rw [String.toList_join, List.flatMap_map]
          simp
  rw [form, chars_cons, behind, sexprForm, chars]
  simp

/-- Texts with something between them are the first text and what is spread behind it. -/
theorem chars_intercalate {sep : String} {between : Char} (hsep : sep.toList = [between])
    {first : Sexp} {text : String} (h : first.chars = text.toList)
    (more : items.map chars = texts.map String.toList) :
    first.chars ++ spread between items = (sep.intercalate (text :: texts)).toList := by
  induction items generalizing first text texts with
  | nil =>
    obtain rfl : texts = [] := by simpa using more.symm
    rw [String.intercalate_singleton, h]
    exact List.append_nil _
  | cons item items ih =>
    obtain _ | ⟨text', texts⟩ := texts
    · cases more
    · obtain ⟨second, more⟩ := List.cons.inj more
      rw [String.intercalate_cons_cons, String.toList_append, String.toList_append, hsep,
        ← ih second more, h]
      simp [spread]

theorem chars_names (params : List Token) : (names params).chars = (sexprParams params).toList := by
  rw [names, sexprParams]
  cases params with
  | nil => rfl
  | cons t params =>
    have more : (params.map (Sexp.atom ·.lexeme)).map chars =
        (params.map Token.lexeme).map String.toList := by
      simp [chars]
    have inner := @chars_intercalate _ _ " " ' ' rfl (.atom t.lexeme) t.lexeme (by rw [chars]) more
    rw [List.map_cons, List.map_cons, chars_cons, ← List.append_assoc, inner]
    simp

end Sexp

mutual

/-- The text of a tree is that of its parenthesised form. -/
theorem Expr.chars_sexp : (e : Expr) → e.sexp.chars = e.sexpr.toList
  | .number _ | .bool _ | .nil | .variable _ | .this _ | .gap => by
    simp [Expr.sexpr, Sexp.chars]
  | .string _ => by simp [Expr.sexpr, Sexp.chars, stringText]
  | .assign _ value => Sexp.chars_form (by simp [Sexp.chars, value.chars_sexp])
  | .unary _ operand => Sexp.chars_form (by simp [operand.chars_sexp])
  | .binary _ left right | .logical _ left right =>
    Sexp.chars_form (by simp [left.chars_sexp, right.chars_sexp])
  | .group inner => Sexp.chars_form (by simp [inner.chars_sexp])
  | .call callee _ args =>
    Sexp.chars_form (by simp [callee.chars_sexp, Expr.chars_sexps args])
  | .get object _ => Sexp.chars_form (by simp [Sexp.chars, object.chars_sexp])
  | .set object _ value => Sexp.chars_form (by simp [Sexp.chars, object.chars_sexp, value.chars_sexp])
  | .super _ _ => Sexp.chars_form (by simp [Sexp.chars])
  | .lambda _ params body =>
    Sexp.chars_form (by simp [Sexp.chars_names, Stmt.chars_sexps body])

theorem Expr.chars_sexps : (es : List Expr) →
    (Expr.sexps es).map Sexp.chars = (Expr.sexprs es).map String.toList
  | [] => rfl
  | e :: rest => by simp [Expr.sexprs, e.chars_sexp, Expr.chars_sexps rest]

/-- The characters of the tree for a statement are those of its text. -/
theorem Stmt.chars_sexp : (s : Stmt) → s.sexp.chars = s.sexpr.toList
  | .expr e | .print e | .ret _ (some e) => Sexp.chars_form (by simp [e.chars_sexp])
  | .var _ none => Sexp.chars_form (by simp [Sexp.chars])
  | .var _ (some init) => Sexp.chars_form (by simp [Sexp.chars, init.chars_sexp])
  | .block body => Sexp.chars_form (Stmt.chars_sexps body)
  | .cond test yes none => Sexp.chars_form (by simp [test.chars_sexp, yes.chars_sexp])
  | .cond test yes (some no) =>
    Sexp.chars_form (by simp [test.chars_sexp, yes.chars_sexp, no.chars_sexp])
  | .loop test body => Sexp.chars_form (by simp [test.chars_sexp, body.chars_sexp])
  | .function decl => by
    rw [Stmt.sexpr]
    exact decl.chars_sexp
  | .ret _ none => Sexp.chars_form rfl
  | .classDecl _ none methods | .classDecl _ (some _) methods =>
    Sexp.chars_form (by simp [Sexp.chars, Function.chars_sexps methods])
  | .gap => by simp [Stmt.sexpr, Sexp.chars]

theorem Stmt.chars_sexps : (body : List Stmt) →
    (Stmt.sexps body).map Sexp.chars = (Stmt.sexprs body).map String.toList
  | [] => rfl
  | s :: rest => by simp [Stmt.sexprs, s.chars_sexp, Stmt.chars_sexps rest]

/-- The characters of the tree for a function are those of its text. -/
theorem Function.chars_sexp : (f : Function) → f.sexp.chars = f.sexpr.toList
  | ⟨_, params, body⟩ =>
    Sexp.chars_form (by simp [Sexp.chars, Sexp.chars_names, Stmt.chars_sexps body])

theorem Function.chars_sexps : (fs : List Function) →
    (Function.sexps fs).map Sexp.chars = (Function.sexprs fs).map String.toList
  | [] => rfl
  | f :: rest => by simp [Function.sexprs, f.chars_sexp, Function.chars_sexps rest]

end

end Lox
