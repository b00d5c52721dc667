import Lox.Proofs.Grammar.Acceptance
import Lox.Proofs.Grammar.Local

/-!
A statement that is wrong hides none of those behind its semicolon. Up to the semicolon a text is
parsed as if nothing came behind it, and from there on as if nothing came before.
-/

namespace Lox.Grammar

open Lox.Grammar.Parser

/-- No declaration starts with an `else`. -/
theorem Derivation.not_ahead_else {u : List Token} {body : List Stmt}
    (h : Derivation .declarations u body) : ¬ Ahead [.elseKw] u := by
  cases h with
  | noDeclarations => exact ahead_nil
  | declarations hu => exact hu.starting.not_ahead (by decide) _

/-- Behind a declaration, with or without a failure in it, the rest of the text is read. -/
theorem Derivation.parse_behind {u v : List Token} {e : Token} {es : List SyntaxError}
    {body : List Stmt} {o : Option Stmt} (h : Derivation .declarations v body)
    (inner : ∀ t ∈ u, t.kind ≠ .eof) (he : e.kind = .eof) (shorter : v.length < u.length)
    (run : declarationAt (depthFor (u ++ [e])) { rest := u, eof := e } =
      .ok o { rest := v, eof := e, errors := es }) :
    parse (u ++ [e]) = { program := ⟨o.toList ++ body⟩, errors := es } := by
  have depth : 3 * v.length ≤ depthFor (u ++ [e]) := by
    rw [depthFor, List.length_append]
    omega
  have more : ¬ u = [] := List.ne_nil_of_length_pos (Nat.zero_lt_of_lt shorter)
  have first : topStep (depthFor (u ++ [e])) [] { rest := u, eof := e } =
      .ok (some (o.toList ++ [])) { rest := v, eof := e, errors := es } := by
    refine bind_ok.mpr ⟨false, _, atEnd_ok.mpr ⟨?_, rfl⟩, bind_ok.mpr ⟨o, _, run, rfl⟩⟩
    exact iff_of_false Bool.false_ne_true more
  -- behind the first declaration the loop reads what derives
  have loop : iterate (topStep (depthFor (u ++ [e]))) u (o.toList ++ [])
      { rest := v ++ [], eof := e, errors := es } =
        .ok (body.reverse ++ (o.toList ++ [])) { rest := [], eof := e, errors := es } :=
    h.readable (depthFor (u ++ [e])) [] _ (o.toList ++ []) depth ahead_nil
      bodyStep_topLevel u shorter { rest := [], eof := e, errors := es } rfl
  rw [List.append_nil v] at loop
  have whole : repeatFrom (topStep (depthFor (u ++ [e]))) [] { rest := u, eof := e } =
      .ok (body.reverse ++ (o.toList ++ [])) { rest := [], eof := e, errors := es } :=
    bind_ok.mpr ⟨_, _, first, loop⟩
  have run : topLevel (depthFor (u ++ [e])) { rest := u, eof := e } =
      .ok (body.reverse ++ (o.toList ++ [])).reverse { rest := [], eof := e, errors := es } :=
    bind_ok.mpr ⟨_, _, whole, rfl⟩
  have reversed : (body.reverse ++ (o.toList ++ [])).reverse = o.toList ++ body := by
    rw [List.reverse_append, List.reverse_reverse, List.append_nil]
    cases o <;> rfl
  rw [parse, ofTokens_append_eof inner he, run, reversed]

section Parse

variable {b g : List Token} {semicolon e e₁ e₂ : Token}

/-- Where no end of a statement, no body and no keyword of a statement stands within `b`, the text
gives at most one statement up to the semicolon behind `b`, the one that `b` gives on its own. Then
come the statements that `g` gives on its own. All errors are those of `b` on its own, located at
its tokens or at the semicolon. -/
theorem parse_resumes
    (single : ∀ t ∈ b, t.kind ∉ [.eof, .semicolon, .leftBrace, .rightBrace, .forKw])
    (inner : ∀ t ∈ b.tail,
      t.kind ∉ [.classKw, .funKw, .varKw, .ifKw, .whileKw, .printKw, .returnKw])
    (ends : semicolon.kind = .semicolon) (endless : ∀ t ∈ g, t.kind ≠ .eof)
    (he : e.kind = .eof) (he₁ : e₁.kind = .eof) (he₂ : e₂.kind = .eof)
    (clean : (parse (g ++ [e₂])).errors = []) :
    let whole := parse (b ++ [semicolon] ++ g ++ [e])
    let first := parse (b ++ [semicolon] ++ [e₁])
    first.program.body.length ≤ 1 ∧
      whole.program.body = first.program.body ++ (parse (g ++ [e₂])).program.body ∧
      whole.errors = first.errors ∧ ∀ err ∈ whole.errors, err.token ∈ b ++ [semicolon] := by
  intro whole first
  have derivation := derivation_of_parse endless he₂ clean
  generalize (parse (g ++ [e₂])).program.body = body at derivation ⊢
  have plain : ∀ t ∈ b, t.kind ≠ .eof := fun t ht kind => single t ht (by rw [kind]; decide)
  -- the same tokens up to the semicolon, with two different texts behind it
  let site : Site :=
    { tokens := b, semicolon, left := ⟨g, e, [], derivation.not_ahead_else⟩,
      right := ⟨[], e₁, [], ahead_nil⟩, ends, single, inner }
  have inside : ∀ t ∈ b ++ [semicolon], t.kind ≠ .eof := by
    rw [List.forall_mem_append, List.forall_mem_singleton, ends]
    exact ⟨plain, by decide⟩
  have inside' : ∀ t ∈ b ++ [semicolon] ++ g, t.kind ≠ .eof :=
    List.forall_mem_append.mpr ⟨inside, endless⟩
  -- the first declaration ends at the semicolon in both, with the same errors
  obtain ⟨o, es, located, left, right⟩ := site.declaration_passes
    (depthFor (b ++ [semicolon] ++ g ++ [e])) (depthFor (b ++ [semicolon] ++ [e₁]))
    (by simp only [site, depthFor, List.length_append, List.length_singleton]; omega)
    (by simp only [site, depthFor, List.length_append, List.length_singleton]; omega)
  have hwhole : whole = ⟨⟨o.toList ++ body⟩, es⟩ :=
    derivation.parse_behind inside' he (by simp; omega) left
  have hfirst : first = ⟨⟨o.toList ++ []⟩, es⟩ := by
    have alone : site.rightAt site.tokens [] = { rest := b ++ [semicolon], eof := e₁ } := by
      simp [Site.rightAt, Tail.at, site]
    rw [alone] at right
    exact Derivation.noDeclarations.parse_behind inside he₁ (by simp) right
  rw [hwhole, hfirst, List.append_nil]
  refine ⟨?_, rfl, rfl, located⟩
  cases o with
  | none => exact Nat.zero_le 1
  | some s => exact Nat.le_refl 1

/-- A declaration without a name, and a statement behind it. -/
theorem parse_resumes_nameless :
    let end' := Token.endAt 1
    let bad := ofKinds [.varKw, .equal, .nilKw]
    let good := ofKinds [.printKw, .nilKw, .semicolon]
    let semicolon : Token := ⟨.semicolon, ";", .none, 1⟩
    (parse (good ++ [end'])).errors = [] ∧
      (parse (bad ++ [semicolon] ++ good ++ [end'])).program.body = [.print .nil] ∧
      (parse (bad ++ [semicolon] ++ good ++ [end'])).errors.map (·.token.kind) = [.equal] := by
  intro end' bad good semicolon
  obtain ⟨-, body, errors, -⟩ := @parse_resumes bad good semicolon end' end' end' (by decide)
    (by decide) rfl (by decide) rfl rfl rfl rfl
  rw [body, errors]
  exact ⟨rfl, rfl, rfl⟩

end Parse

end Lox.Grammar
