import Lox.Proofs.Grammar.Complete
import Lox.Proofs.Grammar.Reading
import Lox.Proofs.Grammar.Sound

/-!
The parser accepts exactly the programs of the grammar. Soundness gives a derivation of what was
read, and the loop over declarations has rounds enough to read everything; completeness gives the
other direction.
-/

namespace Lox.Grammar

open Lox.Grammar.Parser

/-- With rounds to spare, the loop over declarations ends only at the end. -/
theorem topLevel_loop_rest {n : Nat} {rounds : List Token} {body body' : List Stmt}
    {c c' : Cursor} (run : iterate (topStep n) rounds body c = .ok body' c')
    (clean : c'.errors = []) (spare : c.rest.length < rounds.length) : c'.rest = [] := by
  induction rounds generalizing body c with
  | nil => simp at spare
  | cons r rounds ih =>
    obtain ⟨o, c₁, step, next⟩ := bind_ok.mp run
    cases o with
    | none =>
      obtain ⟨rfl, rfl⟩ := pure_ok.mp next
      obtain ⟨u, rfl, -, ended⟩ := sound_topStep n body _ _ _ step clean
      exact ended
    | some body₁ =>
      -- No error is on record after the first declaration, since none is at the end.
      have clean₁ : c₁.errors = [] := by
        have sound := sound_iterate (fun _ _ _ => True) ?_ (by simp) rounds _ _ _ _ next clean
        · obtain ⟨w, rfl, -⟩ := sound
          exact clean
        · intro a c o c' run clean
          obtain ⟨u, hc, hu⟩ := sound_topStep n a c o c' run clean
          refine ⟨u, hc, ?_⟩
          cases o with
          | none => exact hu.1
          | some b => simp
      obtain ⟨u, rfl, s, rfl, hs⟩ := sound_topStep n body _ _ _ step clean₁
      have pos := hs.starting.length_pos
      simp only [Cursor.before_rest, List.length_append, List.length_cons] at spare
      exact ih next (by omega)

/-- What was read without an error is the whole text. -/
theorem topLevel_ok {n : Nat} {c c' : Cursor} {body : List Stmt}
    (run : topLevel n c = .ok body c') (clean : c'.errors = []) :
    Derivation .declarations c.rest body := by
  obtain ⟨u, rfl, hu⟩ := sound_topLevel n _ _ _ run clean
  obtain ⟨reversed, c₁, loop, run₁⟩ := bind_ok.mp run
  obtain ⟨-, rfl⟩ := pure_ok.mp run₁
  have ended : c₁.rest = [] := topLevel_loop_rest loop clean (by simp)
  rwa [Cursor.before_rest, ended, List.append_nil]

section Parse

variable {u : List Token} {e : Token}

/-- The tokens up to the end of a text are those before its only end. -/
theorem ofTokens_append_eof (inner : ∀ t ∈ u, t.kind ≠ .eof) (he : e.kind = .eof) :
    Cursor.ofTokens (u ++ [e]) = { rest := u, eof := e } := by
  have rest : (u ++ [e]).takeWhile (·.kind ≠ .eof) = u := by
    rw [List.takeWhile_append_of_pos (by simpa using inner)]
    simp [he]
  have eof : (u ++ [e]).find? (·.kind = .eof) = some e := by
    rw [List.find?_append, List.find?_eq_none.mpr (by simpa using inner)]
    simp [he]
  rw [Cursor.ofTokens, rest, eof]
  rfl

/-- A text with a derivation parses to its tree, without error. -/
theorem Derivation.parse_eq {body : List Stmt} (h : Derivation .declarations u body)
    (inner : ∀ t ∈ u, t.kind ≠ .eof) (he : e.kind = .eof) :
    parse (u ++ [e]) = { program := ⟨body⟩, errors := [] } := by
  have depth : 3 * u.length ≤ depthFor (u ++ [e]) := by
    rw [depthFor, List.length_append]
    omega
  have run := h.reads_topLevel depth { rest := [], eof := e } rfl
  rw [Cursor.before, List.append_nil] at run
  rw [parse, ofTokens_append_eof inner he, run]

/-- A text that parses without error has its tree for a derivation. -/
theorem derivation_of_parse (inner : ∀ t ∈ u, t.kind ≠ .eof) (he : e.kind = .eof)
    (h : (parse (u ++ [e])).errors = []) :
    Derivation .declarations u (parse (u ++ [e])).program.body := by
  rw [parse, ofTokens_append_eof inner he] at h ⊢
  cases run : topLevel (depthFor (u ++ [e])) { rest := u, eof := e } with
  | ok body c =>
    rw [run] at h
    exact topLevel_ok run h
  | error err c =>
    rw [run] at h
    simp at h

end Parse

/-- The parser accepts exactly its grammar: where a list of tokens has its only end in the last
place, no error is reported if and only if the list is a program. -/
theorem parse_accepts_iff_derives (tokens : List Token)
    (ends : tokens.getLast?.map Token.kind = some .eof)
    (only : ∀ t ∈ tokens.dropLast, t.kind ≠ .eof) :
    (parse tokens).errors = [] ↔ Derives Symbol.program tokens := by
  obtain ⟨e, he, hk⟩ := Option.map_eq_some_iff.mp ends
  obtain ⟨u, rfl⟩ := List.getLast?_eq_some_iff.mp he
  rw [List.dropLast_concat] at only
  rw [derives_program_iff]
  constructor
  · intro h
    exact ⟨u, e, rfl, ⟨_, derivation_of_parse only hk h⟩, hk⟩
  · rintro ⟨v, t, heq, ⟨body, hbody⟩, -⟩
    obtain ⟨rfl, rfl⟩ := List.append_inj' heq rfl |>.imp id List.cons.inj |>.imp id And.left
    rw [hbody.parse_eq only hk]

/-- Tokens of the kinds, spelled as their kinds are named. -/
def ofKinds (kinds : List Token.Kind) : List Token :=
  kinds.map fun kind => { kind, lexeme := kind.name, line := 1 }

/-- An `else` after two `if`s is in the grammar, an assignment to a literal is not. -/
theorem parse_accepts_iff_derives_else :
    Derives Symbol.program (ofKinds [.ifKw, .leftParen, .nilKw, .rightParen, .ifKw, .leftParen,
        .nilKw, .rightParen, .returnKw, .semicolon, .elseKw, .returnKw, .semicolon, .eof]) ∧
      ¬ Derives Symbol.program (ofKinds [.nilKw, .equal, .nilKw, .semicolon, .eof]) := by
  constructor
  · exact (parse_accepts_iff_derives _ rfl (by decide)).mp rfl
  · rw [← parse_accepts_iff_derives _ rfl (by decide)]
    exact List.ne_nil_of_length_pos (by decide)

end Lox.Grammar
