import Lox.Proofs.Scope.Walk
import Lox.Proofs.Syntax.RoundTrip
import Lox.Session

/-!
What can be done to a session, and what is known of a program that a session runs.
-/

namespace Lox

open Scope Source

/-- What is done to a session. -/
inductive Action where
  | lend (native : Native)
  | run (source : String)

namespace Session

def act (s : Session) : Action → Session
  | .lend native => s.lend native
  | .run source => (s.run source).1

def after (s : Session) (actions : List Action) : Session := actions.foldl act s

end Session

/-! ### Programs that pass all checks -/

/-- A token of a piece is spelled as its kind is. -/
theorem spelled_of_token? {p : Piece} (sound : p.Sound) {line : Nat} {t : Token}
    (h : p.token? line = some t) : t.Spelled := by
  have scanned := scannedFrom_of_token? sound h
  have keyword {k : Token.Kind} (hk : k ∈ Token.Kind.keywords) (kind : t.kind = k) :
      t.lexeme = k.name := by
    rw [← kind] at hk ⊢
    exact (scanned.fixed (List.mem_append_right _ hk)).1
  exact ⟨fun kind => (scanned.name kind).2.1, keyword (by decide), keyword (by decide)⟩

/-- The tokens of a text are spelled as their kinds are. -/
theorem spelled_of_mem_tokensAt {text : List Char} {line : Nat} {t : Token}
    (h : t ∈ tokensAt line (cut text)) : t.Spelled := by
  obtain ⟨p, hp, line', token⟩ := mem_tokensAt h
  exact spelled_of_token? (sound_of_mem_cut hp) token

/-- A text passes all checks if and only if it parses and nothing is wrong with its names. -/
theorem validate_eq_ok_iff {source : String} {p : Program} :
    validate source = .ok p ↔ ∃ q, Grammar.parseSource source = .ok q ∧
      (resolve q).errors = [] ∧ (resolve q).program = p := by
  unfold validate check
  cases Grammar.parseSource source with
  | error e => simp
  | ok q =>
    dsimp only
    split
    · next clean => simpa using fun _ => List.isEmpty_iff.mp clean
    · next faulty => simpa using fun clean => absurd (List.isEmpty_iff.mpr clean) faulty

/-- A program that is parsed has names where names stand. -/
theorem shaped_of_parseSource {source : String} {p : Program}
    (accepted : Grammar.parseSource source = .ok p) : Stmt.AllShaped p.body := by
  obtain ⟨-, derivation⟩ := Grammar.parseSource_eq_ok_iff.mp accepted
  exact derivation.hasShape fun t ht => spelled_of_mem_tokensAt ht

/-- The program of a text that passes all checks has its names addressed. -/
theorem addressed_of_validate {source : String} {p : Program} (h : validate source = .ok p)
    (π : Place) : Stmt.AllAddressed {} π 0 p.body := by
  obtain ⟨q, accepted, clean, rfl⟩ := validate_eq_ok_iff.mp h
  exact addressed_resolve (shaped_of_parseSource accepted) clean π

end Lox
