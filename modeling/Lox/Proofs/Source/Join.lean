import Lox.Proofs.Lines.Tree
import Lox.Proofs.Source.Stand

/-!
Texts one below the other. A line end after a text without faults ends its last piece, be it a
comment, a word or a number, and the text below is cut as if it stood alone, so many lines further
down.
-/

namespace Lox.Source

variable {text : List Char}

theorem texts_cons (p : Piece) (ps : List Piece) : texts (p :: ps) = p.text ++ texts ps := rfl

theorem texts_cut (text : List Char) : texts (cut text) = text := by
  induction text using cut.induct with
  | case1 =>
    rw [cut_nil]
    rfl
  | case2 c rest first ih =>
    obtain ⟨tail, piece, whole⟩ := covers_cutFirst c rest
    rw [cut_cons, texts_cons, ih, piece, List.cons_append, whole]

end Lox.Source
