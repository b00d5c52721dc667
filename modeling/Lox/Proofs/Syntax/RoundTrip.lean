import Lox.Grammar.Source
import Lox.Proofs.Decimal.Positional
import Lox.Proofs.Grammar.Acceptance
import Lox.Proofs.Syntax.Print

/-!
Formatting is a right inverse of parsing: the text of a parsed program parses again, and to the same
program but for the lines of its tokens.
-/

namespace Lox.Grammar

open Lox.Source

/-- What is assumed of the names and numbers of a text: a name's normal form is a name in normal
form, and a number reads back from the way it is written. -/
structure Faithful (text : String) : Prop where
  words : ∀ w, .word w ∈ cut text.toList → NormalizesWord w
  numbers : ∀ x w, .number x w ∈ cut text.toList →
    Decimal.read? (treeNumber.number x).toList = some x

section Tokens

variable {text : String}

/-- The tokens of a faithful text are genuine. -/
theorem genuine_of_mem_tokensAt (h : Faithful text) {t : Token}
    (ht : t ∈ tokensAt 1 (cut text.toList)) : Genuine t := by
  obtain ⟨p, hp, line, token⟩ := mem_tokensAt ht
  refine genuine_of_token? (sound_of_mem_cut hp) ?_ ?_ token
  · rintro w rfl
    exact h.words w hp
  · rintro x w rfl
    exact ⟨Decimal.isNumeral_of_read? (sound_of_mem_cut hp), h.numbers x w hp⟩

theorem kind_ne_eof_of_mem_tokensAt {line : Nat} {t : Token}
    (ht : t ∈ tokensAt line (cut text.toList)) : t.kind ≠ .eof := by
  obtain ⟨p, hp, line', token⟩ := mem_tokensAt ht
  exact kind_ne_eof_of_token? (sound_of_mem_cut hp) token

/-- A text is accepted if and only if it has no fault and its tokens derive a program. -/
theorem parseSource_eq_ok_iff {p : Program} :
    parseSource text = .ok p ↔ (∀ piece ∈ cut text.toList, piece.error? 0 = none) ∧
      Derivation .declarations (tokensAt 1 (cut text.toList)) p.body := by
  have inner : ∀ t ∈ tokensAt 1 (cut text.toList), t.kind ≠ .eof := fun t =>
    kind_ne_eof_of_mem_tokensAt
  have tokens : (scan text).tokens = tokensAt 1 (cut text.toList) ++
      [.endAt (1 + lineEnds (texts (cut text.toList)))] := tokensFrom_eq 1 _
  have good : (scan text).errors = [] ↔ ∀ piece ∈ cut text.toList, piece.error? 0 = none :=
    errorsFrom_eq_nil_iff 1 _
  unfold parseSource
  dsimp only
  rw [← good, tokens]
  constructor
  · intro h
    split at h
    · next clean =>
      split at h
      · next accepted =>
        cases h
        exact ⟨List.isEmpty_iff.mp clean,
          derivation_of_parse inner rfl (List.isEmpty_iff.mp accepted)⟩
      · cases h
    · cases h
  · rintro ⟨clean, derivation⟩
    rw [clean, derivation.parse_eq inner rfl]
    rfl

end Tokens

/-- The text of a program whose declarations print scans to tokens of the same declarations. -/
theorem scans_format {p : Program} (h : Printed .declarations p.body) :
    Scans p.format Anything fun u =>
      ∃ body, Stmt.bares body = Stmt.bares p.body ∧ Derivation .declarations u body := by
  refine (scans_each _ fun s hs => ?_).mono fun u => derivation_declarations
  exact (h s hs 0).blankAfter (scans_newLine 0) (fun _ _ => trivial) trivial

/-- The text of a parsed program is accepted, and gives the program back but for the lines of its
tokens; it has the same tree in writing and the same text. -/
theorem parseSource_format {text : String} {p : Program} (accepted : parseSource text = .ok p)
    (faithful : Faithful text) :
    ∃ q, parseSource p.format = .ok q ∧ q.bare = p.bare ∧ q.sexpr = p.sexpr ∧
      q.format = p.format := by
  obtain ⟨-, derivation⟩ := parseSource_eq_ok_iff.mp accepted
  have printed := derivation.printed fun t => genuine_of_mem_tokensAt faithful
  have scans := scans_format printed
  obtain ⟨body, same, again⟩ := scans.tokens 1
  have bare : (⟨body⟩ : Program).bare = p.bare := congrArg Program.mk same
  refine ⟨⟨body⟩, parseSource_eq_ok_iff.mpr ⟨scans.good, again⟩, bare, ?_, ?_⟩
  · rw [← Program.sexpr_bare, bare, Program.sexpr_bare]
  · rw [← Program.format_bare, bare, Program.format_bare]

/-- An `else` after two `if`s, with names, a number and a string. -/
def danglingElse : String := "if (a) if (b) 1.50; else c = \"d\";"

theorem cut_danglingElse : cut danglingElse.toList =
    [.word ['i', 'f'], .blank ' ', .symbol .leftParen ['('], .word ['a'], .symbol .rightParen [')'],
      .blank ' ', .word ['i', 'f'], .blank ' ', .symbol .leftParen ['('], .word ['b'],
      .symbol .rightParen [')'], .blank ' ', .number 1.5 ['1', '.', '5', '0'],
      .symbol .semicolon [';'], .blank ' ', .word ['e', 'l', 's', 'e'], .blank ' ', .word ['c'],
      .blank ' ', .symbol .equal ['='], .blank ' ', .string ['"', 'd', '"'],
      .symbol .semicolon [';']] := by
  have text : danglingElse.toList =
      ['i', 'f', ' ', '(', 'a', ')', ' ', 'i', 'f', ' ', '(', 'b', ')', ' ', '1', '.', '5', '0',
        ';', ' ', 'e', 'l', 's', 'e', ' ', 'c', ' ', '=', ' ', '"', 'd', '"', ';'] := by
    decide +kernel
  have number : Decimal.read? ['1', '.', '5', '0'] = some 1.5 := by decide +kernel
  have numeral : IsNumeral ['1', '.', '5', '0'] :=
    ⟨['1'], ['.', '5', '0'], rfl, by decide, List.all_eq_true.mp rfl,
      .inr ⟨_, rfl, by decide, List.all_eq_true.mp rfl⟩⟩
  rw [text]
  iterate 12 refine cut_step rfl ?_
  refine (cut_number numeral number ?_).trans (congrArg _ ?_)
  · exact ⟨by decide, by simp⟩
  · iterate 10 refine cut_step rfl ?_
    exact cut_nil

theorem faithful_danglingElse : Faithful danglingElse := by
  have normal : ∀ w ∈ [['i', 'f'], ['a'], ['i', 'f'], ['b'], ['e', 'l', 's', 'e'], ['c']],
      IsWord (Text.normalize w) ∧ Text.normalize (Text.normalize w) = Text.normalize w := by
    decide +kernel
  have words : ∀ w ∈ [['i', 'f'], ['a'], ['i', 'f'], ['b'], ['e', 'l', 's', 'e'], ['c']],
      NormalizesWord w := fun w hw => ⟨(normal w hw).1, (normal w hw).2⟩
  have number : Decimal.read? (treeNumber.number 1.5).toList = some 1.5 := by decide +kernel
  constructor
  · rw [cut_danglingElse]
    simpa using words
  · rw [cut_danglingElse]
    simpa using number

theorem parseSource_format_danglingElse : ∃ p, parseSource danglingElse = .ok p ∧
    ∃ q, parseSource p.format = .ok q ∧ q.bare = p.bare ∧ q.sexpr = p.sexpr ∧
      q.format = p.format := by
  have accepted : ∃ p, parseSource danglingElse = .ok p := by
    unfold parseSource scan
    rw [cut_danglingElse]
    dsimp only
    rw [if_pos (by decide +kernel), if_pos (by decide +kernel)]
    exact ⟨_, rfl⟩
  obtain ⟨p, hp⟩ := accepted
  exact ⟨p, hp, parseSource_format hp faithful_danglingElse⟩

end Lox.Grammar
