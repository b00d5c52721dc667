import Lox.Proofs.Source.Join
import Lox.Proofs.Source.Spelling

/-!
Tokens do not depend on what is between them. The lexemes of a text without faults, written one
after the other with blanks and comments between them, are the lexemes of the same tokens.
-/

namespace Lox.Source

/-! ### Layouts -/

/-- Blanks and whole comments, each up to the end of its line. -/
inductive Spacing : List Char → Prop where
  | none : Spacing []
  | blank {c : Char} {rest : List Char} : isBlank c = true → Spacing rest → Spacing (c :: rest)
  | comment {body rest : List Char} : '\n' ∉ body → Spacing rest →
      Spacing ('/' :: '/' :: (body ++ '\n' :: rest))

/-- No lexeme goes on into the text: it is empty or starts with a blank. -/
def Apart (text : List Char) : Prop := ∀ c ∈ text.head?, isBlank c = true

/-- What may stand between two lexemes: spacing that starts with a blank. -/
inductive Separates : List Char → Prop where
  | blank {c : Char} {rest : List Char} : isBlank c = true → Spacing rest → Separates (c :: rest)

/-- Tokens, each with what stands behind its lexeme. -/
abbrev Layout := List (Token × List Char)

namespace Layout

/-- Between any two lexemes stands a separator; behind the last one may stand nothing. -/
def Spaced : Layout → Prop
  | [] => True
  | [(_, gap)] => gap = [] ∨ Separates gap
  | (_, gap) :: more => Separates gap ∧ Spaced more

/-- The text of the layout. -/
def text (laid : Layout) : List Char := laid.flatMap fun (t, gap) => t.lexeme.toList ++ gap

/-- The tokens on the lines on which their lexemes end when the layout starts on a line, and the end
of the text. -/
def tokens (line : Nat) : Layout → List Token
  | [] => [.endAt line]
  | (t, gap) :: more =>
    { t with line := line + lineEnds t.lexeme.toList } ::
      tokens (line + lineEnds (t.lexeme.toList ++ gap)) more

end Layout

theorem lineEnds_append (first second : List Char) :
    lineEnds (first ++ second) = lineEnds first + lineEnds second :=
  List.count_append

/-! ### What is between lexemes -/

/-- A comment reaches to the end of its line. -/
theorem cut_comment {body rest : List Char} (h : '\n' ∉ body) :
    cut ('/' :: '/' :: (body ++ '\n' :: rest)) =
      .comment ('/' :: '/' :: body) :: .blank '\n' :: cut rest := by
  have inside : ∀ d ∈ '/' :: body, decide (d ≠ '\n') = true := by
    refine List.forall_mem_cons.mpr ⟨rfl, fun d hd => decide_eq_true ?_⟩
    rintro rfl
    exact h hd
  have stop : ∀ d ∈ ('\n' :: rest).head?, decide (d ≠ '\n') = false := by simp
  obtain ⟨taken, dropped⟩ := takeWhile_append_stop inside stop
  have first : cutFirst '/' ('/' :: body ++ '\n' :: rest) =
      (.comment ('/' :: '/' :: body), '\n' :: rest) := by
    have second : ('/' :: body ++ '\n' :: rest).head? = some '/' := rfl
    refine (cutSlash_comment '/' second).trans ?_
    rw [taken, dropped]
  exact cut_step first (cut_blank rfl)

/-- Blanks and comments give neither tokens nor errors. -/
theorem Spacing.skip {gap : List Char} (h : Spacing gap) (line : Nat) (rest : List Char) :
    tokensFrom line (cut (gap ++ rest)) = tokensFrom (line + lineEnds gap) (cut rest) ∧
      errorsFrom line (cut (gap ++ rest)) = errorsFrom (line + lineEnds gap) (cut rest) := by
  induction h generalizing line with
  | none => exact ⟨rfl, rfl⟩
  | @blank c gap blank _ ih =>
    have lines : line + lineEnds (c :: gap) = line + lineEnds [c] + lineEnds gap := by
      rw [← List.singleton_append, lineEnds_append, Nat.add_assoc]
    rw [List.cons_append, cut_blank blank, lines]
    exact ih (line + lineEnds [c])
  | @comment body gap inside _ ih =>
    have lines : line + lineEnds ('/' :: '/' :: (body ++ '\n' :: gap)) =
        line + lineEnds ('/' :: '/' :: body) + lineEnds ['\n'] + lineEnds gap := by
      rw [Nat.add_assoc, Nat.add_assoc, ← lineEnds_append, ← lineEnds_append]
      rfl
    rw [List.cons_append, List.cons_append, List.append_assoc, List.cons_append,
      cut_comment inside, lines]
    exact ih (line + lineEnds ('/' :: '/' :: body) + lineEnds ['\n'])

/-! ### Lexemes on their own -/

theorem Apart.follows {text rest : List Char} (h : Apart rest) : Follows text rest := by
  cases rest with
  | nil => exact .none
  | cons c rest => exact .blank (h c rfl)

/-- A gap ends a word. -/
theorem Apart.stops {rest : List Char} (h : Apart rest) : Stops rest := by
  cases rest with
  | nil => trivial
  | cons c rest =>
    have blank := h c rfl
    refine stops_cons (not_isWordPart_of_isBlank blank) ?_
    rintro rfl
    cases blank

/-- In front of a blank or the end of the text a token's lexeme is cut as one piece, which gives the
token back. -/
structure Isolated (t : Token) (p : Piece) : Prop where
  text : p.text = t.lexeme.toList
  token : ∀ line, p.token? line = some { t with line }
  cut : ∀ rest, Apart rest → cut (t.lexeme.toList ++ rest) = p :: cut rest

/-- A piece with a token is cut from its own text as it was. -/
theorem cut_text_of_mem {text : List Char} {p : Piece} (h : p ∈ cut text) {line : Nat} {t : Token}
    (token : p.token? line = some t) {rest : List Char} (apart : Apart rest) :
    cut (p.text ++ rest) = p :: cut rest := by
  induction text using cut.induct with
  | case1 =>
    rw [cut_nil] at h
    cases h
  | case2 c more first ih =>
    rw [cut_cons] at h
    obtain rfl | h := List.mem_cons.mp h
    · refine cut_of_ends ?_
      cases hp : (cutFirst c more).1 with
      | comment | bad =>
        rw [hp] at token
        cases token
      | _ => exact apart.follows
    · exact ih h

/-- A word in normal form is cut off as itself. -/
theorem isolated_word {w : List Char} (word : IsWord w) (normal : Text.normalize w = w) (line : Nat) :
    Isolated { kind := .ofWord (String.ofList w), lexeme := String.ofList w, line } (.word w) := by
  refine ⟨String.toList_ofList.symm, fun line => ?_, fun rest apart => ?_⟩
  · rw [Piece.token?, wordLexeme, normal]
  · rw [String.toList_ofList]
    exact cut_word word apart.stops

theorem token?_relined {p : Piece} {line : Nat} {t : Token} (h : p.token? line = some t)
    (line' : Nat) : p.token? line' = some { t with line := line' } := by
  cases p <;> cases h <;> rfl

/-- Only a word has another lexeme than its text. -/
theorem lexeme_of_token? {p : Piece} {line : Nat} {t : Token} (h : p.token? line = some t)
    (other : ∀ w, p ≠ .word w) : t.lexeme = String.ofList p.text := by
  cases p with
  | word w => exact absurd rfl (other w)
  | _ => cases h <;> rfl

/-- Every token of a text is spelled by some text of its own. -/
theorem isolated_of_mem {text : List Char} (words : ∀ w, .word w ∈ cut text → NormalizesWord w)
    {line : Nat} {t : Token} (h : t ∈ tokensAt line (cut text)) : ∃ p, Isolated t p := by
  obtain ⟨p, hp, line', token⟩ := mem_tokensAt h
  by_cases word : ∃ w, p = .word w
  · obtain ⟨w, rfl⟩ := word
    cases token
    obtain ⟨word, idempotent⟩ := words w hp
    exact ⟨_, isolated_word word idempotent line'⟩
  · have lexeme : t.lexeme.toList = p.text := by
      rw [lexeme_of_token? token (not_exists.mp word), String.toList_ofList]
    refine ⟨p, lexeme.symm, token?_relined token, fun rest apart => ?_⟩
    rw [lexeme]
    exact cut_text_of_mem hp token apart

/-! ### All tokens -/

theorem Layout.Spaced.tail {t : Token} {gap : List Char} {more : Layout}
    (h : Spaced ((t, gap) :: more)) : Spaced more := by
  cases more with
  | nil => trivial
  | cons _ _ => exact h.2

/-- Behind each lexeme is a blank or the end of the text. -/
theorem Layout.Spaced.apart {t : Token} {gap : List Char} {more : Layout}
    (h : Spaced ((t, gap) :: more)) : Spacing gap ∧ Apart (gap ++ more.text) := by
  have separated (h : Separates gap) : Spacing gap ∧ Apart (gap ++ more.text) := by
    obtain ⟨blank, rest⟩ := h
    refine ⟨.blank blank rest, ?_⟩
    rintro _ ⟨⟩
    exact blank
  cases more with
  | nil =>
    obtain rfl | h := h
    · exact ⟨.none, nofun⟩
    · exact separated h
  | cons _ _ => exact separated h.1

/-- Tokens laid out with enough between them are scanned as they were laid out, by induction on the
layout. -/
theorem scan_layout {laid : Layout} (isolated : ∀ t ∈ laid.map (·.1), ∃ p, Isolated t p)
    (spaced : laid.Spaced) (line : Nat) :
    tokensFrom line (cut laid.text) = laid.tokens line ∧ errorsFrom line (cut laid.text) = [] := by
  induction laid generalizing line with
  | nil =>
    rw [Layout.text, List.flatMap_nil, cut_nil]
    exact ⟨rfl, rfl⟩
  | cons first more ih =>
    obtain ⟨t, gap⟩ := first
    obtain ⟨⟨p, here⟩, isolated⟩ := List.forall_mem_cons.mp isolated
    obtain ⟨spacing, apart⟩ := spaced.apart
    obtain ⟨tokens, errors⟩ := spacing.skip (line + lineEnds t.lexeme.toList) (Layout.text more)
    obtain ⟨laterTokens, laterErrors⟩ :=
      ih isolated spaced.tail (line + lineEnds t.lexeme.toList + lineEnds gap)
    have text : Layout.text ((t, gap) :: more) = t.lexeme.toList ++ (gap ++ Layout.text more) :=
      List.append_assoc ..
    have noError (line : Nat) : p.error? line = none := by
      have token := here.token line
      cases p <;> first | rfl | cases token
    rw [text, here.cut _ apart, tokensFrom, errorsFrom, here.text, here.token, noError, tokens,
      errors, Layout.tokens, lineEnds_append, ← Nat.add_assoc, laterTokens]
    exact ⟨rfl, laterErrors⟩

/-- The lexemes of a text, with blanks and comments anew before, between and behind them, scan
without faults to the same tokens, on the lines of the new layout. -/
theorem scan_respaced {text : String} (words : ∀ w, .word w ∈ cut text.toList → NormalizesWord w)
    {lead : List Char} {laid : Layout} (same : laid.map (·.1) = (scan text).tokens.dropLast)
    (leading : Spacing lead) (spaced : laid.Spaced) :
    (scan (String.ofList (lead ++ laid.text))).tokens = laid.tokens (1 + lineEnds lead) ∧
      (scan (String.ofList (lead ++ laid.text))).errors = [] := by
  have tokens : (scan text).tokens.dropLast = tokensAt 1 (cut text.toList) := by
    rw [scan, tokensFrom_eq, List.dropLast_concat]
  rw [tokens] at same
  obtain ⟨skipTokens, skipErrors⟩ := leading.skip 1 laid.text
  rw [scan, String.toList_ofList, skipTokens, skipErrors]
  refine scan_layout (fun t ht => ?_) spaced _
  rw [same] at ht
  exact isolated_of_mem words ht

/-- A word, a slash, a string over two lines, a symbol and a number, with nothing between them. -/
def crowded : String := "x/\"//\n\"!=7.5"

/-- The tokens on lines of their own, with a comment between the first and the second. -/
def spread : Layout :=
  [({ kind := .identifier, lexeme := "x", line := 1 }, [' ', '/', '/', 'x', '\n']),
   ({ kind := .slash, lexeme := "/", line := 1 }, ['\n']),
   ({ kind := .string, lexeme := "\"//\n\"", literal := .string "//\n", line := 2 }, ['\r', '\n']),
   ({ kind := .bangEqual, lexeme := "!=", line := 2 }, ['\t']),
   ({ kind := .number, lexeme := "7.5", literal := .number 7.5, line := 2 }, [])]

theorem cut_crowded : cut crowded.toList =
    [.word ['x'], .symbol .slash ['/'], .string ['"', '/', '/', '\n', '"'],
      .symbol .bangEqual ['!', '='], .number 7.5 ['7', '.', '5']] := by
  have text : crowded.toList =
      ['x', '/', '"', '/', '/', '\n', '"', '!', '=', '7', '.', '5'] := by decide +kernel
  have read : Decimal.read? ['7', '.', '5'] = some 7.5 := by decide +kernel
  have numeral : IsNumeral ['7', '.', '5'] :=
    ⟨['7'], ['.', '5'], rfl, by decide, List.all_eq_true.mp rfl,
      .inr ⟨_, rfl, by decide, List.all_eq_true.mp rfl⟩⟩
  rw [text]
  iterate 4 refine cut_step rfl ?_
  refine (cut_number numeral read (show Stops [] from trivial)).trans ?_
  rw [cut_nil]

theorem scan_respaced_crowded :
    (scan (String.ofList ("//\n".toList ++ spread.text))).tokens = spread.tokens 2 ∧
      (scan (String.ofList ("//\n".toList ++ spread.text))).errors = [] := by
  have normal : IsWord (Text.normalize ['x']) ∧
      Text.normalize (Text.normalize ['x']) = Text.normalize ['x'] := by decide +kernel
  have words : ∀ w, .word w ∈ cut crowded.toList → NormalizesWord w := by
    rw [cut_crowded]
    simpa using ⟨normal.1, normal.2⟩
  have same : spread.map (·.1) = (scan crowded).tokens.dropLast := by
    have word : wordLexeme ['x'] = "x" := by decide +kernel
    rw [scan, cut_crowded]
    simp only [tokensFrom, Piece.token?, word]
    rfl
  have leading : Spacing "//\n".toList := @Spacing.comment [] [] (by simp) .none
  have spaced : spread.Spaced :=
    ⟨.blank rfl (@Spacing.comment ['x'] [] (by decide) .none), .blank rfl .none,
      .blank rfl (.blank rfl .none), .blank rfl .none, .inl rfl⟩
  exact scan_respaced words same leading spaced

end Lox.Source
