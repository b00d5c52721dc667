import Lox.Proofs.Source.Join

/-!
Scanning partitions a text. Every token but the last and every error has a span of its own, and the
spans lie one after the other; what lies outside of them is blanks and comments, and these lie
nowhere else but between quotes. A token and an error tell what their span holds and on which line
it ends.
-/

namespace Lox.Source

/-! ### Spans -/

/-- A stretch of a text, from a position up to another. -/
structure Span where
  start : Nat
  stop : Nat

/-- What stands in the span. -/
def Span.of (s : Span) (text : List Char) : List Char := (text.take s.stop).drop s.start

/-- The stretches before, between and behind spans of a text, from a position on. -/
def gaps (length : Nat) : Nat → List Span → List Span
  | start, [] => [⟨start, length⟩]
  | start, s :: rest => ⟨start, s.start⟩ :: gaps length s.stop rest

/-- Blanks and comments, in front of more text. A comment runs from two slashes up to the end of its
line or of the text. -/
inductive Filler (after : List Char) : List Char → Prop where
  | none : Filler after []
  | blank {c : Char} {rest : List Char} : isBlank c = true → Filler after rest →
      Filler after (c :: rest)
  | comment {body rest : List Char} : '\n' ∉ body → (∀ c ∈ (rest ++ after).head?, c = '\n') →
      Filler after rest → Filler after ('/' :: '/' :: (body ++ rest))

/-- At the position stands a blank, or a comment would begin. -/
def FillsAt (text : List Char) (i : Nat) : Prop :=
  (∃ c, text[i]? = some c ∧ isBlank c = true) ∨ (text[i]? = some '/' ∧ text[i + 1]? = some '/')

/-- The spans lie in the text one after the other. What lies outside is filler, and there is filler
in a span only if it starts with a quote. -/
structure Partition (text : List Char) (spans : List Span) : Prop where
  inside : ∀ s ∈ spans, s.start < s.stop ∧ s.stop ≤ text.length
  ordered : spans.Pairwise (·.stop ≤ ·.start)
  outside : ∀ g ∈ gaps text.length 0 spans, Filler (text.drop g.stop) (g.of text)
  quoted : ∀ s ∈ spans, ∀ i, s.start ≤ i → i < s.stop → FillsAt text i →
    text[s.start]? = some '"'

/-! ### What is found in a span -/

inductive Finding where
  | token (t : Token)
  | error (e : ScanError)

namespace Finding

def token? : Finding → Option Token
  | .token t => some t
  | .error _ => none

def error? : Finding → Option ScanError
  | .token _ => none
  | .error e => some e

def line : Finding → Nat
  | .token t => t.line
  | .error e => e.line

end Finding

/-- The token is an identifier or a keyword. -/
def isWordKind (kind : Token.Kind) : Bool := kind = .identifier || kind.isKeyword

/-- The token is read off the text: a word has its normal form for a lexeme, anything else the text
itself; strings and numbers have their values. -/
structure ReadOff (t : Token) (text : List Char) : Prop where
  word : isWordKind t.kind = true → t.lexeme = String.ofList (Text.normalize text)
  verbatim : isWordKind t.kind = false → t.lexeme = String.ofList text
  string : t.kind = .string →
    ∃ body, text = '"' :: (body ++ ['"']) ∧ t.literal = .string (String.ofList body)
  number : t.kind = .number → ∃ x, Decimal.read? text = some x ∧ t.literal = .number x

/-- The text has the fault. -/
def Fault.Found : Fault → List Char → Prop
  | .unexpectedCharacter c, text => text = [c]
  | .unterminatedString, text => ∃ body, text = '"' :: body ∧ '"' ∉ body
  | .invalidNumber spelling, text => spelling = String.ofList text ∧ Decimal.read? text = none

def Finding.Tells : Finding → List Char → Prop
  | .token t, text => ReadOff t text
  | .error e, text => e.fault.Found text

/-- A span with what is found in it. -/
structure Mark where
  span : Span
  finding : Finding

/-! ### Pieces with their findings -/

def Piece.finding? (line : Nat) (p : Piece) : Option Finding :=
  (p.token? line).map .token <|> (p.error? line).map .error

/-- The marks of pieces that follow each other from a position and a line on. -/
def marksFrom (start line : Nat) : List Piece → List Mark
  | [] => []
  | p :: rest =>
    let stop := start + p.text.length
    let line := line + lineEnds p.text
    match p.finding? line with
    | some finding => ⟨⟨start, stop⟩, finding⟩ :: marksFrom stop line rest
    | none => marksFrom stop line rest

/-- A piece with a token or an error gets a mark with its place. -/
theorem marksFrom_found {start line : Nat} {p : Piece} {rest : List Piece} {finding : Finding}
    (h : p.finding? (line + lineEnds p.text) = some finding) :
    marksFrom start line (p :: rest) = ⟨⟨start, start + p.text.length⟩, finding⟩ ::
      marksFrom (start + p.text.length) (line + lineEnds p.text) rest := by
  simp only [marksFrom, h]

/-- A blank or a comment gets no mark, but the places after it count its characters. -/
theorem marksFrom_skipped {start line : Nat} {p : Piece} {rest : List Piece}
    (h : p.finding? (line + lineEnds p.text) = none) :
    marksFrom start line (p :: rest) =
      marksFrom (start + p.text.length) (line + lineEnds p.text) rest := by
  simp only [marksFrom, h]

/-- The tokens are those of the marks, in order. -/
theorem tokensAt_eq_marks (start line : Nat) (pieces : List Piece) :
    tokensAt line pieces = (marksFrom start line pieces).filterMap (·.finding.token?) := by
  induction pieces generalizing start line with
  | nil => rfl
  | cons p rest ih =>
    rw [tokensAt, marksFrom, ih (start + p.text.length)]
    cases p <;> rfl

/-- The errors are those of the marks, in order. -/
theorem errorsFrom_eq_marks (start line : Nat) (pieces : List Piece) :
    errorsFrom line pieces = (marksFrom start line pieces).filterMap (·.finding.error?) := by
  induction pieces generalizing start line with
  | nil => rfl
  | cons p rest ih =>
    rw [errorsFrom, marksFrom, ih (start + p.text.length)]
    cases p <;> rfl

/-! ### One piece -/

section Piece

variable {c : Char} {rest : List Char} {line : Nat} {finding : Finding}

/-- What is found has the line on which its piece ends. -/
theorem line_of_finding? {p : Piece} (h : p.finding? line = some finding) : finding.line = line := by
  cases p with
  | blank | comment => cases h
  | _ => cases h; rfl

/-- The mark of the end comes from no piece. -/
theorem kind_ne_eof_of_finding? {p : Piece} (hp : p.Sound) (h : p.finding? line = some finding) :
    ∀ t ∈ finding.token?, t.kind ≠ .eof := by
  rintro t ht
  have taken : p.token? line = some t := by
    cases p with
    | blank | comment => cases h
    | _ => cases h; exact ht
  exact kind_ne_eof_of_token? hp taken

theorem isWordKind_ofWord (s : String) : isWordKind (.ofWord s) = true := by
  by_cases h : Token.Kind.ofWord s = .identifier
  · rw [h]
    rfl
  · have keyword := (ofWord_eq_iff rfl h).1
    rw [isWordKind, Bool.or_eq_true]
    exact .inr (List.contains_iff_mem.mpr keyword)

theorem readOff_word (text : List Char) :
    ReadOff { kind := .ofWord (wordLexeme text), lexeme := wordLexeme text, line } text := by
  have word := isWordKind_ofWord (wordLexeme text)
  refine ⟨fun _ => rfl, fun other => ?_, fun kind => ?_, fun kind => ?_⟩
  · rw [word] at other
    cases other
  all_goals
    dsimp only at kind
    rw [kind] at word
    cases word

theorem readOff_symbol {kind : Token.Kind} {text : List Char}
    (h : kind ∈ closedSymbols ++ openSymbols) :
    ReadOff { kind, lexeme := String.ofList text, line } text := by
  have known : ∀ k ∈ closedSymbols ++ openSymbols,
      isWordKind k = false ∧ k ≠ .string ∧ k ≠ .number := by decide
  obtain ⟨word, string, number⟩ := known kind h
  refine ⟨fun h => ?_, fun _ => rfl, fun h => absurd h string, fun h => absurd h number⟩
  rw [word] at h
  cases h

/-- The value of a number is read off its text. -/
theorem readOff_number {x : Float} {text : List Char} (read : Decimal.read? text = some x) :
    ReadOff { kind := .number, lexeme := String.ofList text, literal := .number x, line } text :=
  ⟨nofun, fun _ => rfl, nofun, fun _ => ⟨x, read, rfl⟩⟩

/-- The value of a string is what stands between the quotes. -/
theorem readOff_string (body : List Char) :
    ReadOff { kind := .string, lexeme := String.ofList ('"' :: (body ++ ['"'])),
              literal := .string (unquote ('"' :: (body ++ ['"']))), line }
      ('"' :: (body ++ ['"'])) := by
  refine ⟨nofun, fun _ => rfl, fun _ => ⟨body, rfl, ?_⟩, nofun⟩
  rw [unquote, List.drop_one, List.tail_cons, List.dropLast_concat]

end Piece

/-! ### The first piece of a text -/

section First

variable {c : Char} {rest : List Char} {first : Piece × List Char} {line : Nat}
  {finding : Finding}

/-- What is found in a piece tells what it holds. -/
theorem First.tells (h : First c rest first) (found : first.1.finding? line = some finding) :
    finding.Tells first.1.text := by
  -- one case for each kind of piece; a bad one tells its error
  cases h with
  | comment | blank => cases found
  | symbol known =>
    cases found
    exact readOff_symbol known
  | string =>
    cases found
    exact readOff_string _
  | number _ _ read =>
    cases found
    exact readOff_number read
  | word =>
    cases found
    exact readOff_word _
  | unterminated _ other =>
    cases found
    exact ⟨rest, rfl, other⟩
  | invalid _ _ unread =>
    cases found
    exact ⟨rfl, unread⟩
  | unexpected =>
    cases found
    rfl

/-- A piece in which nothing is found is filler. -/
theorem First.filler (h : First c rest first) (found : first.1.finding? line = none) :
    Filler first.2 first.1.text := by
  cases h with
  | comment _ _ body ends => simpa [Piece.text] using @Filler.comment _ _ [] body ends .none
  | blank blank => exact .blank blank .none
  | _ => cases found

/-- The character is no part of filler. -/
def IsSolid (d : Char) : Prop := isBlank d = false ∧ d ≠ '/'

/-- Where there is no blank and no slash, no blank and no comment starts. -/
theorem not_fillsAt {text after : List Char} (solid : ∀ d ∈ text, IsSolid d) {i : Nat}
    (inside : i < text.length) : ¬ FillsAt (text ++ after) i := by
  obtain ⟨blank, slash⟩ := solid text[i] (List.getElem_mem inside)
  have here : (text ++ after)[i]? = some text[i] := by
    rw [List.getElem?_append_left inside, List.getElem?_eq_getElem inside]
  rintro (⟨d, hd, isBlank⟩ | ⟨hd, -⟩)
  · rw [here] at hd
    cases hd
    rw [blank] at isBlank
    cases isBlank
  · rw [here] at hd
    exact slash (Option.some.inj hd)

theorem isSolid_of_isWordPart {d : Char} (h : isWordPart d = true) : IsSolid d := by
  have marker := isMarker_of_isWordPart h
  simp only [isMarker, Bool.or_eq_false_iff, decide_eq_false_iff_not] at marker
  exact ⟨marker.1.2, marker.1.1.2⟩

/-- Of the symbols only the slash may start a comment. -/
theorem isSolid_symbol {kind : Token.Kind} (known : kind ∈ closedSymbols ++ openSymbols)
    (other : kind ≠ .slash) : ∀ d ∈ kind.name.toList, IsSolid d := by
  have all : (closedSymbols ++ openSymbols).all (fun k =>
      k = .slash || k.name.toList.all fun d => !isBlank d && d ≠ '/') = true := by decide
  have solid := List.all_eq_true.mp all kind known
  simpa [other, IsSolid] using solid

theorem isSolid_numeral {d : Char} (h : isDigit d = true ∨ d = '.') : IsSolid d := by
  obtain digit | rfl := h
  · exact isSolid_of_isWordPart (isWordPart_of_isDigit digit)
  · exact ⟨rfl, by decide⟩

theorem isSolid_word {text : List Char} (h : IsWord text) : ∀ d ∈ text, IsSolid d := by
  cases text with
  | nil => nofun
  | cons c more =>
    refine List.forall_mem_cons.mpr ⟨?_, fun d hd => isSolid_of_isWordPart (h.2 d hd)⟩
    exact isSolid_of_isWordPart (isWordPart_of_isWordStart h.1)

/-- Between quotes there may be filler, but in no other piece in which something is found. -/
theorem First.quoted (h : First c rest first) (found : first.1.finding? line = some finding)
    {i : Nat} (inside : i < first.1.text.length) (fills : FillsAt (c :: rest) i) : c = '"' := by
  have whole := h.append
  rw [← whole] at fills
  cases h with
  | comment | blank => cases found
  | string quote | unterminated quote => exact quote
  | @symbol kind after known _ alone =>
    -- a slash alone starts no comment, and no other symbol has one
    by_cases slash : kind = .slash
    · subst slash
      have first : i = 0 := Nat.lt_one_iff.mp inside
      subst first
      obtain ⟨d, hd, blank⟩ | ⟨-, second⟩ := fills
      · cases hd
        cases blank
      · refine absurd ?_ (alone rfl)
        rw [List.head?_eq_getElem?]
        exact second
    · exact absurd fills (not_fillsAt (isSolid_symbol known slash) inside)
  | number _ numeral _ | invalid _ numeral _ =>
    exact absurd fills (not_fillsAt (fun d hd => isSolid_numeral (numeral d hd)) inside)
  | word _ word => exact absurd fills (not_fillsAt (isSolid_word word) inside)
  | unexpected blank slash =>
    have solid : ∀ d ∈ [c], IsSolid d := by simpa using ⟨blank, slash⟩
    exact absurd fills (not_fillsAt solid inside)

end First

/-! ### All pieces -/

/-- The mark of a finding in the text between a position and the next. -/
structure Mark.Fits (text : List Char) (m : Mark) : Prop where
  tells : m.finding.Tells (m.span.of text)
  line : m.finding.line = 1 + (text.take m.span.stop).count '\n'
  kind : ∀ t ∈ m.finding.token?, t.kind ≠ .eof

/-- What is left of a text is cut into marks behind those before. `gap` is the filler that the marks
before have left in front of it. -/
structure Continues (text : List Char) (start : Nat) (marks : List Mark) : Prop where
  fits : ∀ m ∈ marks, m.Fits text
  inside : ∀ m ∈ marks, start ≤ m.span.start ∧ m.span.start < m.span.stop ∧
    m.span.stop ≤ text.length
  ordered : (marks.map (·.span)).Pairwise (·.stop ≤ ·.start)
  outside : ∀ g ∈ gaps text.length start (marks.map (·.span)),
    Filler (text.drop g.stop) (g.of text)
  quoted : ∀ m ∈ marks, ∀ i, m.span.start ≤ i → i < m.span.stop → FillsAt text i →
    text[m.span.start]? = some '"'

/-- The span of a part of a text holds that part. -/
theorem of_append {before inner after : List Char} :
    Span.of ⟨before.length, before.length + inner.length⟩ (before ++ inner ++ after) = inner := by
  rw [Span.of, ← List.length_append, List.take_left, List.drop_left]

/-- Whether a blank or a comment stands at a place depends on what follows only. -/
theorem fillsAt_append {before text : List Char} {i : Nat} :
    FillsAt (before ++ text) (before.length + i) ↔ FillsAt text i := by
  unfold FillsAt
  rw [Nat.add_assoc, List.getElem?_append_right (Nat.le_add_right _ _),
    List.getElem?_append_right (Nat.le_add_right _ _), Nat.add_sub_cancel_left,
    Nat.add_sub_cancel_left]

/-- Two gaps in a row are a gap. -/
theorem Filler.append {gap text after : List Char} (first : Filler (text ++ after) gap)
    (second : Filler after text) : Filler after (gap ++ text) := by
  induction first with
  | none => exact second
  | blank blank _ ih => exact .blank blank ih
  | comment body ends _ ih =>
    rw [List.cons_append, List.cons_append, List.append_assoc]
    exact .comment body (by rwa [List.append_assoc]) ih

section Continues

variable {before gap text after : List Char} {marks : List Mark}

/-- A mark lies between the gap in front of it and the marks behind it. -/
theorem Continues.cons {finding : Finding} {span : Span} (filler : Filler (text ++ after) gap)
    (hspan : span = ⟨(before ++ gap).length, (before ++ gap).length + text.length⟩)
    (nonempty : 0 < text.length) (tells : finding.Tells text)
    (line : finding.line = 1 + (before ++ gap ++ text).count '\n')
    (kind : ∀ t ∈ finding.token?, t.kind ≠ .eof)
    (quoted : ∀ i < text.length, FillsAt (text ++ after) i → text.head? = some '"')
    (more : Continues (before ++ gap ++ text ++ after) span.stop marks) :
    Continues (before ++ gap ++ text ++ after) before.length (⟨span, finding⟩ :: marks) := by
  subst hspan
  have stop : (before ++ gap).length + text.length = (before ++ gap ++ text).length :=
    List.length_append.symm
  have held : Span.of ⟨(before ++ gap).length, (before ++ gap).length + text.length⟩
      (before ++ gap ++ text ++ after) = text := of_append
  refine ⟨?_, ?_, ?_, ?_, ?_⟩
  · refine List.forall_mem_cons.mpr ⟨⟨?_, ?_, kind⟩, more.fits⟩
    · rwa [held]
    · rw [line, stop, List.take_left]
  · refine List.forall_mem_cons.mpr ⟨?_, fun m hm => ?_⟩
    · simp only [List.length_append]
      omega
    · have later := more.inside m hm
      simp only [List.length_append] at later ⊢
      omega
  · rw [List.map_cons, List.pairwise_cons]
    refine ⟨fun s hs => ?_, more.ordered⟩
    obtain ⟨m, hm, rfl⟩ := List.mem_map.mp hs
    exact (more.inside m hm).1
  -- in front of the first span there is just the gap
  · rw [List.map_cons, gaps]
    refine List.forall_mem_cons.mpr ⟨?_, more.outside⟩
    rw [List.append_assoc (before ++ gap), List.drop_left, List.length_append, of_append]
    exact filler
  · refine List.forall_mem_cons.mpr ⟨fun i low high fills => ?_, more.quoted⟩
    -- inside the span, a place is one of its text
    obtain ⟨j, rfl⟩ := Nat.exists_eq_add_of_le low
    rw [List.append_assoc (before ++ gap)] at fills ⊢
    rw [List.getElem?_append_right (Nat.le_refl _), Nat.sub_self, ← List.head?_eq_getElem?,
      List.head?_append, quoted j (Nat.lt_of_add_lt_add_left high) (fillsAt_append.mp fills)]
    rfl

end Continues

/-- From a place in the text on, the marks are disjoint, in order and read off their spans, and all
else is gap. -/
theorem continues_cut (rest before gap : List Char) (filler : Filler rest gap) :
    Continues (before ++ gap ++ rest) before.length
      (marksFrom (before ++ gap).length (1 + (before ++ gap).count '\n') (cut rest)) := by
  induction rest using cut.induct generalizing before gap with
  | case1 =>
    rw [cut_nil, marksFrom]
    refine ⟨List.forall_mem_nil _, List.forall_mem_nil _, .nil, fun g hg => ?_,
      List.forall_mem_nil _⟩
    rw [List.map_nil, gaps, List.mem_singleton] at hg
    subst hg
    have held : Span.of ⟨before.length, before.length + gap.length⟩ (before ++ gap ++ []) = gap :=
      of_append
    rw [List.append_nil] at held ⊢
    rw [List.drop_length, List.length_append, held]
    exact filler
  | case2 c rest first ih =>
    have here : First c rest first := first_cutFirst c rest
    have whole := here.append
    obtain ⟨tail, starts, -⟩ := covers_cutFirst c rest
    have starts : first.1.text = c :: tail := starts
    have length : (before ++ gap).length + first.1.text.length =
        (before ++ gap ++ first.1.text).length := List.length_append.symm
    have count : 1 + (before ++ gap).count '\n' + lineEnds first.1.text =
        1 + (before ++ gap ++ first.1.text).count '\n' := by
      rw [lineEnds, Nat.add_assoc, ← List.count_append]
    rw [cut_cons]
    rw [← whole] at filler ⊢
    rw [← List.append_assoc (before ++ gap)]
    -- A piece in which nothing is found goes to the gap, any other ends it.
    cases found : first.1.finding? (1 + (before ++ gap).count '\n' + lineEnds first.1.text) with
    | none =>
      have further := ih before (gap ++ first.1.text) (filler.append (here.filler found))
      rw [← List.append_assoc before gap, ← length, ← count] at further
      rw [marksFrom_skipped found]
      exact further
    | some finding =>
      have further := ih (before ++ gap ++ first.1.text) [] .none
      rw [List.append_nil, ← length, ← count] at further
      rw [marksFrom_found found]
      refine .cons filler rfl (by rw [starts]; exact Nat.zero_lt_succ _) (here.tells found) ?_
        (kind_ne_eof_of_finding? (sound_cutFirst c rest) found) (fun i inside fills => ?_) further
      · rw [line_of_finding? found, count]
      · rw [whole] at fills
        rw [starts, List.head?_cons, here.quoted found inside fills]

/-- Scanning partitions the text: one span after the other with a token or an error in each, and
with blanks and comments outside of them. The end of the text comes last, on its last line. -/
theorem scan_partitions (text : String) : ∃ marks : List Mark,
    (scan text).tokens =
      marks.filterMap (·.finding.token?) ++ [.endAt (1 + text.toList.count '\n')] ∧
    (scan text).errors = marks.filterMap (·.finding.error?) ∧
    Partition text.toList (marks.map (·.span)) ∧
    ∀ m ∈ marks, m.Fits text.toList := by
  have cuts := continues_cut text.toList [] [] .none
  refine ⟨marksFrom 0 1 (cut text.toList), ?_, errorsFrom_eq_marks 0 1 _, ?_, cuts.fits⟩
  · rw [scan, tokensFrom_eq, tokensAt_eq_marks 0, texts_cut]
    rfl
  · refine ⟨fun s hs => ?_, cuts.ordered, cuts.outside, fun s hs => ?_⟩
    all_goals obtain ⟨m, hm, rfl⟩ := List.mem_map.mp hs
    · exact (cuts.inside m hm).2
    · exact cuts.quoted m hm

end Lox.Source
