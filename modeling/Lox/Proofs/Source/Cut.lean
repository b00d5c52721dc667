import Lox.Source.Scan

/-!
How text is cut, one piece at a time: what each kind of piece looks like, and before which text it
ends where it does.
-/

namespace Lox.Source

/-! ### Words and what ends them -/

/-- The spelling of an identifier or a keyword. -/
def IsWord : List Char → Prop
  | [] => False
  | c :: rest => isWordStart c = true ∧ ∀ d ∈ rest, isWordPart d = true

instance : (text : List Char) → Decidable (IsWord text)
  | [] => .isFalse id
  | _ :: rest => @instDecidableAnd _ _ _ (List.decidableBAll _ rest)

/-- A word or a number in front of the text ends there: the text does not go on with a letter or a
digit, nor with a point and a digit. -/
def Stops : List Char → Prop
  | [] => True
  | c :: rest => isWordPart c = false ∧ (c = '.' → ∀ d ∈ rest.head?, isDigit d = false)

theorem isWordPart_of_isDigit {c : Char} (h : isDigit c = true) : isWordPart c = true := by
  simp [isWordPart, h]

theorem isWordPart_of_isWordStart {c : Char} (h : isWordStart c = true) :
    isWordPart c = true := by
  simp [isWordPart, h]

theorem stops_cons {c : Char} {rest : List Char} (h : isWordPart c = false) (hdot : c ≠ '.') :
    Stops (c :: rest) :=
  ⟨h, fun heq => absurd heq hdot⟩

/-- After a word that ends comes no part of a word. -/
theorem Stops.head {rest : List Char} (h : Stops rest) : ∀ c ∈ rest.head?, isWordPart c = false := by
  cases rest with
  | nil => simp
  | cons c rest =>
    intro d hd
    cases hd
    exact h.1

/-- The digits are the ASCII ones. -/
theorem isDigit_iff {c : Char} : isDigit c = true ↔ 48 ≤ c.toNat ∧ c.toNat ≤ 57 := by
  simp only [isDigit, Bool.and_eq_true, decide_eq_true_eq]
  exact Iff.rfl

/-- What holds of the first code points holds of the characters below them. -/
theorem forall_char_lt {n : Nat} {P : Char → Prop} (h : ∀ m < n, P (Char.ofNat m)) (c : Char)
    (hc : c.toNat < n) : P c := by
  have := h c.toNat hc
  rwa [Char.ofNat_toNat] at this

/-- The characters that have a piece of their own. -/
def isMarker (c : Char) : Bool :=
  (single? c).isSome || (extensible? c).isSome || c = '/' || isBlank c || c = '"'

theorem toNat_lt_of_isMarker {c : Char} (h : isMarker c = true) : c.toNat < 128 := by
  simp only [isMarker, isBlank, Bool.or_eq_true, decide_eq_true_eq] at h
  rcases h with (((h | h) | rfl) | ((rfl | rfl) | rfl) | rfl) | rfl
  · unfold single? at h
    split at h <;> first | decide | cases h
  · unfold extensible? at h
    split at h <;> first | decide | cases h
  all_goals decide

/-- A letter, a digit or an underscore is no symbol. -/
theorem isMarker_of_isWordPart {c : Char} (h : isWordPart c = true) : isMarker c = false := by
  have known := forall_char_lt (n := 128) (P := fun c => isMarker c = true → isWordPart c = false)
    (by decide)
  rw [← Bool.not_eq_true]
  intro marker
  rw [known c (toNat_lt_of_isMarker marker) marker] at h
  cases h

/-- No word starts with a digit, so words and numbers are told apart by their first characters. -/
theorem isDigit_of_isWordStart {c : Char} (h : isWordStart c = true) : isDigit c = false := by
  have known := forall_char_lt (n := 58) (P := fun c => isDigit c = true → isWordStart c = false)
    (by decide)
  rw [← Bool.not_eq_true]
  intro digit
  have bound := (isDigit_iff.mp digit).2
  rw [known c (by omega) digit] at h
  cases h

/-! ### One piece -/

@[simp] theorem cut_nil : cut [] = [] := by
  rw [cut]

/-- Cutting cuts off the first piece and goes on with what is left. -/
theorem cut_cons (c : Char) (rest : List Char) :
    cut (c :: rest) = (cutFirst c rest).1 :: cut (cutFirst c rest).2 := by
  rw [cut]

/-- One piece after the other. -/
theorem cut_step {c : Char} {rest rest' : List Char} {p : Piece} {ps : List Piece}
    (first : cutFirst c rest = (p, rest')) (more : cut rest' = ps) : cut (c :: rest) = p :: ps := by
  rw [cut_cons, first, more]

section Pieces

variable {c : Char} {rest : List Char}

/-- A blank is a piece of its own. -/
theorem cut_blank (h : isBlank c = true) : cut (c :: rest) = .blank c :: cut rest := by
  simp only [isBlank, Bool.or_eq_true, decide_eq_true_eq] at h
  rw [cut_cons]
  rcases h with ((rfl | rfl) | rfl) | rfl <;> rfl

/-- The kinds of symbols, whatever follows them. -/
def closedSymbols : List Token.Kind :=
  [.leftParen, .rightParen, .leftBrace, .rightBrace, .comma, .dot, .minus, .plus, .semicolon,
   .colon, .star, .bangEqual, .equalEqual, .greaterEqual, .lessEqual]

/-- The kinds of symbols that a character after them could make another. -/
def openSymbols : List Token.Kind := [.bang, .equal, .greater, .less, .slash]

/-- A symbol that no longer one starts with is cut off whatever comes after it. -/
theorem cut_closedSymbol {k : Token.Kind} (h : k ∈ closedSymbols) :
    cut (k.name.toList ++ rest) = .symbol k k.name.toList :: cut rest := by
  have first : ∃ c tail, k.name.toList = c :: tail ∧
      cutFirst c (tail ++ rest) = (.symbol k (c :: tail), rest) := by
    simp only [closedSymbols, List.mem_cons, List.not_mem_nil, or_false] at h
    rcases h with rfl | rfl | rfl | rfl | rfl | rfl | rfl | rfl | rfl | rfl | rfl | rfl | rfl | rfl
      | rfl <;> exact ⟨_, _, rfl, rfl⟩
  obtain ⟨c, tail, hname, hcut⟩ := first
  rw [hname, List.cons_append, cut_cons, hcut]

/-- A symbol that may be followed by an equals sign stands alone before anything else. -/
theorem cutExtensible_alone {k l : Token.Kind} (h : rest.head? ≠ some '=') :
    cutExtensible c k l rest = (.symbol k [c], rest) := by
  unfold cutExtensible
  split
  · exact absurd rfl h
  · rfl

/-- A symbol that a longer one starts with is cut off where no such one goes on. -/
theorem cut_openSymbol {k : Token.Kind} (h : k ∈ openSymbols) (heq : rest.head? ≠ some '=')
    (hslash : rest.head? ≠ some '/') :
    cut (k.name.toList ++ rest) = .symbol k k.name.toList :: cut rest := by
  have first : ∃ c, k.name.toList = [c] ∧ cutFirst c rest = (.symbol k [c], rest) := by
    simp only [openSymbols, List.mem_cons, List.not_mem_nil, or_false] at h
    rcases h with rfl | rfl | rfl | rfl | rfl
    · exact ⟨'!', rfl, cutExtensible_alone heq⟩
    · exact ⟨'=', rfl, cutExtensible_alone heq⟩
    · exact ⟨'>', rfl, cutExtensible_alone heq⟩
    · exact ⟨'<', rfl, cutExtensible_alone heq⟩
    · refine ⟨'/', rfl, ?_⟩
      show cutSlash '/' rest = _
      rw [cutSlash, if_neg hslash]
  obtain ⟨c, hname, hcut⟩ := first
  rw [hname, List.singleton_append, cut_cons, hcut]

/-- A character of a word or a number is no marker, so only those two cases are left. -/
theorem cutFirst_of_isWordPart (h : isWordPart c = true) :
    cutFirst c rest = if isDigit c then cutNumber c rest
      else if isWordStart c then cutWord c rest
      else (.bad (.unexpectedCharacter c) [c], rest) := by
  have marker := isMarker_of_isWordPart h
  simp only [isMarker, Bool.or_eq_false_iff, Option.isSome_eq_false_iff, Option.isNone_iff_eq_none,
    decide_eq_false_iff_not] at marker
  obtain ⟨⟨⟨⟨single, extensible⟩, slash⟩, blank⟩, quote⟩ := marker
  simp only [cutFirst, single, extensible, slash, blank, quote, if_false, Bool.false_eq_true]

/-- A run of characters ends where the first other one stands. -/
theorem takeWhile_append_stop {p : Char → Bool} {text : List Char} (h : ∀ d ∈ text, p d = true)
    (after : ∀ d ∈ rest.head?, p d = false) :
    (text ++ rest).takeWhile p = text ∧ (text ++ rest).dropWhile p = rest := by
  have stop : rest.takeWhile p = [] ∧ rest.dropWhile p = rest := by
    cases rest with
    | nil => exact ⟨rfl, rfl⟩
    | cons d rest => simp [after d rfl]
  rw [List.takeWhile_append_of_pos h, List.dropWhile_append_of_pos h, stop.1, stop.2,
    List.append_nil]
  exact ⟨rfl, rfl⟩

/-- A word is cut off as a whole before what ends it. -/
theorem cut_word {text : List Char} (h : IsWord text) (after : Stops rest) :
    cut (text ++ rest) = .word text :: cut rest := by
  cases text with
  | nil => cases h
  | cons c tail =>
    obtain ⟨start, parts⟩ := h
    obtain ⟨taken, dropped⟩ := takeWhile_append_stop parts after.head
    rw [List.cons_append, cut_cons, cutFirst_of_isWordPart (isWordPart_of_isWordStart start),
      isDigit_of_isWordStart start, start, if_neg (by simp), if_pos rfl, cutWord, taken, dropped]

/-- A string reaches to the next quote. -/
theorem cut_string {text : List Char} (h : '"' ∉ text) :
    cut ('"' :: (text ++ '"' :: rest)) = .string ('"' :: (text ++ ['"'])) :: cut rest := by
  have inner : ∀ d ∈ text, decide (d ≠ '"') = true := by
    intro d hd
    exact decide_eq_true fun heq => h (heq ▸ hd)
  have after : ∀ d ∈ ('"' :: rest).head?, decide (d ≠ '"') = false := by simp
  obtain ⟨taken, dropped⟩ := takeWhile_append_stop inner after
  have first : cutFirst '"' (text ++ '"' :: rest) = cutString '"' (text ++ '"' :: rest) := rfl
  rw [cut_cons, first, cutString, taken, dropped]

/-- The spelling of a number: digits, perhaps a point and more digits. -/
def IsNumeral (text : List Char) : Prop :=
  ∃ whole fraction, text = whole ++ fraction ∧ whole ≠ [] ∧ (∀ d ∈ whole, isDigit d = true) ∧
    (fraction = [] ∨ ∃ digits, fraction = '.' :: digits ∧ digits ≠ [] ∧
      ∀ d ∈ digits, isDigit d = true)

theorem Stops.head_digit (h : Stops rest) : ∀ d ∈ rest.head?, isDigit d = false := by
  intro d hd
  rw [← Bool.not_eq_true]
  intro digit
  have := isWordPart_of_isDigit digit
  rw [h.head d hd] at this
  cases this

/-- Before what ends a number there is no fraction. -/
theorem cutFraction_stop (after : Stops rest) : cutFraction rest = ([], rest) := by
  unfold cutFraction
  split
  · next d tail => rw [if_neg (by simp [after.2 rfl d rfl])]
  · rfl

/-- A point with a digit after it starts a fraction, which takes all digits. -/
theorem cutFraction_digits {digits : List Char} (nonempty : digits ≠ [])
    (h : ∀ d ∈ digits, isDigit d = true) (after : Stops rest) :
    cutFraction ('.' :: (digits ++ rest)) = ('.' :: digits, rest) := by
  cases digits with
  | nil => exact absurd rfl nonempty
  | cons d digits =>
    have inner : ∀ d ∈ digits, isDigit d = true := fun d hd => h d (List.mem_cons_of_mem _ hd)
    obtain ⟨taken, dropped⟩ := takeWhile_append_stop inner after.head_digit
    rw [List.cons_append, cutFraction, if_pos (h d List.mem_cons_self), taken, dropped]

/-- A numeral is cut off as a whole before what ends it. -/
theorem cut_number {text : List Char} {x : Float} (h : IsNumeral text)
    (read : Decimal.read? text = some x) (after : Stops rest) :
    cut (text ++ rest) = .number x text :: cut rest := by
  obtain ⟨whole, fraction, rfl, nonempty, digits, hfraction⟩ := h
  cases whole with
  | nil => exact absurd rfl nonempty
  | cons c whole =>
    have digit : isDigit c = true := digits c List.mem_cons_self
    have inner : ∀ d ∈ whole, isDigit d = true := fun d hd => digits d (List.mem_cons_of_mem _ hd)
    have cutting : cutFraction (fraction ++ rest) = (fraction, rest) ∧
        ∀ d ∈ (fraction ++ rest).head?, isDigit d = false := by
      rcases hfraction with rfl | ⟨ds, rfl, hne, hds⟩
      · exact ⟨cutFraction_stop after, after.head_digit⟩
      · refine ⟨cutFraction_digits hne hds after, ?_⟩
        rintro d ⟨⟩
        decide
    obtain ⟨taken, dropped⟩ := takeWhile_append_stop inner cutting.2
    rw [List.append_assoc, List.cons_append, cut_cons,
      cutFirst_of_isWordPart (isWordPart_of_isDigit digit), if_pos digit, cutNumber, taken, dropped,
      cutting.1]
    rw [List.cons_append] at read
    simp only [read]
    rfl

end Pieces

/-! ### What pieces there are -/

/-- What a piece of its kind looks like. -/
def Piece.Sound : Piece → Prop
  | .blank c => isBlank c = true
  | .comment _ | .bad _ _ => True
  | .symbol k text => k ∈ closedSymbols ++ openSymbols ∧ text = k.name.toList
  | .number x text => Decimal.read? text = some x
  | .string text => ∃ body, text = '"' :: (body ++ ['"']) ∧ '"' ∉ body
  | .word text => IsWord text

theorem sound_cutExtensible {c : Char} {k l : Token.Kind} {rest : List Char}
    (h : extensible? c = some (k, l)) : (cutExtensible c k l rest).1.Sound := by
  have known : (k ∈ closedSymbols ++ openSymbols ∧ [c] = k.name.toList) ∧
      l ∈ closedSymbols ++ openSymbols ∧ [c, '='] = l.name.toList := by
    unfold extensible? at h
    split at h <;> cases h <;> decide
  unfold cutExtensible
  split
  · exact known.2
  · exact known.1

theorem sound_cutString {c : Char} {rest : List Char} (h : c = '"') :
    (cutString c rest).1.Sound := by
  subst h
  unfold cutString
  dsimp only
  split
  · trivial
  · next quote tail hdrop =>
    have hquote : quote = '"' := by
      have := List.head?_dropWhile_not (· ≠ '"') rest
      rw [hdrop] at this
      simpa using this
    subst hquote
    refine ⟨_, rfl, fun hmem => ?_⟩
    have := List.all_eq_true.mp List.all_takeWhile _ hmem
    simp at this

/-- The first piece is of a kind that its text allows. -/
theorem sound_cutFirst (c : Char) (rest : List Char) : (cutFirst c rest).1.Sound := by
  unfold cutFirst
  split
  · next kind _ hsingle =>
    unfold single? at hsingle
    split at hsingle <;> cases hsingle <;> exact ⟨by decide, rfl⟩
  · next hextensible => exact sound_cutExtensible hextensible
  · split
    · next hslash =>
      unfold cutSlash
      split
      · trivial
      · rw [hslash]
        exact ⟨by decide, rfl⟩
    split
    · next hblank => exact hblank
    split
    · next hquote => exact sound_cutString hquote
    split
    · unfold cutNumber
      dsimp only
      split
      · next hread => exact hread
      · trivial
    split
    · next hstart => exact ⟨hstart, fun d hd => List.all_eq_true.mp List.all_takeWhile d hd⟩
    · trivial

/-- Every piece of a text looks like one of its kind. -/
theorem sound_of_mem_cut {text : List Char} {p : Piece} (h : p ∈ cut text) : p.Sound := by
  induction text using cut.induct with
  | case1 => simp at h
  | case2 c rest first ih =>
    rw [cut_cons] at h
    rcases List.mem_cons.mp h with rfl | h
    · exact sound_cutFirst c rest
    · exact ih h

/-! ### Tokens without the end -/

/-- The tokens of the pieces. -/
def tokensAt (line : Nat) : List Piece → List Token
  | [] => []
  | p :: rest =>
    (p.token? (line + lineEnds p.text)).toList ++ tokensAt (line + lineEnds p.text) rest

/-- The text of the pieces. -/
def texts (pieces : List Piece) : List Char := pieces.flatMap Piece.text

/-- The tokens of a text end with the mark of its end, on its last line. -/
theorem tokensFrom_eq (line : Nat) (pieces : List Piece) :
    tokensFrom line pieces = tokensAt line pieces ++ [.endAt (line + lineEnds (texts pieces))] := by
  induction pieces generalizing line with
  | nil => simp [tokensFrom, tokensAt, texts, lineEnds]
  | cons p rest ih =>
    have ends : line + lineEnds (texts (p :: rest)) =
        line + lineEnds p.text + lineEnds (texts rest) := by
      simp [texts, lineEnds, List.count_append, Nat.add_assoc]
    rw [tokensFrom, tokensAt, ends]
    split
    · next h => simp [h, ih]
    · next h => simp [h, ih]

/-- The second part of a text starts on the line on which the first ends. -/
theorem tokensAt_append (line : Nat) (ps qs : List Piece) :
    tokensAt line (ps ++ qs) = tokensAt line ps ++ tokensAt (line + lineEnds (texts ps)) qs := by
  induction ps generalizing line with
  | nil => simp [tokensAt, texts, lineEnds]
  | cons p rest ih =>
    have ends : line + lineEnds (texts (p :: rest)) =
        line + lineEnds p.text + lineEnds (texts rest) := by
      simp [texts, lineEnds, List.count_append, Nat.add_assoc]
    rw [List.cons_append, tokensAt, tokensAt, ih, ends, List.append_assoc]

/-- There is no error exactly if no piece is a bad one, on any line. -/
theorem errorsFrom_eq_nil_iff (line : Nat) (pieces : List Piece) :
    errorsFrom line pieces = [] ↔ ∀ p ∈ pieces, p.error? 0 = none := by
  induction pieces generalizing line with
  | nil => simp [errorsFrom]
  | cons p rest ih =>
    have anyLine : p.error? (line + lineEnds p.text) = none ↔ p.error? 0 = none := by
      cases p <;> simp [Piece.error?]
    rw [errorsFrom, List.forall_mem_cons, ← ih (line + lineEnds p.text), ← anyLine]
    split
    · next h => simp [h]
    · next h => simp [h]

/-- Every token comes from a piece. -/
theorem mem_tokensAt {line : Nat} {pieces : List Piece} {t : Token}
    (h : t ∈ tokensAt line pieces) : ∃ p ∈ pieces, ∃ line', p.token? line' = some t := by
  induction pieces generalizing line with
  | nil => cases h
  | cons p rest ih =>
    rw [tokensAt, List.mem_append, Option.mem_toList] at h
    rcases h with h | h
    · exact ⟨p, List.mem_cons_self, _, h⟩
    · obtain ⟨q, hq, found⟩ := ih h
      exact ⟨q, List.mem_cons_of_mem _ hq, found⟩

/-- A word is a keyword exactly if it is spelled as one. -/
theorem ofWord_eq_iff {s : String} {k : Token.Kind} (h : Token.Kind.ofWord s = k)
    (hk : k ≠ .identifier) : k ∈ Token.Kind.keywords ∧ s = k.name := by
  unfold Token.Kind.ofWord at h
  cases hfind : Token.Kind.keywords.find? (·.name = s) with
  | none =>
    rw [hfind] at h
    exact absurd h.symm hk
  | some found =>
    rw [hfind] at h
    cases h
    exact ⟨List.mem_of_find?_eq_some hfind, by simpa [eq_comm] using List.find?_some hfind⟩

/-- No piece is an end of the text. -/
theorem kind_ne_eof_of_token? {p : Piece} (hp : p.Sound) {line : Nat} {t : Token}
    (h : p.token? line = some t) : t.kind ≠ .eof := by
  cases p with
  | blank | comment | bad => cases h
  | symbol k text =>
    cases h
    have known : ∀ k ∈ closedSymbols ++ openSymbols, k ≠ .eof := by decide
    exact known k hp.1
  | number | string =>
    cases h
    simp
  | word text =>
    cases h
    intro heq
    exact absurd (ofWord_eq_iff heq (by decide)).1 (by decide)

end Lox.Source
