import Lox.Proofs.Source.First

/-!
What stands behind a piece does not change the piece, if it does not make it longer: a piece ends
where it does also in front of another text that starts as the text behind it, or with a blank.
-/

namespace Lox.Source

/-- A blank ends a word. -/
theorem not_isWordPart_of_isBlank {c : Char} (h : isBlank c = true) : isWordPart c = false := by
  rw [← Bool.not_eq_true]
  intro part
  have marker := isMarker_of_isWordPart part
  simp [isMarker, h] at marker

/-- A blank ends a number. -/
theorem not_isDigit_of_isBlank {c : Char} (h : isBlank c = true) : isDigit c = false := by
  rw [← Bool.not_eq_true]
  intro digit
  have part := not_isWordPart_of_isBlank h
  rw [isWordPart_of_isDigit digit] at part
  cases part

/-! ### Texts that start alike -/

/-- The second text goes on as the first does, up to a blank or its end. -/
inductive Follows : List Char → List Char → Prop where
  | none {text : List Char} : Follows text []
  | blank {c : Char} {text rest : List Char} : isBlank c = true → Follows text (c :: rest)
  | same {c : Char} {text rest : List Char} : Follows text rest → Follows (c :: text) (c :: rest)

namespace Follows

variable {text rest : List Char}

/-- A character that no blank is starts the second text only if it starts the first. -/
theorem head {p : Char → Bool} (h : Follows text rest) (blank : ∀ c, isBlank c = true → p c = false)
    (first : ∀ c ∈ text.head?, p c = false) : ∀ c ∈ rest.head?, p c = false := by
  cases h with
  | none => nofun
  | blank hc =>
    rintro _ ⟨⟩
    exact blank _ hc
  | same => exact first

/-- A text that follows another starts as it does, or with a blank, or not at all. -/
theorem head_ne {c : Char} (h : Follows text rest) (other : isBlank c = false)
    (first : text.head? ≠ some c) : rest.head? ≠ some c := by
  cases h with
  | none => nofun
  | blank hc =>
    rintro ⟨⟩
    rw [hc] at other
    cases other
  | same => exact first

/-- Where a text has no digit first, what follows it has none either. -/
theorem head_digit (h : Follows text rest) (first : ∀ c ∈ text.head?, isDigit c = false) :
    ∀ c ∈ rest.head?, isDigit c = false :=
  h.head (fun _ => not_isDigit_of_isBlank) first

/-- What follows still follows with the same text in front. -/
theorem append_left (before : List Char) (h : Follows text rest) :
    Follows (before ++ text) (before ++ rest) := by
  induction before with
  | nil => exact h
  | cons c before ih => exact .same ih

end Follows

/-! ### The first piece -/

/-- The piece, which ends in front of the first text, ends also in front of the second. Only the end
of the line ends a comment, and nothing ends a string without its second quote. -/
def Piece.Ends (after after' : List Char) : Piece → Prop
  | .comment _ => ∀ c ∈ after'.head?, c = '\n'
  | .bad .unterminatedString _ => after' = []
  | _ => Follows after after'

/-- The first piece is the same with the other text behind it. -/
def Stands (after' : List Char) (cutter : List Char → Piece × List Char) (text : List Char) : Prop :=
  (cutter text).1.Ends (cutter text).2 after' →
    cutter ((cutter text).1.text.tail ++ after') = ((cutter text).1, after')

section First

variable (after' : List Char) (c : Char) (text : List Char)

theorem head?_dropWhile (p : Char → Bool) : ∀ d ∈ (text.dropWhile p).head?, p d = false := by
  intro d hd
  have other := List.head?_dropWhile_not p text
  rw [hd] at other
  simpa using other

theorem mem_takeWhile {p : Char → Bool} {d : Char} (h : d ∈ text.takeWhile p) : p d = true :=
  List.all_eq_true.mp List.all_takeWhile d h

/-- A symbol stands: one character after it decides. -/
theorem stands_cutExtensible (k l : Token.Kind) : Stands after' (cutExtensible c k l) text := by
  by_cases h : text.head? = some '='
  · obtain ⟨rest, rfl⟩ := List.head?_eq_some_iff.mp h
    exact fun _ => rfl
  · unfold Stands
    rw [cutExtensible_alone h]
    exact fun ends => cutExtensible_alone (ends.head_ne rfl h)

/-- After two slashes all to the end of the line is a comment. -/
theorem cutSlash_comment {text : List Char} (h : text.head? = some '/') :
    cutSlash c text =
      (.comment (c :: text.takeWhile (· ≠ '\n')), text.dropWhile (· ≠ '\n')) :=
  if_pos h

/-- A slash or a comment stands. -/
theorem stands_cutSlash : Stands after' (cutSlash c) text := by
  unfold Stands
  by_cases h : text.head? = some '/'
  · obtain ⟨rest, rfl⟩ := List.head?_eq_some_iff.mp h
    rw [cutSlash_comment c h]
    intro ends
    have stop : ∀ d ∈ after'.head?, decide (d ≠ '\n') = false := fun d hd => by
      simpa using ends d hd
    obtain ⟨taken, dropped⟩ :=
      takeWhile_append_stop (fun d hd => mem_takeWhile ('/' :: rest) hd) stop
    show cutSlash c (('/' :: rest).takeWhile (· ≠ '\n') ++ after') = _
    rw [cutSlash_comment c (by rfl), taken, dropped]
  · rw [cutSlash, if_neg h]
    exact fun ends => if_neg (ends.head_ne rfl h)

/-- A string stands, closed or not. -/
theorem stands_cutString : Stands after' (cutString c) text := by
  have inside : ∀ d ∈ text.takeWhile (· ≠ '"'), decide (d ≠ '"') = true := fun d hd =>
    mem_takeWhile text hd
  unfold Stands
  cases closed : text.dropWhile (· ≠ '"') with
  | nil =>
    have whole : cutString c text =
        (.bad .unterminatedString (c :: text.takeWhile (· ≠ '"')), []) := by
      rw [cutString, closed]
    rw [whole]
    rintro rfl
    have stop : ∀ d ∈ ([] : List Char).head?, decide (d ≠ '"') = false := by simp
    obtain ⟨taken, dropped⟩ := takeWhile_append_stop inside stop
    show cutString c (text.takeWhile (· ≠ '"') ++ []) = _
    rw [cutString, taken, dropped]
  | cons quote rest =>
    have whole : cutString c text =
        (.string (c :: (text.takeWhile (· ≠ '"') ++ [quote])), rest) := by
      rw [cutString, closed]
    have stop : ∀ d ∈ (quote :: after').head?, decide (d ≠ '"') = false := by
      rintro _ ⟨⟩
      exact head?_dropWhile text (· ≠ '"') quote (by rw [closed]; rfl)
    obtain ⟨taken, dropped⟩ := takeWhile_append_stop inside stop
    rw [whole]
    intro _
    show cutString c (text.takeWhile (· ≠ '"') ++ [quote] ++ after') = _
    rw [List.append_assoc, List.singleton_append, cutString, taken, dropped]

/-- A point and a digit begin a fraction. -/
theorem cutFraction_some {d : Char} {rest : List Char} (h : isDigit d = true) :
    cutFraction ('.' :: d :: rest) =
      ('.' :: d :: rest.takeWhile isDigit, rest.dropWhile isDigit) :=
  if_pos h

/-- Without a digit after the point there is no fraction. -/
theorem cutFraction_none {text : List Char}
    (h : ∀ d rest, text = '.' :: d :: rest → isDigit d = false) : cutFraction text = ([], text) := by
  unfold cutFraction
  split
  · next d rest => rw [if_neg (by simp [h d rest rfl])]
  · rfl

/-- The number goes on neither with a digit nor with a fraction. -/
theorem Follows.no_fraction {text rest : List Char} (h : Follows text rest)
    (none : ∀ d more, text = '.' :: d :: more → isDigit d = false) :
    ∀ d more, rest = '.' :: d :: more → isDigit d = false := by
  rintro d more rfl
  cases h with
  | blank hc => cases hc
  | same h =>
    cases h with
    | blank hd => exact not_isDigit_of_isBlank hd
    | same => exact none d _ rfl

/-- A fraction stands before a text that goes on as the one behind it did. -/
theorem cutFraction_stands (h : Follows (cutFraction text).2 after') :
    cutFraction ((cutFraction text).1 ++ after') = ((cutFraction text).1, after') := by
  by_cases some : ∃ d rest, text = '.' :: d :: rest ∧ isDigit d = true
  · obtain ⟨d, rest, rfl, digit⟩ := some
    rw [cutFraction_some digit] at h ⊢
    obtain ⟨taken, dropped⟩ := takeWhile_append_stop (fun d hd => mem_takeWhile rest hd)
      (h.head_digit (head?_dropWhile rest isDigit))
    rw [List.cons_append, List.cons_append, cutFraction_some digit, taken, dropped]
  · have none : ∀ d rest, text = '.' :: d :: rest → isDigit d = false := fun d rest whole =>
      Bool.eq_false_iff.mpr fun digit => some ⟨d, rest, whole, digit⟩
    rw [cutFraction_none none] at h ⊢
    exact cutFraction_none (h.no_fraction none)

/-- No digit stands in front of a fraction or of what follows it. -/
theorem head_cutFraction (h : Follows (cutFraction text).2 after')
    (first : ∀ d ∈ text.head?, isDigit d = false) :
    ∀ d ∈ ((cutFraction text).1 ++ after').head?, isDigit d = false := by
  have whole := cutFraction_append text
  cases fraction : (cutFraction text).1 with
  | nil =>
    rw [fraction, List.nil_append] at whole
    rw [whole] at h
    exact h.head_digit first
  | cons d more =>
    rw [fraction] at whole
    rw [← whole] at first
    exact first

/-- The piece of a number's spelling. -/
def numeral (text : List Char) : Piece :=
  match Decimal.read? text with
  | some value => .number value text
  | none => .bad (.invalidNumber (String.ofList text)) text

theorem text_numeral : (numeral text).text = text := by
  unfold numeral
  split <;> rfl

theorem ends_numeral {after : List Char} :
    (numeral text).Ends after after' ↔ Follows after after' := by
  unfold numeral
  split <;> rfl

/-- A number takes digits and then a fraction. -/
theorem cutNumber_eq : cutNumber c text =
    (numeral (c :: (text.takeWhile isDigit ++ (cutFraction (text.dropWhile isDigit)).1)),
      (cutFraction (text.dropWhile isDigit)).2) := by
  unfold cutNumber numeral
  dsimp only
  cases Decimal.read? _ <;> rfl

/-- A number stands. -/
theorem stands_cutNumber : Stands after' (cutNumber c) text := by
  unfold Stands
  rw [cutNumber_eq c text]
  dsimp only
  rw [ends_numeral, text_numeral, List.tail_cons, List.append_assoc]
  intro follows
  obtain ⟨taken, dropped⟩ := takeWhile_append_stop (fun d hd => mem_takeWhile text hd)
    (head_cutFraction after' _ follows (head?_dropWhile text isDigit))
  rw [cutNumber_eq, taken, dropped, cutFraction_stands after' _ follows]

/-- A word stands: a blank ends it as well as what ended it before. -/
theorem stands_cutWord : Stands after' (cutWord c) text := by
  intro follows
  obtain ⟨taken, dropped⟩ := takeWhile_append_stop (fun d hd => mem_takeWhile text hd)
    (Follows.head follows (fun _ => not_isWordPart_of_isBlank) (head?_dropWhile text isWordPart))
  show cutWord c (text.takeWhile isWordPart ++ after') = _
  rw [cutWord, taken, dropped]
  rfl

/-- Only the character decides what is cut. -/
theorem stands_cutFirst : Stands after' (cutFirst c) text := by
  cases single : single? c with
  | some kind =>
    have whole : cutFirst c = fun rest => (.symbol kind [c], rest) := by
      funext rest
      rw [cutFirst, single]
    rw [whole]
    exact fun _ => rfl
  | none =>
  cases extensible : extensible? c with
  | some kinds =>
    have whole : cutFirst c = cutExtensible c kinds.1 kinds.2 := by
      funext rest
      rw [cutFirst, single, extensible]
    rw [whole]
    exact stands_cutExtensible after' c text kinds.1 kinds.2
  | none =>
  have whole : cutFirst c = fun rest =>
      if c = '/' then cutSlash c rest
      else if isBlank c then (.blank c, rest)
      else if c = '"' then cutString c rest
      else if isDigit c then cutNumber c rest
      else if isWordStart c then cutWord c rest
      else (.bad (.unexpectedCharacter c) [c], rest) := by
    funext rest
    rw [cutFirst, single, extensible]
  rw [whole]
  by_cases slash : c = '/'
  · simp only [if_pos slash]
    exact stands_cutSlash after' c text
  by_cases blank : isBlank c = true
  · simp only [if_neg slash, if_pos blank]
    exact fun _ => rfl
  by_cases quote : c = '"'
  · simp only [if_neg slash, if_neg blank, if_pos quote]
    exact stands_cutString after' c text
  by_cases digit : isDigit c = true
  · simp only [if_neg slash, if_neg blank, if_neg quote, if_pos digit]
    exact stands_cutNumber after' c text
  by_cases start : isWordStart c = true
  · simp only [if_neg slash, if_neg blank, if_neg quote, if_neg digit, if_pos start]
    exact stands_cutWord after' c text
  · simp only [if_neg slash, if_neg blank, if_neg quote, if_neg digit, if_neg start]
    exact fun _ => rfl

end First

/-- The first piece ends where it does also in front of the other text. -/
theorem cut_of_ends {c : Char} {text after' : List Char}
    (ends : (cutFirst c text).1.Ends (cutFirst c text).2 after') :
    cut ((cutFirst c text).1.text ++ after') = (cutFirst c text).1 :: cut after' := by
  obtain ⟨tail, starts, -⟩ := covers_cutFirst c text
  have stands := stands_cutFirst after' c text ends
  rw [starts, List.tail_cons] at stands
  rw [starts, List.cons_append, cut_cons, stands]

end Lox.Source
