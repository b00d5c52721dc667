import Lox.Proofs.Source.Cut

/-!
What the first piece of a text can be, with the characters that it takes and those that it leaves.
-/

namespace Lox.Source

/-- What the first piece of a text can be, with the text behind it. -/
inductive First (c : Char) (rest : List Char) : Piece × List Char → Prop where
  | symbol {kind : Token.Kind} {after : List Char} : kind ∈ closedSymbols ++ openSymbols →
      c :: rest = kind.name.toList ++ after → (kind = .slash → after.head? ≠ some '/') →
        First c rest (.symbol kind kind.name.toList, after)
  | comment {body after : List Char} : c = '/' → rest = '/' :: (body ++ after) → '\n' ∉ body →
      (∀ d ∈ after.head?, d = '\n') → First c rest (.comment ('/' :: '/' :: body), after)
  | blank : isBlank c = true → First c rest (.blank c, rest)
  | string {body after : List Char} : c = '"' → rest = body ++ '"' :: after → '"' ∉ body →
      First c rest (.string ('"' :: (body ++ ['"'])), after)
  | unterminated : c = '"' → '"' ∉ rest →
      First c rest (.bad .unterminatedString ('"' :: rest), [])
  | number {x : Float} {more after : List Char} : rest = more ++ after →
      (∀ d ∈ c :: more, isDigit d = true ∨ d = '.') → Decimal.read? (c :: more) = some x →
        First c rest (.number x (c :: more), after)
  | invalid {more after : List Char} : rest = more ++ after →
      (∀ d ∈ c :: more, isDigit d = true ∨ d = '.') → Decimal.read? (c :: more) = none →
        First c rest (.bad (.invalidNumber (String.ofList (c :: more))) (c :: more), after)
  | word {more after : List Char} : rest = more ++ after → IsWord (c :: more) →
      First c rest (.word (c :: more), after)
  | unexpected : isBlank c = false → c ≠ '/' →
      First c rest (.bad (.unexpectedCharacter c) [c], rest)

section First

variable (c : Char) (rest : List Char)

theorem first_cutExtensible {k l : Token.Kind} (h : extensible? c = some (k, l)) :
    First c rest (cutExtensible c k l rest) := by
  have known : (k ∈ closedSymbols ++ openSymbols ∧ [c] = k.name.toList ∧ k ≠ .slash) ∧
      l ∈ closedSymbols ++ openSymbols ∧ [c, '='] = l.name.toList ∧ l ≠ .slash := by
    unfold extensible? at h
    split at h <;> cases h <;> decide
  obtain ⟨⟨hk, kname, kslash⟩, hl, lname, lslash⟩ := known
  unfold cutExtensible
  split
  · rw [lname]
    exact .symbol hl (by rw [← lname]; rfl) fun slash => absurd slash lslash
  · rw [kname]
    exact .symbol hk (by rw [← kname]; rfl) fun slash => absurd slash kslash

theorem first_cutSlash (h : c = '/') : First c rest (cutSlash c rest) := by
  subst h
  unfold cutSlash
  split
  · next second =>
    obtain ⟨tail, rfl⟩ := List.head?_eq_some_iff.mp second
    rw [List.takeWhile_cons_of_pos (by decide), List.dropWhile_cons_of_pos (by decide)]
    refine .comment rfl (by rw [List.takeWhile_append_dropWhile]) (fun mem => ?_) fun d hd => ?_
    · have other := List.all_eq_true.mp List.all_takeWhile _ mem
      simp at other
    · have other := List.head?_dropWhile_not (· ≠ '\n') tail
      rw [hd] at other
      simpa using other
  · next second =>
    have known : Token.Kind.slash ∈ closedSymbols ++ openSymbols := by decide
    exact .symbol known rfl fun _ => second

/-- A string, closed or not, starts with a quote. -/
theorem first_cutString (h : c = '"') : First c rest (cutString c rest) := by
  subst h
  have whole : rest.takeWhile (· ≠ '"') ++ rest.dropWhile (· ≠ '"') = rest :=
    List.takeWhile_append_dropWhile
  have inner : '"' ∉ rest.takeWhile (· ≠ '"') := by
    intro mem
    have other := List.all_eq_true.mp List.all_takeWhile _ mem
    simp at other
  unfold cutString
  dsimp only
  split
  · next closed =>
    rw [closed, List.append_nil] at whole
    rw [whole] at inner ⊢
    exact .unterminated rfl inner
  · next quote tail closed =>
    have hquote : quote = '"' := by
      have other := List.head?_dropWhile_not (· ≠ '"') rest
      rw [closed] at other
      simpa using other
    subst hquote
    exact .string rfl (by rw [← closed, whole]) inner

/-- A fraction holds digits and a point. -/
theorem numeral_cutFraction (text : List Char) :
    ∀ d ∈ (cutFraction text).1, isDigit d = true ∨ d = '.' := by
  unfold cutFraction
  split
  · next d tail =>
    split
    · next digit =>
      simp only [List.forall_mem_cons]
      exact ⟨.inr trivial, .inl digit, fun e he => .inl (List.all_eq_true.mp List.all_takeWhile e he)⟩
    · nofun
  · nofun

theorem first_cutNumber (h : isDigit c = true) : First c rest (cutNumber c rest) := by
  have whole : rest = rest.takeWhile isDigit ++ (cutFraction (rest.dropWhile isDigit)).1
      ++ (cutFraction (rest.dropWhile isDigit)).2 := by
    rw [List.append_assoc, cutFraction_append, List.takeWhile_append_dropWhile]
  have numeral : ∀ d ∈ c :: (rest.takeWhile isDigit ++ (cutFraction (rest.dropWhile isDigit)).1),
      isDigit d = true ∨ d = '.' := by
    simp only [List.forall_mem_cons, List.forall_mem_append]
    exact ⟨.inl h, fun d hd => .inl (List.all_eq_true.mp List.all_takeWhile d hd),
      numeral_cutFraction _⟩
  unfold cutNumber
  dsimp only
  split
  · next read => exact .number whole numeral read
  · next unread => exact .invalid whole numeral unread

/-- The first piece is of the kind that the first character says. -/
theorem first_cutFirst : First c rest (cutFirst c rest) := by
  unfold cutFirst
  split
  · next kind single =>
    have known : kind ∈ closedSymbols ++ openSymbols ∧ [c] = kind.name.toList ∧
        kind ≠ .slash := by
      unfold single? at single
      split at single <;> cases single <;> decide
    obtain ⟨hkind, name, slash⟩ := known
    rw [name]
    exact .symbol hkind (by rw [← name]; rfl) fun h => absurd h slash
  · next extensible => exact first_cutExtensible c rest extensible
  split
  · next slash => exact first_cutSlash c rest slash
  next slash =>
  split
  · next blank => exact .blank blank
  next blank =>
  split
  · next quote => exact first_cutString c rest quote
  split
  · next digit => exact first_cutNumber c rest digit
  split
  · next start =>
    exact .word List.takeWhile_append_dropWhile.symm
      ⟨start, fun d hd => List.all_eq_true.mp List.all_takeWhile d hd⟩
  · exact .unexpected (Bool.eq_false_iff.mpr blank) slash

end First

/-- The first piece and what is left make up the text. -/
theorem First.append {c : Char} {rest : List Char} {first : Piece × List Char}
    (h : First c rest first) : first.1.text ++ first.2 = c :: rest := by
  cases h with
  | symbol _ whole _ => exact whole.symm
  | comment hc whole _ _ | string hc whole _ =>
    subst hc whole
    simp [Piece.text]
  | blank | unexpected => rfl
  | unterminated hc _ =>
    subst hc
    exact List.append_nil _
  | number whole | invalid whole | word whole =>
    subst whole
    rfl

end Lox.Source
