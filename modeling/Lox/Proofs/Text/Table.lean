import Lox.Text.CharSet

/-!
What holds of every word of a table. The kernel does not get far with the characters of a string, so
a table is checked on lists of them, in one pass and from left to right.
-/

namespace Lox.Text

/-- Every word satisfies the condition. `word` is what is known of the first one, in reverse. -/
def checkWords (p : List Char → Bool) (word : List Char) : List Char → Bool
  | [] => word.isEmpty || p word.reverse
  | c :: rest =>
    if c = ' ' then (word.isEmpty || p word.reverse) && checkWords p [] rest
    else checkWords p (c :: word) rest

variable {p : List Char → Bool}

/-- The words from a place on are as the condition wants them, the first together with what stands
of it before that place. -/
def Checked (p : List Char → Bool) (word : List Char) (read : List Char × List (List Char)) : Prop :=
  (word.reverse ++ read.1 = [] ∨ p (word.reverse ++ read.1) = true) ∧ ∀ w ∈ read.2, p w = true

theorem Checked.forall {read : List Char × List (List Char)} (h : Checked p [] read) :
    ∀ w ∈ if read.1.isEmpty then read.2 else read.1 :: read.2, p w = true := by
  obtain ⟨word, words⟩ := read
  cases word with
  | nil => exact h.2
  | cons c word => exact List.forall_mem_cons.mpr ⟨h.1.resolve_left nofun, h.2⟩

theorem checked_foldr {word text : List Char} (h : checkWords p word text = true) :
    Checked p word (text.foldr wordsOf.step ([], [])) := by
  induction text generalizing word with
  | nil =>
    rw [checkWords, Bool.or_eq_true, List.isEmpty_iff] at h
    exact ⟨by simpa using h, nofun⟩
  | cons c rest ih =>
    rw [checkWords] at h
    rw [List.foldr_cons, wordsOf.step]
    by_cases blank : c = ' '
    · rw [if_pos blank, Bool.and_eq_true, Bool.or_eq_true, List.isEmpty_iff] at h
      rw [if_pos blank]
      exact ⟨by simpa using h.1, (ih h.2).forall⟩
    · rw [if_neg blank] at h
      have further := ih h
      rw [Checked, List.reverse_cons, List.append_assoc] at further
      rw [if_neg blank]
      exact further

theorem forall_wordsOf {line : List Char} (h : checkWords p [] line = true) :
    ∀ w ∈ wordsOf (String.ofList line), p w = true := by
  have words := (checked_foldr h).forall
  rw [wordsOf, String.toList_ofList]
  revert words
  rcases line.foldr wordsOf.step ([], []) with ⟨_ | ⟨c, word⟩, words⟩ <;> exact id

/-- Every word of the lines satisfies the condition. -/
def EveryWord (p : List Char → Bool) (lines : List String) : Prop :=
  ∀ w ∈ lines.flatMap wordsOf, p w = true

/-- The lines, each with its characters. -/
inductive Spelled : List String → List (List Char) → Prop where
  | nil : Spelled [] []
  | cons {line : List Char} {lines : List String} {spelled : List (List Char)} :
      Spelled lines spelled → Spelled (String.ofList line :: lines) (line :: spelled)

theorem everyWord_of_spelled {lines : List String} {spelled : List (List Char)}
    (h : Spelled lines spelled) (check : spelled.all (checkWords p []) = true) :
    EveryWord p lines := by
  induction h with
  | nil => nofun
  | cons h ih =>
    rw [List.all_cons, Bool.and_eq_true] at check
    rw [EveryWord, List.flatMap_cons, List.forall_mem_append]
    exact ⟨forall_wordsOf check.1, ih check.2⟩

end Lox.Text
