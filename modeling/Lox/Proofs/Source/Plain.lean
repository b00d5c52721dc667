import Lox.Proofs.Source.Regular
import Lox.Proofs.Text.Normal

/-!
Lexemes of words are plain. Normalization may make of a word what is no word, but it never gives a
character of ASCII that words do not have, nor digits alone.
-/

namespace Lox.Source

open Text

/-- The character is one of a word, or not of ASCII. -/
def IsPlain (c : Char) : Prop := 128 ≤ c.toNat ∨ isWordPart c = true

/-! ### Characters -/

theorem isDigit_of_far {c : Char} (h : 128 ≤ c.toNat) : isDigit c = false := by
  rw [← Bool.not_eq_true, isDigit_iff]
  omega

theorem toNat_ofNat {n : Nat} (h : isFar n = true) : (Char.ofNat n).toNat = n ∧ 128 ≤ n := by
  simp only [isFar, Nat.blt, Bool.and_eq_true, Bool.or_eq_true, Nat.ble_eq] at h
  have valid : n.isValidChar := by
    unfold Nat.isValidChar
    omega
  refine ⟨?_, h.1⟩
  rw [Char.ofNat, dif_pos valid]
  rfl

theorem far_ofNat {n : Nat} (low : 128 ≤ n) (high : n < 0xD800) : 128 ≤ (Char.ofNat n).toNat := by
  have far : isFar n = true := by
    simp only [isFar, Nat.blt, Bool.and_eq_true, Bool.or_eq_true, Nat.ble_eq]
    omega
  rwa [(toNat_ofNat far).1]

/-- Whatever the character comes apart into is plain. -/
def IsSteady (c : Char) : Prop := IsPlain c ∧ c.toNat ∉ exceptions

/-- What stands in a word does not turn into anything else when it is taken apart. -/
theorem isSteady_of_isWordPart {c : Char} (h : isWordPart c = true) : IsSteady c := by
  refine ⟨.inr h, fun exception => ?_⟩
  have far : ∀ n ∈ exceptions, 128 ≤ n := by decide
  have far := far _ exception
  have low : c ≠ '_' := by
    rintro rfl
    exact absurd far (by decide)
  have notLetter : isLetter c = false := by
    rw [isLetter, if_neg (Nat.not_lt.mpr far), clear_letters exception]
  have notMark : isMark c = false := by
    rw [isMark, clear_nonspacingMarks exception, Bool.and_false]
  simp [isWordPart, isWordStart, low, notLetter, notMark, isDigit_of_far far] at h

/-! ### What characters come apart into -/

/-- Every step of taking apart is regular. -/
def Regular (step? : Char → Option Decomposition) : Prop :=
  ∀ c d, step? c = some d → isRegular d = true ∧ d.whole = c.toNat

theorem regular_decomposition? : Regular decomposition? := fun c d h =>
  ⟨regular_decompositions d (Array.mem_of_find?_eq_some h), by simpa using Array.find?_some h⟩

theorem far_second {d : Decomposition} (h : isRegular d = true) {c : Char}
    (hc : c ∈ d.second.map Char.ofNat) : 128 ≤ c.toNat := by
  simp only [isRegular, Bool.and_eq_true] at h
  obtain ⟨n, hn, rfl⟩ := Option.map_eq_some_iff.mp hc
  have far : isFar n = true := by
    have all := h.1.2
    rw [hn] at all
    exact all
  rw [(toNat_ofNat far).1]
  exact (toNat_ofNat far).2

theorem steady_first {d : Decomposition} (h : isRegular d = true) (other : d.whole ∉ exceptions) :
    IsSteady (Char.ofNat d.first) := by
  simp only [isRegular, Bool.and_eq_true, Bool.or_eq_true, Bool.not_eq_true',
    List.contains_eq_mem, decide_eq_false_iff_not, decide_eq_true_eq] at h
  obtain (⟨far, first⟩ | start) | ⟨exception, -⟩ := h.2
  · obtain ⟨same, low⟩ := toNat_ofNat far
    exact ⟨.inl (same.symm ▸ low), same.symm ▸ first⟩
  · exact isSteady_of_isWordPart (isWordPart_of_isWordStart start)
  · exact absurd exception other

theorem not_digit_first {d : Decomposition} (h : isRegular d = true) :
    isDigit (Char.ofNat d.first) = false := by
  simp only [isRegular, Bool.and_eq_true, Bool.or_eq_true, Bool.not_eq_true'] at h
  obtain (⟨far, -⟩ | start) | ⟨-, other⟩ := h.2
  · obtain ⟨same, low⟩ := toNat_ofNat far
    exact isDigit_of_far (same.symm ▸ low)
  · exact isDigit_of_isWordStart start
  · exact other

section TakeApart

variable {step? : Char → Option Decomposition} {n : Nat} {c : Char}

/-- A steady character is taken apart into plain ones, step by step. -/
theorem plain_takeApart (regular : Regular step?) (h : IsSteady c) :
    ∀ d ∈ takeApart step? n c, IsPlain d := by
  induction n generalizing c with
  | zero =>
    rw [takeApart, List.forall_mem_singleton]
    exact h.1
  | succ n ih =>
    rw [takeApart]
    cases step : step? c with
    | none =>
      rw [List.forall_mem_singleton]
      exact h.1
    | some d =>
      obtain ⟨fine, whole⟩ := regular c d step
      have first : IsSteady (Char.ofNat d.first) := steady_first fine (by rw [whole]; exact h.2)
      rw [List.forall_mem_append]
      exact ⟨ih first, fun e he => .inl (far_second fine (Option.mem_toList.mp he))⟩

/-- What is no digit is not taken apart into digits alone. -/
theorem not_digit_takeApart (regular : Regular step?) (h : isDigit c = false) :
    ∃ d ∈ takeApart step? n c, isDigit d = false := by
  induction n generalizing c with
  | zero => exact ⟨c, List.mem_singleton_self c, h⟩
  | succ n ih =>
    rw [takeApart]
    cases step : step? c with
    | none => exact ⟨c, List.mem_singleton_self c, h⟩
    | some d =>
      obtain ⟨e, he, other⟩ := ih (not_digit_first (regular c d step).1)
      exact ⟨e, List.mem_append_left _ he, other⟩

end TakeApart

theorem far_parts? {c : Char} {parts : List Char} (h : Hangul.parts? c = some parts) :
    parts ≠ [] ∧ ∀ d ∈ parts, 128 ≤ d.toNat := by
  have far (n : Nat) (h : n < Hangul.leads * Hangul.vowels * Hangul.trails) :
      128 ≤ (Char.ofNat (Hangul.firstLead + n / (Hangul.vowels * Hangul.trails))).toNat ∧
      128 ≤ (Char.ofNat (Hangul.firstVowel +
        n % (Hangul.vowels * Hangul.trails) / Hangul.trails)).toNat ∧
      128 ≤ (Char.ofNat (Hangul.noTrail + n % Hangul.trails)).toNat := by
    unfold Hangul.leads Hangul.vowels Hangul.trails at *
    unfold Hangul.firstLead Hangul.firstVowel Hangul.noTrail
    exact ⟨far_ofNat (by omega) (by omega), far_ofNat (by omega) (by omega),
      far_ofNat (by omega) (by omega)⟩
  unfold Hangul.parts? at h
  dsimp only at h
  split at h
  · next inside =>
    obtain ⟨lead, vowel, trail⟩ := far _ inside.2
    split at h
    all_goals
      obtain rfl := Option.some.inj h
      simp [lead, vowel, trail]
  · cases h

/-- A steady character decomposes into plain ones. -/
theorem plain_decompose {c : Char} (h : IsSteady c) : ∀ d ∈ decompose c, IsPlain d := by
  unfold decompose
  split
  · next parts hangul => exact fun d hd => .inl ((far_parts? hangul).2 d hd)
  · exact plain_takeApart regular_decomposition? h

/-- What is no digit does not decompose into digits alone. -/
theorem not_digit_decompose {c : Char} (h : isDigit c = false) :
    ∃ d ∈ decompose c, isDigit d = false := by
  unfold decompose
  split
  · next parts hangul =>
    obtain ⟨nonempty, far⟩ := far_parts? hangul
    obtain ⟨d, hd⟩ := List.exists_mem_of_ne_nil parts nonempty
    exact ⟨d, hd, isDigit_of_far (far d hd)⟩
  · exact not_digit_takeApart regular_decomposition? h

/-! ### What is put together -/

theorem far_compose? {a b whole : Char} (h : Hangul.compose? a b = some whole) :
    128 ≤ whole.toNat := by
  unfold Hangul.compose? at h
  dsimp only at h
  split at h
  · next inside =>
    obtain ⟨-, lead, vowel⟩ := inside
    rw [Hangul.isVowel, Bool.and_eq_true, decide_eq_true_eq, decide_eq_true_eq] at vowel
    obtain rfl := Option.some.inj h
    unfold Hangul.firstVowel Hangul.firstLead Hangul.leads Hangul.vowels Hangul.trails
      Hangul.firstSyllable at *
    exact far_ofNat (by omega) (by omega)
  · split at h
    · next inside =>
      obtain ⟨low, high, -, trail⟩ := inside
      rw [Hangul.isTrail, Bool.and_eq_true, decide_eq_true_eq, decide_eq_true_eq] at trail
      obtain rfl := Option.some.inj h
      unfold Hangul.firstSyllable Hangul.leads Hangul.vowels Hangul.trails Hangul.noTrail at *
      exact far_ofNat (by omega) (by omega)
    · cases h

/-- What is put together lies outside of ASCII. -/
theorem far_makes {a b whole : Char} (h : Makes a b whole) : 128 ≤ whole.toNat := by
  obtain h | h := h
  · obtain ⟨d, hd, rfl⟩ := Option.map_eq_some_iff.mp h
    have mem : d ∈ compositions := Array.mem_of_find?_eq_some hd
    have regular := regular_decompositions d (Array.mem_filter.mp mem).1
    simp only [isRegular, Bool.and_eq_true] at regular
    obtain ⟨same, far⟩ := toNat_ofNat regular.1.1
    rwa [same]
  · exact far_compose? h

/-- The normal form of a word has plain characters only, and not digits alone. -/
theorem plain_normalize {w : List Char} (h : IsWord w) :
    (∀ c ∈ normalize w, IsPlain c) ∧ ∃ c ∈ normalize w, isDigit c = false := by
  cases w with
  | nil => cases h
  | cons c rest =>
    obtain ⟨start, more⟩ := h
    have parts : ∀ d ∈ c :: rest, IsSteady d := List.forall_mem_cons.mpr
      ⟨isSteady_of_isWordPart (isWordPart_of_isWordStart start),
        fun d hd => isSteady_of_isWordPart (more d hd)⟩
    obtain ⟨ds, apart, together⟩ := normalForm (c :: rest)
    constructor
    · have plain := apart.all parts (fun _ h => h.1) (fun _ => plain_decompose) (.inl (by decide))
      exact together.all plain fun _ _ _ makes => .inl (far_makes makes)
    · have other := apart.any ⟨c, List.mem_cons_self, isDigit_of_isWordStart start⟩
        fun _ => not_digit_decompose
      exact together.any other fun _ _ _ makes => isDigit_of_far (far_makes makes)

end Lox.Source
