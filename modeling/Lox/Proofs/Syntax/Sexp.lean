import Lox.Proofs.Source.Cut

/-!
Parenthesised text as data: words, quoted texts and lists in parentheses. A text ends where its
parentheses and quotes say, so the text of one says what it is the text of.
-/

namespace Lox

inductive Sexp where
  | atom (text : String)
  | quoted (body : String)
  | list (items : List Sexp)

namespace Sexp

/-- What ends a word. -/
def isDelimiter (c : Char) : Bool := c = ' ' || c = '(' || c = ')' || c = '"' || c = '\n'

mutual

def chars : Sexp → List Char
  | .atom text => text.toList
  | .quoted body => '"' :: (body.toList ++ ['"'])
  | .list [] => ['(', ')']
  | .list (first :: rest) => '(' :: (first.chars ++ (behind rest ++ [')']))

/-- What stands behind the first item of a list. -/
def behind : List Sexp → List Char
  | [] => []
  | item :: rest => ' ' :: (item.chars ++ behind rest)

end

/-- The items on the lines behind the first, or on the same line, by the character between them. -/
def spread (between : Char) (items : List Sexp) : List Char :=
  items.flatMap fun item => between :: item.chars

theorem behind_eq (items : List Sexp) : behind items = spread ' ' items := by
  induction items with
  | nil => rfl
  | cons item rest ih =>
    rw [behind, ih]
    rfl

theorem chars_cons (first : Sexp) (rest : List Sexp) :
    (list (first :: rest)).chars = '(' :: (first.chars ++ (spread ' ' rest ++ [')'])) := by
  rw [chars, behind_eq]

/-- Words are words, and there are no quotes between quotes. -/
inductive Sound : Sexp → Prop where
  | atom {text : String} : text.toList ≠ [] → (∀ c ∈ text.toList, isDelimiter c = false) →
      Sound (.atom text)
  | quoted {body : String} : '"' ∉ body.toList → Sound (.quoted body)
  | list {items : List Sexp} : (∀ item ∈ items, item.Sound) → Sound (.list items)

/-- No word goes on into the text. -/
def Ended (text : List Char) : Prop := ∀ c ∈ text.head?, isDelimiter c = true

/-- What is written first in a text can be told from the text, and so can what is behind it. -/
def Readable (s : Sexp) : Prop :=
  ∀ (t : Sexp) (rest rest' : List Char), t.Sound → Ended rest → Ended rest' →
    s.chars ++ rest = t.chars ++ rest' → s = t ∧ rest = rest'

/-! ### Reading -/

section Stop

variable {p : Char → Bool} {a b rest rest' : List Char}

/-- What stops in front of the first character without a property stops in the same place. -/
theorem append_inj_of_stop (ha : ∀ c ∈ a, p c = true) (hb : ∀ c ∈ b, p c = true)
    (stop : ∀ c ∈ rest.head?, p c = false) (stop' : ∀ c ∈ rest'.head?, p c = false)
    (h : a ++ rest = b ++ rest') : a = b ∧ rest = rest' := by
  obtain ⟨taken, dropped⟩ := Source.takeWhile_append_stop ha stop
  obtain ⟨taken', dropped'⟩ := Source.takeWhile_append_stop hb stop'
  rw [← h] at taken' dropped'
  exact ⟨taken.symm.trans taken', dropped.symm.trans dropped'⟩

end Stop

variable {s t : Sexp} {items items' : List Sexp} {rest rest' : List Char}

/-- What a text starts with tells words, quotes and parentheses apart. -/
theorem Sound.head (h : s.Sound) : ∃ c tail, s.chars = c :: tail ∧
    match s with
    | .atom _ => isDelimiter c = false
    | .quoted _ => c = '"'
    | .list _ => c = '(' := by
  cases h with
  | @atom text nonempty other =>
    obtain ⟨c, tail, whole⟩ := List.exists_cons_of_ne_nil nonempty
    exact ⟨c, tail, by rw [chars, whole], other c (by rw [whole]; exact List.mem_cons_self)⟩
  | quoted => exact ⟨'"', _, by rw [chars], rfl⟩
  | @list items =>
    cases items with
    | nil => exact ⟨'(', _, by rw [chars], rfl⟩
    | cons => exact ⟨'(', _, by rw [chars], rfl⟩

theorem Sound.head_ne_close (h : s.Sound) : (s.chars ++ rest).head? ≠ some ')' := by
  obtain ⟨c, tail, starts, kind⟩ := h.head
  rw [starts]
  rintro ⟨⟩
  cases h <;> cases kind

/-- Both are words, or quoted texts, or lists. -/
def SameForm : Sexp → Sexp → Prop
  | .atom _, .atom _ | .quoted _, .quoted _ | .list _, .list _ => True
  | _, _ => False

theorem Sound.sameForm (hs : s.Sound) (ht : t.Sound) (h : s.chars ++ rest = t.chars ++ rest') :
    SameForm s t := by
  obtain ⟨c, tail, starts, kind⟩ := hs.head
  obtain ⟨c', tail', starts', kind'⟩ := ht.head
  rw [starts, starts', List.cons_append, List.cons_append] at h
  obtain rfl : c = c' := (List.cons.inj h).1
  cases s <;> cases t <;> first | trivial | (subst kind; cases kind') | (subst kind'; cases kind)

theorem ended_spread {between : Char} (delimits : isDelimiter between = true) (ended : Ended rest) :
    Ended (spread between items ++ rest) := by
  cases items with
  | nil => exact ended
  | cons item items =>
    rintro _ ⟨⟩
    exact delimits

/-- Sequences of items are told apart if the items are, and nothing like a further item follows. -/
theorem spread_append_inj {between : Char} (delimits : isDelimiter between = true)
    (readable : ∀ item ∈ items, item.Readable) (sound : ∀ item ∈ items', item.Sound)
    (ended : Ended rest) (ended' : Ended rest') (other : rest.head? ≠ some between)
    (other' : rest'.head? ≠ some between)
    (h : spread between items ++ rest = spread between items' ++ rest') :
    items = items' ∧ rest = rest' := by
  have cons (item : Sexp) (items : List Sexp) (rest : List Char) :
      spread between (item :: items) ++ rest =
        between :: (item.chars ++ (spread between items ++ rest)) := by
    simp [spread]
  -- item by item: each ends where a delimiter stands, in both texts
  induction items generalizing items' with
  | nil =>
    cases items' with
    | nil => exact ⟨rfl, h⟩
    | cons item' items' =>
      rw [cons] at h
      exact absurd (congrArg List.head? h) other
  | cons item items ih =>
    cases items' with
    | nil =>
      rw [cons] at h
      exact absurd (congrArg List.head? h.symm) other'
    | cons item' items' =>
      rw [cons, cons] at h
      obtain ⟨readable, more⟩ := List.forall_mem_cons.mp readable
      obtain ⟨sound, sounds⟩ := List.forall_mem_cons.mp sound
      obtain ⟨rfl, next⟩ := readable item' _ _ sound (ended_spread delimits ended)
        (ended_spread delimits ended') (List.cons.inj h).2
      obtain ⟨rfl, last⟩ := ih more sounds next
      exact ⟨rfl, last⟩

theorem readable_list (sound : ∀ item ∈ items, item.Sound)
    (readable : ∀ item ∈ items, item.Readable) : Readable (.list items) := by
  intro t rest rest' ht ended ended' h
  have same := (Sound.list sound).sameForm ht h
  cases ht with
  | atom | quoted => cases same
  | @list items' sound' =>
    -- a closing bracket ends what stands before it, and is no blank
    have close (rest : List Char) : Ended (')' :: rest) ∧ (')' :: rest).head? ≠ some ' ' :=
      ⟨by rintro _ ⟨⟩; rfl, nofun⟩
    cases items with
    | nil =>
      cases items' with
      | nil => exact ⟨rfl, (List.cons.inj (List.cons.inj h).2).2⟩
      | cons first' items' =>
        simp only [chars, List.cons_append, List.append_assoc, List.nil_append] at h
        exact absurd (congrArg List.head? (List.cons.inj h).2.symm)
          (sound' first' List.mem_cons_self).head_ne_close
    | cons first items =>
      cases items' with
      | nil =>
        simp only [chars, List.cons_append, List.append_assoc, List.nil_append] at h
        exact absurd (congrArg List.head? (List.cons.inj h).2)
          (sound first List.mem_cons_self).head_ne_close
      | cons first' items' =>
        simp only [chars_cons, List.cons_append, List.append_assoc, List.nil_append] at h
        obtain ⟨readable, more⟩ := List.forall_mem_cons.mp readable
        obtain ⟨sound', sounds'⟩ := List.forall_mem_cons.mp sound'
        -- the first item stands without a blank, and the others behind one each
        obtain ⟨rfl, next⟩ := readable first' _ _ sound' (ended_spread rfl (close rest).1)
          (ended_spread rfl (close rest').1) (List.cons.inj h).2
        obtain ⟨rfl, last⟩ := spread_append_inj rfl more sounds' (close rest).1 (close rest').1
          (close rest).2 (close rest').2 next
        exact ⟨rfl, (List.cons.inj last).2⟩

theorem Sound.readable (h : s.Sound) : s.Readable := by
  induction h with
  | @atom text nonempty other =>
    intro t rest rest' ht ended ended' h
    have same := (Sound.atom nonempty other).sameForm ht h
    cases ht with
    | quoted | list => cases same
    | @atom text' _ other' =>
      rw [chars, chars] at h
      -- a word goes on as long as there is no delimiter
      have word {text : String} (other : ∀ c ∈ text.toList, isDelimiter c = false) :
          ∀ c ∈ text.toList, (!isDelimiter c) = true := fun c hc => by rw [other c hc]; rfl
      have stop {rest : List Char} (ended : Ended rest) :
          ∀ c ∈ rest.head?, (!isDelimiter c) = false := fun c hc => by rw [ended c hc]; rfl
      obtain ⟨texts, rests⟩ :=
        append_inj_of_stop (word other) (word other') (stop ended) (stop ended') h
      exact ⟨congrArg _ (String.toList_inj.mp texts), rests⟩
  | @quoted body inside =>
    intro t rest rest' ht ended ended' h
    have same := (Sound.quoted inside).sameForm ht h
    cases ht with
    | atom | list => cases same
    | @quoted body' inside' =>
      simp only [chars, List.cons_append, List.append_assoc, List.nil_append] at h
      -- a string goes on as long as there is no quote
      have word {body : String} (inside : '"' ∉ body.toList) :
          ∀ c ∈ body.toList, decide (c ≠ '"') = true := fun c hc =>
        decide_eq_true fun quote => inside (quote ▸ hc)
      have stop (rest : List Char) : ∀ c ∈ ('"' :: rest).head?, decide (c ≠ '"') = false := by
        rintro _ ⟨⟩
        rfl
      obtain ⟨bodies, rests⟩ :=
        append_inj_of_stop (word inside) (word inside') (stop rest) (stop rest') (List.cons.inj h).2
      exact ⟨congrArg _ (String.toList_inj.mp bodies), (List.cons.inj rests).2⟩
  | list sound ih => exact readable_list sound ih

end Sexp

end Lox
