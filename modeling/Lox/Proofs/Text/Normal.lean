import Lox.Text.Normal

/-!
What normal forms are made of. Some characters of a text are taken apart, the parts are put in
order, joiners come between them, and pairs that compose are put together: nothing else happens to a
text.
-/

namespace Lox.Text

/-! ### Taking apart -/

/-- The second text has the characters of the first, some of them taken apart, in any order and with
joiners. -/
def TakenApart (cs ds : List Char) : Prop :=
  ∃ kept used joiners, cs.Perm (kept ++ used) ∧ (∀ c ∈ joiners, c = joiner) ∧
    ds.Perm (kept ++ used.flatMap decompose ++ joiners)

namespace TakenApart

variable {cs ds : List Char} {S T : Char → Prop}

theorem refl (cs : List Char) : TakenApart cs cs :=
  ⟨cs, [], [], by simp, nofun, by simp⟩

theorem append {cs' ds' : List Char} (h : TakenApart cs ds) (h' : TakenApart cs' ds') :
    TakenApart (cs ++ cs') (ds ++ ds') := by
  obtain ⟨kept, used, joiners, whole, joiner, made⟩ := h
  obtain ⟨kept', used', joiners', whole', joiner', made'⟩ := h'
  refine ⟨kept ++ kept', used ++ used', joiners ++ joiners', ?_,
    List.forall_mem_append.mpr ⟨joiner, joiner'⟩, ?_⟩
  · refine List.perm_iff_count.mpr fun x => ?_
    simp only [List.count_append, whole.count_eq, whole'.count_eq]
    omega
  · refine List.perm_iff_count.mpr fun x => ?_
    simp only [List.flatMap_append, List.count_append, made.count_eq, made'.count_eq]
    omega

/-- What holds of all characters and is kept by taking apart holds of all parts. -/
theorem all (h : TakenApart cs ds) (all : ∀ c ∈ cs, S c) (kept : ∀ c, S c → T c)
    (parts : ∀ c, S c → ∀ d ∈ decompose c, T d) (joins : T joiner) : ∀ d ∈ ds, T d := by
  obtain ⟨keep, used, joiners, whole, joiner, made⟩ := h
  intro d hd
  have all (c : Char) (hc : c ∈ keep ++ used) : S c := all c (whole.mem_iff.mpr hc)
  rw [made.mem_iff, List.mem_append, List.mem_append, List.mem_flatMap] at hd
  obtain (hd | ⟨c, hc, hd⟩) | hd := hd
  · exact kept d (all d (List.mem_append_left _ hd))
  · exact parts c (all c (List.mem_append_right _ hc)) d hd
  · rw [joiner d hd]
    exact joins

/-- What holds of some character and of some of its parts holds of some part. -/
theorem any (h : TakenApart cs ds) (some : ∃ c ∈ cs, S c)
    (parts : ∀ c, S c → ∃ d ∈ decompose c, S d) : ∃ d ∈ ds, S d := by
  obtain ⟨keep, used, joiners, whole, -, made⟩ := h
  obtain ⟨c, hc, hS⟩ := some
  simp only [made.mem_iff, List.mem_append, List.mem_flatMap]
  obtain hc | hc := List.mem_append.mp (whole.mem_iff.mp hc)
  · exact ⟨c, .inl (.inl hc), hS⟩
  · obtain ⟨d, hd, hS⟩ := parts c hS
    exact ⟨d, .inl (.inr ⟨c, hc, hd⟩), hS⟩

end TakenApart

/-- A mark is moved to its place: no character is lost. -/
theorem perm_insertMark (c : Char) (taken : List Char) :
    (insertMark c taken).Perm (c :: taken) := by
  induction taken with
  | nil => exact .refl _
  | cons last rest ih =>
    rw [insertMark]
    split
    · exact (ih.cons last).trans (.swap c last rest)
    · exact .refl _

theorem perm_insertAll (c : Char) (taken : List Char) :
    (insertAll c taken).Perm (decompose c ++ taken) := by
  rw [insertAll]
  generalize decompose c = parts
  induction parts generalizing taken with
  | nil => exact .refl _
  | cons part parts ih =>
    rw [List.foldl_cons]
    calc (parts.foldl (fun taken part => insertMark part taken) (insertMark part taken))
        |>.Perm (parts ++ insertMark part taken) := ih _
      _ |>.Perm (parts ++ part :: taken) := (perm_insertMark part taken).append_left parts
      _ |>.Perm (part :: parts ++ taken) := List.perm_middle

/-- A segment takes characters from the start of the text, and perhaps a joiner. -/
theorem segmentFrom_takes (run : Nat) (taken cs : List Char) :
    ∃ used joiners, cs = used ++ (segmentFrom run taken cs).2 ∧ (∀ c ∈ joiners, c = joiner) ∧
      (segmentFrom run taken cs).1.Perm (used.flatMap decompose ++ joiners ++ taken) := by
  induction cs generalizing run taken with
  | nil => exact ⟨[], [], rfl, nofun, .refl _⟩
  | cons c rest ih =>
    rw [segmentFrom]
    split
    · exact ⟨[], [joiner], rfl, by simp, .refl _⟩
    split
    · exact ⟨[], [], rfl, nofun, .refl _⟩
    · obtain ⟨used, joiners, whole, joiner, made⟩ := ih (run + leadingMarks c) (insertAll c taken)
      refine ⟨c :: used, joiners, congrArg (c :: ·) whole, joiner, made.trans ?_⟩
      have parts := (perm_insertAll c taken).append_left (used.flatMap decompose ++ joiners)
      refine parts.trans ?_
      rw [List.flatMap_cons]
      refine List.perm_iff_count.mpr fun x => ?_
      simp only [List.count_append]
      omega

/-- A segment is its characters taken apart. -/
theorem takenApart_segment (run : Nat) (c : Char) (rest : List Char) :
    ∃ used, rest = used ++ (segmentFrom run (insertAll c []) rest).2 ∧
      TakenApart (c :: used) (segmentFrom run (insertAll c []) rest).1.reverse := by
  obtain ⟨used, joiners, whole, joiner, made⟩ := segmentFrom_takes run (insertAll c []) rest
  refine ⟨used, whole, [], c :: used, joiners, .refl _, joiner, ?_⟩
  refine (List.reverse_perm _).trans (made.trans (List.perm_iff_count.mpr fun x => ?_))
  simp only [List.flatMap_cons, List.count_append, (perm_insertAll c []).count_eq, List.count_nil]
  omega

/-! ### Putting together -/

/-- The two characters compose, be they Hangul or not. -/
def Makes (a b whole : Char) : Prop := composite? a b = some whole ∨ Hangul.compose? a b = some whole

/-- The second text comes from the first by composing pairs, in any order. -/
inductive PutTogether : List Char → List Char → Prop where
  | perm {cs ds : List Char} : cs.Perm ds → PutTogether cs ds
  | pair {cs rest ds : List Char} {a b whole : Char} : cs.Perm (a :: b :: rest) →
      Makes a b whole → PutTogether (whole :: rest) ds → PutTogether cs ds

namespace PutTogether

variable {cs ds es fs : List Char} {S : Char → Prop}

theorem of_perm (h : cs.Perm ds) (more : PutTogether ds es) : PutTogether cs es := by
  cases more with
  | perm h' => exact .perm (h.trans h')
  | pair h' makes more => exact .pair (h.trans h') makes more

theorem trans (h : PutTogether cs ds) (more : PutTogether ds es) : PutTogether cs es := by
  induction h with
  | perm h => exact .of_perm h more
  | pair h makes _ ih => exact .pair h makes (ih more)

theorem append_left (before : List Char) (h : PutTogether cs ds) :
    PutTogether (before ++ cs) (before ++ ds) := by
  induction h with
  | perm h => exact .perm (h.append_left before)
  | @pair cs rest ds a b whole h makes _ ih =>
    have front : (before ++ a :: b :: rest).Perm (a :: b :: (before ++ rest)) :=
      List.perm_middle.trans (List.perm_middle.cons a)
    exact .pair ((h.append_left before).trans front) makes (.of_perm List.perm_middle.symm ih)

theorem append (h : PutTogether cs ds) (h' : PutTogether es fs) :
    PutTogether (cs ++ es) (ds ++ fs) :=
  (h'.append_left cs).trans (.of_perm List.perm_append_comm
    ((h.append_left fs).trans (.perm List.perm_append_comm)))

/-- What holds of all characters and of all that are put together holds of the result. -/
theorem all (h : PutTogether cs ds) (all : ∀ c ∈ cs, S c)
    (made : ∀ a b whole, Makes a b whole → S whole) : ∀ d ∈ ds, S d := by
  induction h with
  | perm h => exact fun d hd => all d (h.mem_iff.mpr hd)
  | @pair cs rest ds a b whole h makes _ ih =>
    refine ih (List.forall_mem_cons.mpr ⟨made a b whole makes, fun c hc => all c ?_⟩)
    exact h.mem_iff.mpr (List.mem_cons_of_mem _ (List.mem_cons_of_mem _ hc))

/-- What holds of some character and of all that are put together holds of some of the result. -/
theorem any (h : PutTogether cs ds) (some : ∃ c ∈ cs, S c)
    (made : ∀ a b whole, Makes a b whole → S whole) : ∃ d ∈ ds, S d := by
  induction h with
  | perm h =>
    obtain ⟨c, hc, hS⟩ := some
    exact ⟨c, h.mem_iff.mp hc, hS⟩
  | @pair cs rest ds a b whole h makes _ ih =>
    exact ih ⟨whole, List.mem_cons_self, made a b whole makes⟩

end PutTogether

section ComposeFrom

variable {hangul : Bool} {before after rest ds : List Char} {base last c whole : Char}

theorem makes_of_if
    (h : (if hangul then Hangul.compose? base c else composite? base c) = some whole) :
    Makes base c whole := by
  split at h
  · exact .inr h
  · exact .inl h

/-- The next character composes with the base. -/
theorem PutTogether.compose (makes : Makes base c whole)
    (more : PutTogether (before ++ whole :: (after ++ rest)) ds) :
    PutTogether (before ++ base :: (after ++ c :: rest)) ds := by
  have pair : (before ++ base :: (after ++ c :: rest)).Perm
      (base :: c :: (before ++ (after ++ rest))) :=
    List.perm_iff_count.mpr fun x => by
      simp only [List.count_append, List.count_cons]
      omega
  exact .pair pair makes (.of_perm List.perm_middle.symm more)

/-- The next character is left for later. -/
theorem PutTogether.behind (more : PutTogether (before ++ base :: (c :: after ++ rest)) ds) :
    PutTogether (before ++ base :: (after ++ c :: rest)) ds :=
  .of_perm ((List.perm_middle.cons base).append_left before) more

/-- A starter becomes the base, and what stands before it is done with. -/
theorem PutTogether.advance
    (more : PutTogether (after ++ base :: before ++ last :: ([] ++ rest)) ds) :
    PutTogether (before ++ base :: (last :: after ++ rest)) ds := by
  refine .of_perm (List.perm_iff_count.mpr fun x => ?_) more
  simp only [List.count_append, List.count_cons, List.count_nil]
  omega

end ComposeFrom

theorem putTogether_composeFrom (hangul : Bool) (before : List Char) (base : Char)
    (after cs : List Char) :
    PutTogether (before ++ base :: (after ++ cs)) (composeFrom hangul before base after cs) := by
  fun_induction composeFrom hangul before base after cs with
  | case1 _ before base after =>
    rw [List.append_nil]
    exact .perm (.append before.reverse_perm.symm (after.reverse_perm.symm.cons base))
  | case2 _ _ _ _ _ _ _ _ found ih => exact .compose (makes_of_if found) ih
  | case4 _ _ _ _ _ _ _ _ _ _ _ found ih => exact .advance (.compose (makes_of_if found) ih)
  | case5 _ _ _ _ _ _ _ _ _ _ _ ih => exact .advance (.behind ih)
  | case7 _ _ _ _ _ _ _ _ _ _ _ _ found ih => exact .compose (makes_of_if found) ih
  | case3 | case6 | case8 | case9 => exact .behind ‹_›

theorem putTogether_compose (cs : List Char) : PutTogether cs (compose cs) := by
  cases cs with
  | nil => exact .perm (.refl _)
  | cons c rest => exact putTogether_composeFrom false [] c [] rest

/-! ### Normal forms -/

/-- Settling a text is taking it apart, ordering its marks and putting it together. -/
theorem normalForm_settle (cs : List Char) : ∃ ds, TakenApart cs ds ∧ PutTogether ds (settle cs) := by
  fun_induction settle cs with
  | case1 cs => exact ⟨cs, .refl cs, .perm (.refl cs)⟩
  | case2 cs n c rest whole _ segment ih =>
    obtain ⟨used, taken, first⟩ := takenApart_segment (runAfter 0 c) c rest
    obtain ⟨ds, second, together⟩ := ih
    have text : cs.take n ++ (c :: used ++ segment.2) = cs := by
      rw [List.cons_append, ← taken, ← whole, List.take_append_drop]
    have apart := (TakenApart.refl (cs.take n)).append (first.append second)
    rw [text] at apart
    refine ⟨_, apart, ?_⟩
    rw [List.append_assoc]
    exact ((putTogether_compose segment.1.reverse).append together).append_left (cs.take n)

/-- A text is taken apart and put together again. -/
theorem normalForm (cs : List Char) : ∃ ds, TakenApart cs ds ∧ PutTogether ds (normalize cs) := by
  unfold normalize
  split
  · exact ⟨cs, .refl cs, .perm (.refl cs)⟩
  · exact normalForm_settle cs

end Lox.Text
