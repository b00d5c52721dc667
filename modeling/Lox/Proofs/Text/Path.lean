import Lox.Path
import Mathlib.Data.List.Basic

/-!
Clean paths. Cleaning a path twice is cleaning it once, and what is joined to a clean directory is
in that directory.
-/

namespace Lox

/-! ### Parts between separators -/

namespace Text

variable {sep : Char}

theorem not_mem_of_mem_splitOn {text part : List Char} (mem : part ∈ splitOn sep text) :
    sep ∉ part := by
  induction text generalizing part with
  | nil =>
    rw [splitOn, List.mem_singleton] at mem
    rw [mem]
    exact List.not_mem_nil
  | cons c rest ih =>
    obtain ⟨first, parts, split⟩ := List.exists_cons_of_ne_nil (splitOn_ne_nil sep rest)
    rw [split] at ih
    by_cases h : c = sep
    · rw [splitOn, if_pos h, split, List.mem_cons] at mem
      rcases mem with rfl | mem
      · exact List.not_mem_nil
      · exact ih mem
    · simp only [splitOn, if_neg h, split, List.mem_cons] at mem
      rcases mem with rfl | mem
      · exact List.not_mem_cons_of_ne_of_not_mem (Ne.symm h) (ih List.mem_cons_self)
      · exact ih (List.mem_cons_of_mem _ mem)

/-- Splitting at a separator splits both sides. -/
theorem splitOn_append (before after : List Char) :
    splitOn sep (before ++ sep :: after) = splitOn sep before ++ splitOn sep after := by
  induction before with
  | nil => simp [splitOn]
  | cons c rest ih =>
    obtain ⟨part, parts, split⟩ := List.exists_cons_of_ne_nil (splitOn_ne_nil sep rest)
    by_cases h : c = sep
    · simp [splitOn, h, ih]
    · simp [splitOn, h, ih, split]

/-- A text without separators is one part. -/
theorem splitOn_of_not_mem {part : List Char} (whole : sep ∉ part) : splitOn sep part = [part] := by
  induction part with
  | nil => rfl
  | cons c rest ih =>
    rw [splitOn, if_neg (Ne.symm (List.ne_of_not_mem_cons whole)),
      ih (List.not_mem_of_not_mem_cons whole)]

/-- Parts without separators are found again in what they are joined to. -/
theorem splitOn_joinWith {parts : List (List Char)} (some : parts ≠ [])
    (whole : ∀ part ∈ parts, sep ∉ part) : splitOn sep (joinWith sep parts) = parts := by
  induction parts with
  | nil => exact absurd rfl some
  | cons part rest ih =>
    obtain ⟨first, later⟩ := List.forall_mem_cons.mp whole
    cases rest with
    | nil => exact splitOn_of_not_mem first
    | cons next rest =>
      rw [joinWith, splitOn_append, splitOn_of_not_mem first, ih (List.cons_ne_nil _ _) later]
      · rfl
      · exact fun none => by cases none

/-- One more part stands behind one more separator. -/
theorem joinWith_append {parts : List (List Char)} (some : parts ≠ []) (last : List Char) :
    joinWith sep (parts ++ [last]) = joinWith sep parts ++ sep :: last := by
  induction parts with
  | nil => exact absurd rfl some
  | cons part rest ih =>
    cases rest with
    | nil => rfl
    | cons next rest =>
      have further := ih (List.cons_ne_nil _ _)
      simp only [List.cons_append, joinWith, List.append_assoc] at further ⊢
      rw [further]

end Text

namespace Path

open Text

/-! ### Parts that are kept -/

/-- A part that names something in a directory. -/
structure IsName (part : List Char) : Prop where
  some : part ≠ []
  notHere : part ≠ ['.']
  notUp : part ≠ ['.', '.']
  whole : '/' ∉ part

/-- Parts that stay as they are, last first: names, and in front of them steps up, unless the path
starts at the outermost directory. -/
inductive Kept (rooted : Bool) : List (List Char) → Prop where
  | nil : Kept rooted []
  | up {kept : List (List Char)} : rooted = false → (∀ part ∈ kept, part = ['.', '.']) →
    Kept rooted kept → Kept rooted (['.', '.'] :: kept)
  | name {part : List Char} {kept : List (List Char)} : IsName part → Kept rooted kept →
    Kept rooted (part :: kept)

variable {rooted : Bool} {part : List Char} {parts : List (List Char)}

/-- A step keeps a clean list of parts clean. -/
theorem Kept.step (kept : Kept rooted parts) (whole : '/' ∉ part) :
    Kept rooted (step rooted parts part) := by
  unfold Path.step
  split
  · exact kept
  · next some =>
    rw [not_or] at some
    split
    · next up =>
      subst up
      -- a step up takes the last name away, or is kept where there is none
      cases kept with
      | nil =>
        cases rooted with
        | true => exact .nil
        | false => exact .up rfl (List.forall_mem_nil _) .nil
      | up free only kept =>
        dsimp only
        rw [if_pos rfl]
        exact .up free (List.forall_mem_cons.mpr ⟨rfl, only⟩) (.up free only kept)
      | name name kept =>
        dsimp only
        rw [if_neg name.notUp]
        exact kept
    · next name => exact .name ⟨some.1, some.2, name, whole⟩ kept

/-- What is kept last would be kept again. -/
theorem Kept.step_eq (kept : Kept rooted (part :: parts)) :
    Path.step rooted parts part = part :: parts := by
  cases kept with
  | up free only kept =>
    subst free
    cases parts with
    | nil => rfl
    | cons last rest =>
      rw [only last List.mem_cons_self]
      rfl
  | name name kept =>
    unfold Path.step
    rw [if_neg (not_or.mpr ⟨name.some, name.notHere⟩), if_neg name.notUp]

theorem Kept.tail (kept : Kept rooted (part :: parts)) : Kept rooted parts := by
  cases kept with
  | up _ _ kept => exact kept
  | name _ kept => exact kept

/-- Walking the parts of a clean path again gives the same parts. -/
theorem Kept.foldl_step (kept : Kept rooted parts) :
    parts.reverse.foldl (Path.step rooted) [] = parts := by
  induction parts with
  | nil => rfl
  | cons part rest ih =>
    rw [List.reverse_cons, List.foldl_append, ih kept.tail]
    exact kept.step_eq

/-- Any number of steps keep a clean list of parts clean. -/
theorem Kept.foldl (kept : Kept rooted parts) {more : List (List Char)}
    (whole : ∀ part ∈ more, '/' ∉ part) : Kept rooted (more.foldl (Path.step rooted) parts) := by
  induction more generalizing parts with
  | nil => exact kept
  | cons part rest ih =>
    obtain ⟨first, later⟩ := List.forall_mem_cons.mp whole
    exact ih (kept.step first) later

/-- The parts of a cleaned path are clean. -/
theorem kept_cleanParts (rooted : Bool) (cs : List Char) :
    Kept rooted (cleanParts rooted cs).reverse := by
  rw [cleanParts, List.reverse_reverse]
  exact Kept.nil.foldl fun part mem => not_mem_of_mem_splitOn mem

/-- No part of a clean path is empty or has a slash. -/
theorem Kept.whole (kept : Kept rooted parts) : ∀ part ∈ parts, part ≠ [] ∧ '/' ∉ part := by
  induction kept with
  | nil => exact List.forall_mem_nil _
  | up _ _ _ ih => exact List.forall_mem_cons.mpr ⟨by decide, ih⟩
  | name name _ ih => exact List.forall_mem_cons.mpr ⟨⟨name.some, name.whole⟩, ih⟩

theorem whole_of_kept (kept : Kept rooted parts.reverse) :
    ∀ part ∈ parts, part ≠ [] ∧ '/' ∉ part :=
  fun part mem => kept.whole part (List.mem_reverse.mpr mem)

/-- Clean parts stay as they are. -/
theorem cleanParts_joinWith (kept : Kept rooted parts.reverse) :
    cleanParts rooted (joinWith '/' parts) = parts := by
  by_cases some : parts = []
  · rw [some]
    rfl
  · have same := kept.foldl_step
    rw [List.reverse_reverse] at same
    rw [cleanParts, splitOn_joinWith some fun part mem => (whole_of_kept kept part mem).2, same,
      List.reverse_reverse]

/-- A name at the end of a path is one more part. -/
theorem cleanParts_append {name : List Char} (h : IsName name) (cs : List Char) :
    cleanParts rooted (cs ++ '/' :: name) = cleanParts rooted cs ++ [name] := by
  have last := (Kept.name h (kept_cleanParts rooted cs)).step_eq
  rw [cleanParts, List.reverse_reverse] at last
  rw [cleanParts, splitOn_append, splitOn_of_not_mem h.whole, List.foldl_append, List.foldl_cons,
    List.foldl_nil, last, List.reverse_cons, cleanParts]

/-! ### Clean paths -/

/-- What does not start with a slash starts with its first part. -/
theorem joinWith_starts (nonempty : parts ≠ []) (whole : ∀ part ∈ parts, part ≠ [] ∧ '/' ∉ part) :
    joinWith '/' parts ≠ [] ∧ (joinWith '/' parts).head? ≠ some '/' := by
  obtain ⟨part, rest, rfl⟩ := List.exists_cons_of_ne_nil nonempty
  obtain ⟨spelled, slashless⟩ := whole part List.mem_cons_self
  obtain ⟨c, cs, rfl⟩ := List.exists_cons_of_ne_nil spelled
  have first : c ≠ '/' := Ne.symm (List.ne_of_not_mem_cons slashless)
  cases rest <;> simp [joinWith, first]

/-- The text for clean parts. -/
def assemble (rooted : Bool) (parts : List (List Char)) : List Char :=
  if rooted then '/' :: joinWith '/' parts
  else if parts = [] then ['.']
  else joinWith '/' parts

theorem assemble_ne_nil (kept : Kept rooted parts.reverse) : assemble rooted parts ≠ [] := by
  unfold assemble
  split
  · exact List.cons_ne_nil _ _
  · split
    · exact List.cons_ne_nil _ _
    · next nonempty => exact (joinWith_starts nonempty (whole_of_kept kept)).1

/-- One more part stands behind one more slash. -/
theorem assemble_append (nonempty : parts ≠ []) (name : List Char) :
    assemble rooted (parts ++ [name]) = assemble rooted parts ++ '/' :: name := by
  cases rooted <;> simp [assemble, joinWith_append nonempty, nonempty]

/-- A path put together starts with a slash exactly if it is a rooted one. -/
theorem isAbsolute_assemble (kept : Kept rooted parts.reverse) :
    isAbsolute (String.ofList (assemble rooted parts)) = rooted := by
  rw [isAbsolute, String.toList_ofList]
  cases rooted with
  | true => rfl
  | false =>
    by_cases empty : parts = []
    · rw [empty]
      rfl
    · have starts := joinWith_starts empty (whole_of_kept kept)
      simp [assemble, empty, starts.2]

/-- The parts of a path put together are the parts that it was put together of. -/
theorem cleanParts_assemble (kept : Kept rooted parts.reverse) :
    cleanParts rooted (assemble rooted parts) = parts := by
  have same := cleanParts_joinWith kept
  cases rooted with
  | true => exact same
  | false =>
    by_cases empty : parts = []
    · rw [empty]
      decide
    · simpa [assemble, empty] using same

theorem clean_eq_assemble (path : String) : clean path =
    String.ofList (assemble (isAbsolute path) (cleanParts (isAbsolute path) path.toList)) := by
  have kept := kept_cleanParts (isAbsolute path) path.toList
  unfold clean assemble
  cases absolute : isAbsolute path with
  | true => rfl
  | false =>
    rw [absolute] at kept
    by_cases empty : cleanParts false path.toList = []
    · simp [empty, joinWith]
    · have starts := joinWith_starts empty (whole_of_kept kept)
      simp [empty, starts.1]

/-- A path put together of clean parts is clean already. -/
theorem clean_assemble (kept : Kept rooted parts.reverse) :
    clean (String.ofList (assemble rooted parts)) = String.ofList (assemble rooted parts) := by
  rw [clean_eq_assemble, String.toList_ofList, isAbsolute_assemble kept, cleanParts_assemble kept]

/-! ### What is in a directory -/

theorem slashless_reverse {name : List Char} (whole : '/' ∉ name) :
    ∀ c ∈ name.reverse, decide (c ≠ '/') = true := by
  intro c mem
  rw [decide_eq_true_eq]
  rintro rfl
  exact whole (List.mem_reverse.mp mem)

/-- In front of the last name stands what ends with the last slash. -/
theorem front_append (cs : List Char) {name : List Char} (whole : '/' ∉ name) :
    front (String.ofList (cs ++ '/' :: name)) = cs ++ ['/'] := by
  rw [front, String.toList_ofList, List.reverse_append, List.reverse_cons, List.append_assoc,
    List.dropWhile_append_of_pos (slashless_reverse whole), List.singleton_append,
    List.dropWhile_cons_of_neg (by simp), List.reverse_cons, List.reverse_reverse]

/-- In front of a name alone stands nothing. -/
theorem front_of_name {name : List Char} (whole : '/' ∉ name) :
    front (String.ofList name) = [] := by
  have stop : (name.reverse ++ []).dropWhile (· ≠ '/') = [].dropWhile (· ≠ '/') :=
    List.dropWhile_append_of_pos (slashless_reverse whole)
  rw [List.append_nil] at stop
  rw [front, String.toList_ofList, stop]
  rfl

/-- The directory of a path with a name at its end is the path before the name, cleaned. -/
theorem dir_append {cs : List Char} (nonempty : cs ≠ []) {name : List Char} (whole : '/' ∉ name) :
    dir (String.ofList (cs ++ '/' :: name)) = clean (String.ofList cs) := by
  rw [dir, front_append cs whole, clean_append_slash nonempty]

/-- A name joined to a directory is one more part of the directory's path. -/
theorem join_eq {d name : String} (named : IsName name.toList) (h : d ≠ "") :
    join [d, name] = String.ofList
      (assemble (isAbsolute d) (cleanParts (isAbsolute d) d.toList ++ [name.toList])) := by
  have spelled : name ≠ "" := by
    rintro rfl
    exact named.some rfl
  have text : join [d, name] = clean (String.ofList (d.toList ++ '/' :: name.toList)) := by
    simp [join, h, spelled, joinWith]
  have same : isAbsolute (String.ofList (d.toList ++ '/' :: name.toList)) = isAbsolute d := by
    have nonempty : d.toList ≠ [] := by simpa using h
    rw [isAbsolute, String.toList_ofList, List.head?_append_of_ne_nil _ nonempty, isAbsolute]
  rw [text, clean_eq_assemble, same, String.toList_ofList, cleanParts_append named]

/-- A name is a clean path. -/
theorem clean_of_name {name : String} (named : IsName name.toList) : clean name = name := by
  have kept : Kept false [name.toList].reverse := .name named .nil
  have same := clean_assemble kept
  rwa [show assemble false [name.toList] = name.toList from rfl, String.ofList_toList] at same

/-- A name alone stands in the current directory. -/
theorem dir_of_name {name : String} (named : IsName name.toList) : dir name = "." := by
  have none := front_of_name named.whole
  rw [String.ofList_toList] at none
  rw [dir, none]
  rfl

/-- A name joined to a directory names something in that directory. -/
theorem dir_join (d : String) {name : String} (named : IsName name.toList) :
    dir (join [d, name]) = clean d := by
  by_cases h : d = ""
  · have alone : join [d, name] = clean name := by
      have spelled : name ≠ "" := by
        rintro rfl
        exact named.some rfl
      simp [join, h, spelled, joinWith]
    rw [alone, clean_of_name named, dir_of_name named, h]
    rfl
  · have kept := kept_cleanParts (isAbsolute d) d.toList
    rw [join_eq named h, clean_eq_assemble d]
    generalize cleanParts (isAbsolute d) d.toList = parts at kept
    -- the root and the current directory have no parts, and print differently
    by_cases empty : parts = []
    · subst empty
      cases isAbsolute d with
      | true =>
        have text : assemble true ([] ++ [name.toList]) = [] ++ '/' :: name.toList := rfl
        rw [text, dir, front_append [] named.whole]
        have kept : Kept true [].reverse := .nil
        exact clean_assemble kept
      | false =>
        have text : String.ofList (assemble false ([] ++ [name.toList])) = name :=
          String.ofList_toList
        rw [text, dir_of_name named]
        rfl
    · rw [assemble_append empty, dir_append (assemble_ne_nil kept) named.whole, clean_assemble kept]

end Path

end Lox
