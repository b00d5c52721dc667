import Lox.Text.Split

/-!
Paths with slashes. These functions only look at the text of a path, not at what is on a disk.
-/

namespace Lox.Path

open Lox.Text

def isAbsolute (path : String) : Bool := path.toList.head? = some '/'

/-- Takes one more part into a path, of which `kept` is what is there so far, last part first. -/
def step (rooted : Bool) (kept : List (List Char)) (part : List Char) : List (List Char) :=
  if part = [] ∨ part = ['.'] then kept
  else if part = ['.', '.'] then
    match kept with
    | last :: rest => if last = ['.', '.'] then part :: kept else rest
    | [] => if rooted then [] else [part]
  else part :: kept

/-- The parts that name the same place most directly. -/
def cleanParts (rooted : Bool) (cs : List Char) : List (List Char) :=
  ((splitOn '/' cs).foldl (step rooted) []).reverse

/-- The shortest text for the same place. -/
def clean (path : String) : String :=
  let body := joinWith '/' (cleanParts (isAbsolute path) path.toList)
  if isAbsolute path then String.ofList ('/' :: body)
  else if body.isEmpty then "."
  else String.ofList body

/-- One path after the other; empty ones do not count. -/
def join (paths : List String) : String :=
  match paths.filter (· ≠ "") with
  | [] => ""
  | paths => clean (String.ofList (joinWith '/' (paths.map String.toList)))

/-- What comes before the last part, with the slash behind it. -/
def front (path : String) : List Char := (path.toList.reverse.dropWhile (· ≠ '/')).reverse

/-- All but the last part. -/
def dir (path : String) : String := clean (String.ofList (front path))

/-- The last part. -/
def base (path : String) : String :=
  if path = "" then "."
  else match path.toList.reverse.dropWhile (· = '/') with
    | [] => "/"
    | cs => String.ofList (cs.takeWhile (· ≠ '/')).reverse

/-- The last part from its last dot on. -/
def ext (path : String) : String :=
  let last := path.toList.reverse.takeWhile (· ≠ '/')
  if last.contains '.' then String.ofList ('.' :: (last.takeWhile (· ≠ '.')).reverse) else ""

/-- The path seen from the outermost directory, when `cwd` is the one at hand. -/
def absolute (cwd path : String) : String :=
  if isAbsolute path then clean path else join [cwd, path]

/-! ### How long paths are -/

/-- The length of the parts with a slash behind each. -/
def extent : List (List Char) → Nat
  | [] => 0
  | part :: rest => part.length + 1 + extent rest

theorem extent_append (parts more : List (List Char)) :
    extent (parts ++ more) = extent parts + extent more := by
  induction parts with
  | nil => simp [extent]
  | cons part rest ih =>
    rw [List.cons_append, extent, extent, ih]
    omega

theorem extent_reverse (parts : List (List Char)) : extent parts.reverse = extent parts := by
  induction parts with
  | nil => rfl
  | cons part rest ih =>
    rw [List.reverse_cons, extent_append, ih, extent, extent, extent]
    omega

theorem length_joinWith {parts : List (List Char)} (h : parts ≠ []) :
    (joinWith '/' parts).length + 1 = extent parts := by
  induction parts with
  | nil => exact absurd rfl h
  | cons part rest ih =>
    cases rest with
    | nil => simp [joinWith, extent]
    | cons next rest =>
      have later := ih (List.cons_ne_nil _ _)
      rw [extent, ← later, joinWith]
      · simp only [List.length_append, List.length_cons]
        omega
      · exact fun h => by cases h

theorem length_joinWith_le (parts : List (List Char)) :
    (joinWith '/' parts).length ≤ extent parts - 1 := by
  cases parts with
  | nil => exact Nat.zero_le _
  | cons part rest =>
    have := length_joinWith (List.cons_ne_nil part rest)
    omega

theorem extent_splitOn (cs : List Char) : extent (splitOn '/' cs) = cs.length + 1 := by
  rw [← length_joinWith (splitOn_ne_nil '/' cs), joinWith_splitOn]

theorem extent_step_le (rooted : Bool) (kept : List (List Char)) (part : List Char) :
    extent (step rooted kept part) ≤ extent kept + (part.length + 1) := by
  unfold step
  split
  · omega
  · split
    · split
      · split <;> simp only [extent] <;> omega
      · split <;> simp [extent]
    · rw [extent]
      omega

theorem extent_foldl_le (rooted : Bool) (parts kept : List (List Char)) :
    extent (parts.foldl (step rooted) kept) ≤ extent kept + extent parts := by
  induction parts generalizing kept with
  | nil => simp [extent]
  | cons part rest ih =>
    have first := extent_step_le rooted kept part
    have later := ih (step rooted kept part)
    rw [extent]
    simp only [List.foldl_cons]
    omega

theorem extent_cleanParts_le (rooted : Bool) (cs : List Char) :
    extent (cleanParts rooted cs) ≤ cs.length + 1 := by
  rw [cleanParts, extent_reverse, ← extent_splitOn]
  simpa [extent] using extent_foldl_le rooted (splitOn '/' cs) []

/-- A slash at the end says nothing. -/
theorem cleanParts_append_slash (rooted : Bool) (cs : List Char) :
    cleanParts rooted (cs ++ ['/']) = cleanParts rooted cs := by
  have split : splitOn '/' (cs ++ ['/']) = splitOn '/' cs ++ [[]] := by
    induction cs with
    | nil => rfl
    | cons c rest ih =>
      obtain ⟨part, parts, h⟩ := List.exists_cons_of_ne_nil (splitOn_ne_nil '/' rest)
      by_cases hc : c = '/'
      · simp [splitOn, hc, ih]
      · simp [splitOn, hc, ih, h]
  rw [cleanParts, split, List.foldl_append]
  rfl

/-- Nor does a slash at the start, of an absolute path. -/
theorem cleanParts_slash (rooted : Bool) (cs : List Char) :
    cleanParts rooted ('/' :: cs) = cleanParts rooted cs := rfl

theorem isAbsolute_ofList_cons (c : Char) (cs : List Char) :
    isAbsolute (String.ofList (c :: cs)) = decide (c = '/') := by
  simp [isAbsolute]

theorem clean_append_slash {cs : List Char} (h : cs ≠ []) :
    clean (String.ofList (cs ++ ['/'])) = clean (String.ofList cs) := by
  obtain ⟨c, rest, rfl⟩ := List.exists_cons_of_ne_nil h
  unfold clean
  simp only [List.cons_append, isAbsolute_ofList_cons, String.toList_ofList]
  rw [← List.cons_append, cleanParts_append_slash]

theorem length_clean_le {cs : List Char} (h : cs ≠ []) :
    (clean (String.ofList cs)).toList.length ≤ cs.length := by
  obtain ⟨c, rest, rfl⟩ := List.exists_cons_of_ne_nil h
  unfold clean
  simp only [isAbsolute_ofList_cons, String.toList_ofList]
  by_cases hc : c = '/'
  · subst hc
    have parts := extent_cleanParts_le true rest
    have body := length_joinWith_le (cleanParts true rest)
    simp only [decide_true, if_true, cleanParts_slash, String.toList_ofList, List.length_cons]
    omega
  · have parts := extent_cleanParts_le false (c :: rest)
    have body := length_joinWith_le (cleanParts false (c :: rest))
    simp only [hc, decide_false, Bool.false_eq_true, if_false]
    split
    · simp
    · rw [String.toList_ofList]
      omega

/-! ### Going outward -/

theorem front_eq_nil_or (path : String) :
    front path = [] ∨ ∃ cs, front path = cs ++ ['/'] := by
  unfold front
  cases h : path.toList.reverse.dropWhile (· ≠ '/') with
  | nil => exact .inl rfl
  | cons c rest =>
    have slash : c = '/' := by
      have stops := List.head_dropWhile_not (l := path.toList.reverse) (fun c => decide (c ≠ '/'))
        (by rw [h]; exact List.cons_ne_nil _ _)
      simp only [h, List.head_cons] at stops
      simpa using stops
    exact .inr ⟨rest.reverse, by simp [slash]⟩

theorem front_sublist (path : String) : (front path).Sublist path.toList := by
  have := (List.dropWhile_sublist (l := path.toList.reverse) (· ≠ '/')).reverse
  rwa [List.reverse_reverse] at this

/-- The directory around a path is shorter, but for those that are around themselves. -/
theorem length_dir_lt {path : String} (moves : dir path ≠ path) (inside : dir path ≠ ".") :
    (dir path).toList.length < path.toList.length := by
  have bound := (front_sublist path).length_le
  rcases front_eq_nil_or path with empty | ⟨cs, slash⟩
  · exact absurd (by rw [dir, empty]; rfl) inside
  · by_cases outermost : cs = []
    · have root : dir path = "/" := by rw [dir, slash, outermost]; rfl
      have longer : (front path).length ≠ path.toList.length := by
        intro same
        have whole := (front_sublist path).eq_of_length same
        rw [slash, outermost] at whole
        exact moves (root.trans (String.ext whole))
      rw [slash, outermost] at bound longer
      rw [root]
      simp only [List.nil_append, List.length_singleton] at bound longer
      show 1 < _
      omega
    · have shorter := length_clean_le outermost
      rw [slash, List.length_append, List.length_singleton] at bound
      rw [dir, slash, clean_append_slash outermost]
      omega

/-- How far a path is from the outermost directory, at most. -/
def height (path : String) : Nat := if path = "." then 0 else path.toList.length + 1

theorem height_dir_lt {path : String} (moves : dir path ≠ path) :
    height (dir path) < height path := by
  have named : path ≠ "." := by
    rintro rfl
    exact moves (by decide)
  unfold height
  rw [if_neg named]
  split
  · omega
  · next inside =>
    have := length_dir_lt moves inside
    omega

/-- A path, and every directory around it, going outward; the last is around itself. -/
def outward (path : String) : List String :=
  if dir path = path then [path] else path :: outward (dir path)
termination_by height path
decreasing_by exact height_dir_lt ‹_›

end Lox.Path
