import Lox.Disk.Tree
import Lox.Proofs.Config.Search
import Lox.Proofs.Text.Path

/-!
The nearest settings. The directories from the start outward are looked in one by one, the last
being the root of the working tree, or the outermost one where there is no working tree, so what is
found is the nearest and lies in one of these directories.
-/

namespace Lox.Project

/-! ### Searches -/

/-- The directory of the search's last step: the root of the working tree, or without one the
outermost directory, which no directory before it is. -/
structure LastAt (root : Option String) (dir : String) (n : Nat) : Prop where
  inside : ∀ r, root = some r → Path.dir^[n] dir = r
  outermost : root = none → Path.dir^[n + 1] dir = Path.dir^[n] dir
  before : ∀ i < n, root ≠ some (Path.dir^[i] dir) ∧ Path.dir^[i + 1] dir ≠ Path.dir^[i] dir

/-- A search that stops at a directory or the outermost one stops at the directory, if it is one of
those on the way. -/
theorem EndsAt.lastAt {root : Option String} {dir : String} {n : Nat} (ends : EndsAt root dir n)
    (encloses : ∀ r, root = some r → ∃ k, r = Path.dir^[k] dir) : LastAt root dir n := by
  refine ⟨?_, ?_, ends.before⟩
  · rintro r rfl
    rcases ends.here with here | outermost
    · exact (Option.some.inj here).symm
    · obtain ⟨k, rfl⟩ := encloses r rfl
      have later : n ≤ k := by
        by_contra earlier
        exact (ends.before k (Nat.lt_of_not_le earlier)).1 rfl
      obtain ⟨m, rfl⟩ := Nat.exists_eq_add_of_le' later
      rw [Function.iterate_succ_apply'] at outermost
      rw [Function.iterate_add_apply, Function.iterate_fixed outermost]
  · rintro rfl
    exact ends.here.resolve_left (Option.some_ne_none _).symm

/-- The names of configuration files are names of files, with no slash in them. -/
theorem isName_of_mem_configNames {name : String} (mem : name ∈ configNames) :
    Path.IsName name.toList := by
  simp only [configNames, List.mem_cons, List.not_mem_nil, or_false] at mem
  rcases mem with rfl | rfl | rfl
  all_goals exact ⟨by decide, by decide, by decide, by decide⟩

/-- What a search finds is in one of the directories. -/
theorem mem_candidatesUpTo {path dir : String} {n : Nat} (mem : path ∈ candidatesUpTo dir n) :
    ∃ i ≤ n, ∃ name ∈ configNames, path = Path.join [Path.dir^[i] dir, name] ∧
      Path.dir path = Path.clean (Path.dir^[i] dir) := by
  obtain ⟨i, range, there⟩ := List.mem_flatMap.mp mem
  obtain ⟨name, named, rfl⟩ := List.mem_map.mp there
  exact ⟨i, Nat.lt_succ_iff.mp (List.mem_range.mp range), name, named, rfl,
    Path.dir_join _ (isName_of_mem_configNames named)⟩

/-- What is found is one of the candidates. -/
theorem mem_of_finds {disk : Disk Id} {origin path : String} {paths : List String}
    {result : Except Error String} (finds : Finds disk origin paths result)
    (found : result = .ok path) : path ∈ paths := by
  obtain ⟨before, after, rfl, -⟩ := (finds.found path).mp found
  exact List.mem_append_right _ List.mem_cons_self

section

variable {disk : Disk Id} {start : String} {root : Option String} {n : Nat}

/-- The search starts in the directory itself, or in that of the file it is given. -/
theorem searchStart_eq (disk : Disk Id) (start : String) : searchStart disk start =
    if disk.look (Path.absolute disk.cwd start) = .ok false
    then Path.dir (Path.absolute disk.cwd start) else Path.absolute disk.cwd start := by
  unfold searchStart
  dsimp only [bind, pure]
  rw [Disk.isDir_eq_look]
  generalize Path.absolute disk.cwd start = dir
  cases disk.look dir with
  | error e => simp
  | ok isDir => cases isDir <;> simp

theorem searchStart_noting (noted : List String) : searchStart disk.noting start noted =
    (searchStart disk start, noted ++ [Path.absolute disk.cwd start]) := by
  rw [searchStart_eq]
  unfold searchStart
  dsimp only [bind_apply, Disk.noting, pure, StateT.pure]
  generalize Path.absolute disk.cwd start = dir
  cases disk.look dir with
  | error e => simp; rfl
  | ok isDir => cases isDir <;> simp <;> rfl

variable {detect : String → Except Error (Option String)}

/-- Where the working tree is found, the search goes outward to it. -/
theorem findConfigBy_eq (detected : detect (searchStart disk start) = .ok root) :
    findConfigBy disk detect start =
      searchOutward disk root (searchStart disk start) (searchStart disk start) := by
  unfold findConfigBy
  dsimp only [bind]
  rw [detected]

theorem findConfigBy_noting (detected : detect (searchStart disk start) = .ok root)
    (noted : List String) : findConfigBy disk.noting (fun dir => pure (detect dir)) start noted =
      searchOutward disk.noting root (searchStart disk start) (searchStart disk start)
        (noted ++ [Path.absolute disk.cwd start]) := by
  rw [findConfigBy, bind_apply, searchStart_noting, bind_apply]
  dsimp only [pure, StateT.pure]
  rw [detected]

end

/-! ### Working trees -/

section

variable {disk : Disk Id} {dir r : String}

/-- A working tree is one of the directories on the way out. -/
theorem mem_of_workingTree {dirs : List String} (h : workingTree disk dirs = .ok (some r)) :
    r ∈ dirs := by
  induction dirs with
  | nil => cases h
  | cons dir rest ih =>
    have here {leads : Bool} (found : (if leads = true then some dir else none) = some r) :
        r ∈ dir :: rest := by
      cases leads with
      | true =>
        cases found
        exact List.mem_cons_self
      | false => cases found
    rw [workingTree] at h
    dsimp only [bind, pure] at h
    split at h
    · exact List.mem_cons_of_mem _ (ih h)
    · cases h
    · exact here (Except.ok.inj h)
    · split at h
      · cases h
      · cases leads : (leadsToState disk dir _ : Except String Bool) with
        | error reason =>
          rw [leads] at h
          cases h
        | ok answer =>
          rw [leads] at h
          exact here (Except.ok.inj h)

theorem exists_iterate_of_mem_outward {dir : String} (mem : r ∈ Path.outward dir) :
    ∃ k, r = Path.dir^[k] dir := by
  unfold Path.outward at mem
  split at mem
  · exact ⟨0, List.mem_singleton.mp mem⟩
  · next moves =>
    rcases List.mem_cons.mp mem with here | further
    · exact ⟨0, here⟩
    · obtain ⟨k, there⟩ := exists_iterate_of_mem_outward further
      exact ⟨k + 1, by rwa [Function.iterate_succ_apply]⟩
termination_by Path.height dir
decreasing_by exact Path.height_dir_lt ‹_›

/-- The root of a working tree is at a directory around those in it. -/
theorem exists_iterate_of_worktreeRoot (h : worktreeRoot disk dir = .ok (some r)) :
    ∃ k, r = Path.dir^[k] dir := by
  have known : workingTree disk (Path.outward dir) = .ok (some r) := by
    rw [worktreeRoot] at h
    dsimp only [bind, pure] at h
    split at h
    · split at h
      · cases h
      · next found =>
        cases h
        exact found
    · split at h
      · cases h
      · next found =>
        cases h
        exact found
    · cases h
  exact exists_iterate_of_mem_outward (mem_of_workingTree known)

end

theorem eq_ok_of_toOption {ε α : Type} {x : Except ε α} {a : α} (h : x.toOption = some a) :
    x = .ok a := by
  cases x with
  | error e => cases h
  | ok b => exact congrArg Except.ok (Option.some.inj h)

/-! ### What is found -/

/-- A search looks in `dir`, where it starts, and in the `n` directories around it. -/
structure Searches (disk : Disk Id) (detect : String → Except Error (Option String))
    (start : String) (root : Option String) (dir : String) (n : Nat) : Prop where
  starts : dir = if disk.look (Path.absolute disk.cwd start) = .ok false
    then Path.dir (Path.absolute disk.cwd start) else Path.absolute disk.cwd start
  last : LastAt root dir n
  finds : Finds disk dir (candidatesUpTo dir n) (findConfigBy disk detect start)
  /-- It looks at the place itself, then at the candidates in order up to the first that decides. -/
  looks : findConfigBy disk.noting (fun dir => pure (detect dir)) start [] =
    (findConfigBy disk detect start,
      Path.absolute disk.cwd start :: examined disk (candidatesUpTo dir n))
  inside : ∀ path, findConfigBy disk detect start = .ok path →
    ∃ i ≤ n, ∃ name ∈ configNames, path = Path.join [Path.dir^[i] dir, name] ∧
      Path.dir path = Path.clean (Path.dir^[i] dir)

/-- Where the way outward ends, the search through all candidates on it ends. -/
theorem EndsAt.searches {disk : Disk Id} {detect : String → Except Error (Option String)}
    {start : String} {root : Option String} {n : Nat}
    (ends : EndsAt root (searchStart disk start) n)
    (detected : detect (searchStart disk start) = .ok root)
    (encloses : ∀ r, root = some r → ∃ k, r = Path.dir^[k] (searchStart disk start)) :
    Searches disk detect start root (searchStart disk start) n := by
  have result : findConfigBy disk detect start = outcome disk (searchStart disk start)
      (candidatesUpTo (searchStart disk start) n) :=
    (findConfigBy_eq detected).trans (searchOutward_eq ends)
  have finds := finds_outcome disk (searchStart disk start)
    (candidatesUpTo (searchStart disk start) n)
  rw [← result] at finds
  refine ⟨searchStart_eq disk start, ends.lastAt encloses, finds, ?_, ?_⟩
  · rw [findConfigBy_noting detected, searchOutward_noting ends, result]
    rfl
  · intro path found
    exact mem_candidatesUpTo (mem_of_finds finds found)

/-- The root of a working tree, where there is one, is on the way. -/
theorem searches_worktree (disk : Disk Id) (start : String) (root : Option String)
    (detected : worktreeRoot disk (searchStart disk start) = .ok root) :
    ∃ n, Searches disk (worktreeRoot disk) start root (searchStart disk start) n := by
  obtain ⟨n, ends⟩ := exists_endsAt root (searchStart disk start)
  refine ⟨n, ends.searches detected ?_⟩
  rintro r rfl
  exact exists_iterate_of_worktreeRoot detected

/-- If the working tree that is detected is rooted at a directory around the start, if at all, the
search goes as far as its root, or to the outermost directory where there is none, and finds what is
nearest. -/
theorem searches_nearest (disk : Disk Id) (detect : String → Except Error (Option String))
    (start : String) (root : Option String)
    (detected : detect (searchStart disk start) = .ok root)
    (encloses : ∀ r, root = some r → ∃ k, r = Path.dir^[k] (searchStart disk start)) :
    ∃ n, Searches disk detect start root (searchStart disk start) n := by
  obtain ⟨n, ends⟩ := exists_endsAt root (searchStart disk start)
  exact ⟨n, ends.searches detected encloses⟩

/-- A repository in which settings lie beside a directory of the same name. -/
def repository : FileTree :=
  .dir [("lox.yml", .file .empty), ("repo", .dir [
    (".git", .dir [("HEAD", .file "ref: refs/heads/main".toUTF8)]),
    ("lox.yml", .dir []), ("lox.yaml", .file .empty),
    ("src", .dir [("main.lox", .file .empty)])])]

/-- The root of the working tree that a directory of the repository is in. -/
def rootIn (dir : String) : Except Error (Option String) :=
  worktreeRoot (m := Id) (repository.disk "/repo") dir

theorem searches_nearest_repository :
    rootIn (searchStart (repository.disk "/repo") "src/main.lox") = .ok (some "/repo") ∧
    (∀ r, some "/repo" = some r →
      ∃ k, r = Path.dir^[k] (searchStart (repository.disk "/repo") "src/main.lox")) ∧
    ∃ n, Searches (repository.disk "/repo") rootIn "src/main.lox" (some "/repo")
      (searchStart (repository.disk "/repo") "src/main.lox") n := by
  have detected : rootIn (searchStart (repository.disk "/repo") "src/main.lox") =
      .ok (some "/repo") :=
    eq_ok_of_toOption (by decide +kernel)
  have encloses : ∀ r, some "/repo" = some r →
      ∃ k, r = Path.dir^[k] (searchStart (repository.disk "/repo") "src/main.lox") := by
    intro r same
    rw [same] at detected
    exact exists_iterate_of_worktreeRoot detected
  exact ⟨detected, encloses, searches_nearest _ _ _ _ detected encloses⟩

end Lox.Project
