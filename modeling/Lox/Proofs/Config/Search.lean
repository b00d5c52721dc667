import Lox.Project
import Mathlib.Logic.Function.Iterate

/-!
Looking for settings from a directory outward. Each directory may hold its settings under several
names, and what is there under the first name that is not passed over decides. A run is told by the
candidates alone, both what comes of it and what is looked at on the way.
-/

namespace Lox

/-- What is said of a path by a disk that stays as it is. -/
def Disk.look (disk : Disk Id) (path : String) : Except DiskError Bool := disk.isDir path

/-- Asking for a directory is looking at the disk. -/
theorem Disk.isDir_eq_look (disk : Disk Id) (path : String) : disk.isDir path = disk.look path :=
  rfl

/-- The disk, where every path that is looked at is noted. -/
def Disk.noting (disk : Disk Id) : Disk (StateM (List String)) where
  cwd := pure disk.cwd
  isDir path := fun noted => (disk.look path, noted ++ [path])
  read path := pure (disk.read path)
  list path := pure (disk.list path)

namespace Project

/-! ### Paths in turn -/

section

variable (disk : Disk Id)

/-- A search goes on behind a path that names nothing or a directory. -/
def passes (path : String) : Bool :=
  match disk.look path with
  | .ok isDir => isDir
  | .error e => e = .notFound

/-- The first path that a search does not pass. -/
def obstacle? (paths : List String) : Option String := paths.find? (!passes disk ·)

/-- The paths that are looked at: all that are passed, and the one that ends the search. -/
def examined : List String → List String
  | [] => []
  | path :: rest => if passes disk path then path :: examined rest else [path]

/-- What is said of the path that ends a search. -/
def verdict (path : String) : Except Error String :=
  match disk.look path with
  | .ok _ => .ok path
  | .error e => .error (.unknownState path (e.looking path))

/-- What comes of looking at paths in turn. -/
def outcome (origin : String) (paths : List String) : Except Error String :=
  ((obstacle? disk paths).map (verdict disk)).getD (.error (.notFound origin))

/-- What a search through some paths gives: the first that is a file, unless it cannot be said of an
earlier one what it is. -/
structure Finds (origin : String) (paths : List String) (result : Except Error String) : Prop where
  found : ∀ path, result = .ok path ↔
    ∃ before after, paths = before ++ path :: after ∧ (∀ p ∈ before, passes disk p = true) ∧
      disk.look path = .ok false
  failed : ∀ path reason, result = .error (.unknownState path reason) ↔
    ∃ before after e, paths = before ++ path :: after ∧ (∀ p ∈ before, passes disk p = true) ∧
      disk.look path = .error e ∧ e ≠ .notFound ∧ reason = e.looking path
  nothing : ∀ start, result = .error (.notFound start) ↔
    start = origin ∧ ∀ p ∈ paths, passes disk p = true

end

section

variable {disk : Disk Id} {path origin : String} {paths more : List String}

/-- The search stops at a file and at an error that is not that nothing is there. -/
theorem passes_eq_false_iff :
    passes disk path = false ↔
      disk.look path = .ok false ∨ ∃ e, disk.look path = .error e ∧ e ≠ .notFound := by
  unfold passes
  split
  · next isDir state => simp [state]
  · next e state => simp [state]

/-- There is nothing to stop at exactly if all candidates are passed. -/
theorem obstacle?_eq_none_iff :
    obstacle? disk paths = none ↔ ∀ p ∈ paths, passes disk p = true := by
  simp [obstacle?]

/-- What the search stops at is the first candidate that is not passed. -/
theorem obstacle?_eq_some_iff :
    obstacle? disk paths = some path ↔ passes disk path = false ∧
      ∃ before after, paths = before ++ path :: after ∧ ∀ p ∈ before, passes disk p = true := by
  simp [obstacle?, List.find?_eq_some_iff_append]

/-- The search goes on to more candidates where it passed all before. -/
theorem obstacle?_append :
    obstacle? disk (paths ++ more) = (obstacle? disk paths).or (obstacle? disk more) :=
  List.find?_append

/-- More candidates are looked at only where all before were passed. -/
theorem examined_append :
    examined disk (paths ++ more) =
      examined disk paths ++ if obstacle? disk paths = none then examined disk more else [] := by
  induction paths with
  | nil => rfl
  | cons path rest ih =>
    by_cases passed : passes disk path = true
    · simp [examined, obstacle?, passed] at ih ⊢
      simpa [obstacle?] using ih
    · simp [examined, obstacle?, passed]

/-- Where all candidates are passed, nothing is found. -/
theorem outcome_of_none (passed : ∀ p ∈ paths, passes disk p = true) :
    outcome disk origin paths = .error (.notFound origin) := by
  rw [outcome, obstacle?_eq_none_iff.mpr passed]
  rfl

/-- The first candidate that is not passed decides. -/
theorem outcome_of_some {before after : List String} (passed : ∀ p ∈ before, passes disk p = true)
    (ends : passes disk path = false) :
    outcome disk origin (before ++ path :: after) = verdict disk path := by
  rw [outcome, obstacle?_eq_some_iff.mpr ⟨ends, before, after, rfl, passed⟩]
  rfl

theorem verdict_of_ok (file : disk.look path = .ok false) : verdict disk path = .ok path := by
  rw [verdict, file]

theorem verdict_of_error {e : DiskError} (fails : disk.look path = .error e) :
    verdict disk path = .error (.unknownState path (e.looking path)) := by
  rw [verdict, fails]

/-- A file that all before were passed on the way to is found. -/
theorem outcome_of_file {before after : List String} (passed : ∀ p ∈ before, passes disk p = true)
    (file : disk.look path = .ok false) :
    outcome disk origin (before ++ path :: after) = .ok path := by
  rw [outcome_of_some passed (passes_eq_false_iff.mpr (.inl file)), verdict_of_ok file]

/-- An error that tells nothing about the candidate ends the search, whatever comes after. -/
theorem outcome_of_failure {before after : List String} {e : DiskError}
    (passed : ∀ p ∈ before, passes disk p = true) (fails : disk.look path = .error e)
    (unknown : e ≠ .notFound) :
    outcome disk origin (before ++ path :: after) =
      .error (.unknownState path (e.looking path)) := by
  rw [outcome_of_some passed (passes_eq_false_iff.mpr (.inr ⟨e, fails, unknown⟩)),
    verdict_of_error fails]

/-- Either all paths are passed, or the first that is not is a file, or it fails to be looked at. -/
theorem passed_or_file_or_failure (disk : Disk Id) (paths : List String) :
    (∀ p ∈ paths, passes disk p = true) ∨
      ∃ before path after, paths = before ++ path :: after ∧
        (∀ p ∈ before, passes disk p = true) ∧
        (disk.look path = .ok false ∨ ∃ e, disk.look path = .error e ∧ e ≠ .notFound) := by
  cases ends : obstacle? disk paths with
  | none => exact .inl (obstacle?_eq_none_iff.mp ends)
  | some path =>
    obtain ⟨stops, before, after, split, passed⟩ := obstacle?_eq_some_iff.mp ends
    exact .inr ⟨before, path, after, split, passed, passes_eq_false_iff.mp stops⟩

/-- What the first candidate to stop at gives is what the search has to find. -/
theorem finds_outcome (disk : Disk Id) (origin : String) (paths : List String) :
    Finds disk origin paths (outcome disk origin paths) := by
  constructor
  case found =>
    intro path
    constructor
    · intro found
      rcases passed_or_file_or_failure disk paths with
        passed | ⟨before, p, after, rfl, passed, file | ⟨e, fails, unknown⟩⟩
      · cases (outcome_of_none passed).symm.trans found
      · cases (outcome_of_file passed file).symm.trans found
        exact ⟨before, after, rfl, passed, file⟩
      · cases (outcome_of_failure passed fails unknown).symm.trans found
    · rintro ⟨before, after, rfl, passed, file⟩
      exact outcome_of_file passed file
  case failed =>
    intro path reason
    constructor
    · intro failed
      rcases passed_or_file_or_failure disk paths with
        passed | ⟨before, p, after, rfl, passed, file | ⟨e, fails, unknown⟩⟩
      · cases (outcome_of_none passed).symm.trans failed
      · cases (outcome_of_file passed file).symm.trans failed
      · cases (outcome_of_failure passed fails unknown).symm.trans failed
        exact ⟨before, after, e, rfl, passed, fails, unknown, rfl⟩
    · rintro ⟨before, after, e, rfl, passed, fails, unknown, rfl⟩
      exact outcome_of_failure passed fails unknown
  case nothing =>
    intro start
    constructor
    · intro nothing
      rcases passed_or_file_or_failure disk paths with
        passed | ⟨before, p, after, rfl, passed, file | ⟨e, fails, unknown⟩⟩
      · cases (outcome_of_none passed).symm.trans nothing
        exact ⟨rfl, passed⟩
      · cases (outcome_of_file passed file).symm.trans nothing
      · cases (outcome_of_failure passed fails unknown).symm.trans nothing
    · rintro ⟨rfl, passed⟩
      exact outcome_of_none passed

/-! ### One directory -/

theorem bind_apply {σ α β : Type} (x : StateM σ α) (f : α → StateM σ β) (before : σ) :
    (x >>= f) before = f (x before).1 (x before).2 := rfl

/-- The loop over the names goes on behind a candidate that is passed. -/
theorem firstFile_cons : firstFile disk (path :: paths) =
    if passes disk path then firstFile disk paths else (verdict disk path).map some := by
  rw [firstFile, Disk.isDir_eq_look, passes, verdict]
  rcases disk.look path with (_ | _ | _ | _ | _ | _ | _) | (_ | _) <;> rfl

/-- The loop notes a candidate before it decides on it. -/
theorem firstFile_noting_cons (noted : List String) : firstFile disk.noting (path :: paths) noted =
    if passes disk path then firstFile disk.noting paths (noted ++ [path])
    else ((verdict disk path).map some, noted ++ [path]) := by
  rw [firstFile, bind_apply, passes, verdict]
  dsimp only [Disk.noting]
  rcases disk.look path with (_ | _ | _ | _ | _ | _ | _) | (_ | _) <;> rfl

/-- The loop over the names gives the verdict on the first candidate to stop at. -/
theorem firstFile_eq : firstFile disk paths =
    ((obstacle? disk paths).map (verdict disk)).elim (.ok none) (·.map some) := by
  induction paths with
  | nil => rfl
  | cons path rest ih =>
    rw [firstFile_cons]
    split
    · next passed => simpa [obstacle?, passed] using ih
    · next ends => simp [obstacle?, ends]

/-- The loop notes the candidates that it looks at, and no others. -/
theorem firstFile_noting (noted : List String) :
    firstFile disk.noting paths noted = (firstFile disk paths, noted ++ examined disk paths) := by
  induction paths generalizing noted with
  | nil => rw [examined, List.append_nil]; rfl
  | cons path rest ih =>
    rw [firstFile_noting_cons, firstFile_cons, examined]
    split
    · rw [ih, List.append_assoc, List.singleton_append]
    · rfl

/-! ### From a directory outward -/

/-- The candidates in a directory and the `n` around it, going outward. -/
def candidatesUpTo (dir : String) (n : Nat) : List String :=
  (List.range (n + 1)).flatMap fun i => candidates (Path.dir^[i] dir)

/-- The `n`th directory around this one is the first that is the boundary or the outermost one. -/
structure EndsAt (boundary : Option String) (dir : String) (n : Nat) : Prop where
  here : boundary = some (Path.dir^[n] dir) ∨ Path.dir^[n + 1] dir = Path.dir^[n] dir
  before : ∀ i < n, boundary ≠ some (Path.dir^[i] dir) ∧ Path.dir^[i + 1] dir ≠ Path.dir^[i] dir

variable {boundary : Option String} {dir : String} {n : Nat}

theorem candidatesUpTo_zero : candidatesUpTo dir 0 = candidates dir :=
  List.append_nil _

/-- One directory more adds the candidates of the directory above. -/
theorem candidatesUpTo_succ :
    candidatesUpTo dir (n + 1) = candidates dir ++ candidatesUpTo (Path.dir dir) n := by
  rw [candidatesUpTo, List.range_succ_eq_map, List.flatMap_cons, List.flatMap_map]
  rfl

/-- The way outward ends at once at the boundary and at the root. -/
theorem endsAt_zero_iff : EndsAt boundary dir 0 ↔ boundary = some dir ∨ Path.dir dir = dir := by
  constructor
  · rintro ⟨here, -⟩
    rwa [Function.iterate_succ_apply, Function.iterate_zero_apply,
      Function.iterate_zero_apply] at here
  · intro here
    refine ⟨?_, fun i hi => absurd hi (Nat.not_lt_zero i)⟩
    rwa [Function.iterate_succ_apply, Function.iterate_zero_apply, Function.iterate_zero_apply]

/-- Otherwise it ends where the way from the directory above ends, one step later. -/
theorem endsAt_succ_iff : EndsAt boundary dir (n + 1) ↔
    (boundary ≠ some dir ∧ Path.dir dir ≠ dir) ∧ EndsAt boundary (Path.dir dir) n := by
  constructor
  · rintro ⟨here, before⟩
    refine ⟨?_, ?_, fun i hi => ?_⟩
    · have now := before 0 n.succ_pos
      rwa [Function.iterate_succ_apply, Function.iterate_zero_apply,
        Function.iterate_zero_apply] at now
    · rwa [Function.iterate_succ_apply, Function.iterate_succ_apply] at here
    · have later := before (i + 1) (Nat.succ_lt_succ hi)
      rwa [Function.iterate_succ_apply, Function.iterate_succ_apply] at later
  · rintro ⟨now, here, before⟩
    refine ⟨?_, fun i hi => ?_⟩
    · rwa [Function.iterate_succ_apply, Function.iterate_succ_apply]
    · cases i with
      | zero =>
        rwa [Function.iterate_succ_apply, Function.iterate_zero_apply, Function.iterate_zero_apply]
      | succ i =>
        have later := before i (Nat.lt_of_succ_lt_succ hi)
        rwa [Function.iterate_succ_apply, Function.iterate_succ_apply]

/-- Going outward comes to an end, because paths get shorter. -/
theorem exists_endsAt (boundary : Option String) (dir : String) : ∃ n, EndsAt boundary dir n := by
  by_cases ends : boundary = some dir ∨ Path.dir dir = dir
  · exact ⟨0, endsAt_zero_iff.mpr ends⟩
  · obtain ⟨n, further⟩ := exists_endsAt boundary (Path.dir dir)
    exact ⟨n + 1, endsAt_succ_iff.mpr ⟨not_or.mp ends, further⟩⟩
termination_by Path.height dir
decreasing_by exact Path.height_dir_lt fun same => ends (.inr same)

/-- The search decides in a directory or goes on to the one above. -/
theorem searchOutward_step : searchOutward disk boundary origin dir =
    match obstacle? disk (candidates dir) with
    | some path => verdict disk path
    | none =>
      if boundary = some dir ∨ Path.dir dir = dir then .error (.notFound origin)
      else searchOutward disk boundary origin (Path.dir dir) := by
  rw [searchOutward, firstFile_eq]
  cases obstacle? disk (candidates dir) with
  | some path =>
    dsimp only [Option.map_some, Option.elim_some]
    cases verdict disk path <;> rfl
  | none =>
    dsimp only [Option.map_none, Option.elim_none]
    rw [ite_or]
    rfl

/-- The search notes the candidates of a directory before it goes on. -/
theorem searchOutward_noting_step (noted : List String) :
    searchOutward disk.noting boundary origin dir noted =
      match obstacle? disk (candidates dir) with
      | some path => (verdict disk path, noted ++ examined disk (candidates dir))
      | none =>
        if boundary = some dir ∨ Path.dir dir = dir then
          (.error (.notFound origin), noted ++ examined disk (candidates dir))
        else searchOutward disk.noting boundary origin (Path.dir dir)
          (noted ++ examined disk (candidates dir)) := by
  rw [searchOutward, bind_apply, firstFile_noting, firstFile_eq]
  cases obstacle? disk (candidates dir) with
  | some path =>
    dsimp only [Option.map_some, Option.elim_some]
    cases verdict disk path <;> rfl
  | none =>
    dsimp only [Option.map_none, Option.elim_none]
    rw [ite_or]
    split
    · rfl
    · split <;> rfl

/-- More candidates count only where all before are passed. -/
theorem outcome_append : outcome disk origin (paths ++ more) =
    match obstacle? disk paths with
    | some path => verdict disk path
    | none => outcome disk origin more := by
  rw [outcome, obstacle?_append]
  cases obstacle? disk paths <;> rfl

/-- By induction on the number of directories that are left. -/
theorem searchOutward_eq (ends : EndsAt boundary dir n) :
    searchOutward disk boundary origin dir = outcome disk origin (candidatesUpTo dir n) := by
  induction n generalizing dir with
  | zero =>
    rw [searchOutward_step, candidatesUpTo_zero, outcome]
    simp only [endsAt_zero_iff.mp ends, if_true]
    cases obstacle? disk (candidates dir) <;> rfl
  | succ n ih =>
    obtain ⟨now, further⟩ := endsAt_succ_iff.mp ends
    rw [searchOutward_step, if_neg (not_or.mpr now), ih further, candidatesUpTo_succ,
      outcome_append]
    cases obstacle? disk (candidates dir) <;> rfl

/-- What is looked at, by the same induction. -/
theorem searchOutward_noting (ends : EndsAt boundary dir n) (noted : List String) :
    searchOutward disk.noting boundary origin dir noted =
      (outcome disk origin (candidatesUpTo dir n),
        noted ++ examined disk (candidatesUpTo dir n)) := by
  induction n generalizing dir noted with
  | zero =>
    rw [searchOutward_noting_step, candidatesUpTo_zero, outcome]
    simp only [endsAt_zero_iff.mp ends, if_true]
    cases obstacle? disk (candidates dir) <;> rfl
  | succ n ih =>
    obtain ⟨now, further⟩ := endsAt_succ_iff.mp ends
    rw [searchOutward_noting_step, if_neg (not_or.mpr now), ih further, candidatesUpTo_succ,
      outcome_append, examined_append]
    cases obstacle? disk (candidates dir) with
    | some path => simp
    | none => simp [List.append_assoc]

end

end Project

end Lox
