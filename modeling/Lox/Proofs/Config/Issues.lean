import Lox.Config
import Mathlib.Data.List.Basic

/-!
What is wrong with settings. Every field can be wrong in one way, and every position of the list of
natives in one of two; all that is wrong is listed, in the order of the fields, and nothing else.
-/

namespace Lox.Config

/-! ### What can be wrong, and where -/

/-- Where something can be wrong. -/
inductive Spot where
  | name
  | entry
  | callDepth
  /-- A position in the list of natives. -/
  | native (i : Nat)
  | parallelism

/-- The number of the field that the spot is in. -/
def Spot.field : Spot → Nat
  | name => 0
  | entry => 1
  | callDepth => 2
  | native _ => 3
  | parallelism => 4

/-- The order of spots: that of the fields, and within the natives that of the positions. -/
inductive Spot.Before : Spot → Spot → Prop where
  | field {s t : Spot} : s.field < t.field → Before s t
  | position {i j : Nat} : i < j → Before (.native i) (.native j)

/-- What is wrong with a native that comes after others. -/
inductive NativeWrong (earlier : List String) (name : String) : Issue → Prop where
  | unknown : name ∉ Native.standardNames → NativeWrong earlier name (.unknownNative name)
  | repeated : name ∈ Native.standardNames → name ∈ earlier →
    NativeWrong earlier name (.repeatedNative name)

/-- What is wrong with settings at a spot. -/
inductive Wrong (c : Config) : Spot → Issue → Prop where
  | name : (∀ char ∈ c.name.toList, Text.isBlank char = true) → Wrong c .name .noName
  | entry : c.entry ≠ "" → ¬ ".lox".toList <:+ c.entry.toList →
    Wrong c .entry (.entrySuffix c.entry)
  | callDepth : c.maxCallDepth ≤ 0 → Wrong c .callDepth (.callDepth c.maxCallDepth)
  | native {i : Nat} {name : String} {issue : Issue} : c.natives[i]? = some name →
    NativeWrong (c.natives.take i) name issue → Wrong c (.native i) issue
  | parallelism : c.parallelism < 1 → Wrong c .parallelism (.parallelism c.parallelism)

/-- The issues are what is wrong, each listed once and all in the order of their spots. -/
def Lists (wrong : Spot → Issue → Prop) (issues : List Issue) : Prop :=
  ∃ found : List (Spot × Issue), found.map (·.2) = issues ∧
    found.Pairwise (fun a b => a.1.Before b.1) ∧
      ∀ spot issue, (spot, issue) ∈ found ↔ wrong spot issue

/-! ### Lists of issues -/

section Lists

variable {P Q : Spot → Issue → Prop} {issues more : List Issue}

theorem Lists.congr (h : Lists P issues) (same : ∀ spot issue, P spot issue ↔ Q spot issue) :
    Lists Q issues := by
  obtain ⟨found, listed, ordered, all⟩ := h
  exact ⟨found, listed, ordered, fun spot issue => (all spot issue).trans (same spot issue)⟩

/-- What is wrong at later spots is listed behind. -/
theorem Lists.append (h : Lists P issues) (h' : Lists Q more)
    (before : ∀ s i t j, P s i → Q t j → s.Before t) :
    Lists (fun spot issue => P spot issue ∨ Q spot issue) (issues ++ more) := by
  obtain ⟨found, rfl, ordered, hP⟩ := h
  obtain ⟨found', rfl, ordered', hQ⟩ := h'
  refine ⟨found ++ found', List.map_append, ?_, ?_⟩
  · refine List.pairwise_append.mpr ⟨ordered, ordered', ?_⟩
    intro a ha b hb
    exact before _ _ _ _ ((hP a.1 a.2).mp ha) ((hQ b.1 b.2).mp hb)
  · intro spot issue
    rw [List.mem_append, hP, hQ]

theorem lists_nil (none : ∀ spot issue, ¬ P spot issue) : Lists P [] :=
  ⟨[], rfl, .nil, fun spot issue => iff_of_false List.not_mem_nil (none spot issue)⟩

theorem lists_single (spot : Spot) {issue : Issue}
    (only : ∀ s i, P s i ↔ s = spot ∧ i = issue) : Lists P [issue] := by
  refine ⟨[(spot, issue)], rfl, List.pairwise_singleton _ _, ?_⟩
  intro s i
  rw [only, List.mem_singleton, Prod.mk.injEq]

/-- A field that can be wrong in one way. -/
theorem lists_field (p : Prop) [Decidable p] (spot : Spot) (issue : Issue) :
    Lists (fun s i => p ∧ s = spot ∧ i = issue) (if p then [issue] else []) := by
  by_cases h : p
  · rw [if_pos h]
    exact lists_single spot fun s i => and_iff_right h
  · rw [if_neg h]
    exact lists_nil fun s i wrong => h wrong.1

/-- There are no issues exactly if nothing is wrong. -/
theorem Lists.eq_nil_iff (h : Lists P issues) : issues = [] ↔ ∀ spot issue, ¬ P spot issue := by
  obtain ⟨found, rfl, -, hP⟩ := h
  rw [List.map_eq_nil_iff, List.eq_nil_iff_forall_not_mem]
  constructor
  · intro none spot issue wrong
    exact none (spot, issue) ((hP spot issue).mpr wrong)
  · rintro none ⟨spot, issue⟩ mem
    exact none spot issue ((hP spot issue).mp mem)

end Lists

/-! ### Natives -/

/-- The first of some natives, by itself. -/
theorem lists_native {earlier seen : List String} (same : ∀ name, name ∈ seen ↔ name ∈ earlier)
    (i : Nat) (name : String) :
    Lists (fun s issue => s = .native i ∧ NativeWrong earlier name issue)
      (if ¬ Native.standardNames.contains name then [.unknownNative name]
       else if seen.contains name then [.repeatedNative name]
       else []) := by
  -- a name is looked up among the natives first, and among those named before only then
  by_cases known : name ∈ Native.standardNames
  · rw [if_neg (by simpa using known)]
    by_cases again : name ∈ earlier
    · rw [if_pos (List.contains_iff_mem.mpr ((same name).mpr again))]
      refine lists_single (.native i) fun s issue => and_congr_right fun _ => ?_
      constructor
      · rintro (unknown | _)
        · exact absurd known unknown
        · rfl
      · rintro rfl
        exact .repeated known again
    · rw [if_neg fun h => again ((same name).mp (List.contains_iff_mem.mp h))]
      refine lists_nil ?_
      rintro s issue ⟨-, unknown | repeated⟩
      · exact unknown known
      · exact again ‹_›
  · rw [if_pos (by simpa using known)]
    refine lists_single (.native i) fun s issue => and_congr_right fun _ => ?_
    constructor
    · rintro (_ | there)
      · rfl
      · exact absurd there known
    · rintro rfl
      exact .unknown known

/-- By induction on what is left of the list; `earlier` is what stands before. -/
theorem lists_nativeIssues (rest earlier seen : List String)
    (same : ∀ name, name ∈ seen ↔ name ∈ earlier) :
    Lists (fun s issue => ∃ j name, s = .native (earlier.length + j) ∧ rest[j]? = some name ∧
        NativeWrong (earlier ++ rest.take j) name issue)
      (nativeIssues seen rest) := by
  -- name by name: what was seen is what stands earlier in the list
  induction rest generalizing earlier seen with
  | nil =>
    refine lists_nil ?_
    rintro s issue ⟨j, name, -, there, -⟩
    cases there
  | cons name rest ih =>
    have later : ∀ other, other ∈ name :: seen ↔ other ∈ earlier ++ [name] := by
      intro other
      rw [List.mem_cons, List.mem_append, List.mem_singleton, same, or_comm]
    refine ((lists_native same earlier.length name).append (ih _ _ later) ?_).congr ?_
    · rintro _ i t j ⟨rfl, -⟩ ⟨k, other, rfl, -⟩
      refine .position ?_
      rw [List.length_append, List.length_singleton]
      omega
    · intro s issue
      constructor
      · rintro (⟨rfl, wrong⟩ | ⟨j, other, rfl, there, wrong⟩)
        · refine ⟨0, name, rfl, rfl, ?_⟩
          rwa [List.take_zero, List.append_nil]
        · refine ⟨j + 1, other, ?_, there, ?_⟩
          · rw [List.length_append, List.length_singleton, Nat.add_right_comm, Nat.add_assoc]
          · rwa [List.take_succ_cons, List.append_cons]
      · rintro ⟨j, other, rfl, there, wrong⟩
        cases j with
        | zero =>
          cases there
          rw [List.take_zero, List.append_nil] at wrong
          exact .inl ⟨rfl, wrong⟩
        | succ j =>
          rw [List.take_succ_cons, List.append_cons] at wrong
          refine .inr ⟨j, other, ?_, there, wrong⟩
          rw [List.length_append, List.length_singleton, Nat.add_right_comm, Nat.add_assoc]

/-! ### All fields -/

variable {c : Config}

/-- A script is told by the end of its name. -/
theorem isScript_iff (path : String) : isScript path = true ↔ ".lox".toList <:+ path.toList :=
  List.isSuffixOf_iff_suffix

theorem isAllBlank_iff (s : String) :
    Text.isAllBlank s = true ↔ ∀ char ∈ s.toList, Text.isBlank char = true :=
  List.all_eq_true

/-- All that is wrong with settings is listed, in order, and nothing else. -/
theorem lists_issues (c : Config) : Lists c.Wrong c.issues := by
  have natives := lists_nativeIssues c.natives [] [] fun _ => Iff.rfl
  have name := lists_field (Text.isAllBlank c.name = true) .name .noName
  have entry := lists_field (c.entry ≠ "" ∧ ¬ isScript c.entry = true) .entry (.entrySuffix c.entry)
  have depth := lists_field (c.maxCallDepth ≤ 0) .callDepth (.callDepth c.maxCallDepth)
  have parallelism := lists_field (c.parallelism < 1) .parallelism (.parallelism c.parallelism)
  -- the checks stand in the order of the fields
  refine Lists.congr ((((name.append entry ?_).append depth ?_).append natives ?_).append
    parallelism ?_) ?_
  · rintro _ i _ j ⟨-, rfl, -⟩ ⟨-, rfl, -⟩
    exact .field (by decide)
  · rintro _ i _ j (⟨-, rfl, -⟩ | ⟨-, rfl, -⟩) ⟨-, rfl, -⟩
    all_goals exact .field (by decide)
  · rintro _ i _ j ((⟨-, rfl, -⟩ | ⟨-, rfl, -⟩) | ⟨-, rfl, -⟩) ⟨k, _, rfl, -⟩
    all_goals exact .field (by simp [Spot.field])
  · rintro _ i _ j (((⟨-, rfl, -⟩ | ⟨-, rfl, -⟩) | ⟨-, rfl, -⟩) | ⟨k, _, rfl, -⟩) ⟨-, rfl, -⟩
    all_goals exact .field (by simp [Spot.field])
  · intro spot issue
    simp only [isScript_iff, isAllBlank_iff, List.length_nil, Nat.zero_add, List.nil_append]
    constructor
    · rintro ((((⟨wrong, rfl, rfl⟩ | ⟨⟨given, wrong⟩, rfl, rfl⟩) | ⟨wrong, rfl, rfl⟩) |
        ⟨i, name, rfl, there, wrong⟩) | ⟨wrong, rfl, rfl⟩)
      · exact .name wrong
      · exact .entry given wrong
      · exact .callDepth wrong
      · exact .native there wrong
      · exact .parallelism wrong
    · rintro (wrong | ⟨given, wrong⟩ | wrong | ⟨there, wrong⟩ | wrong)
      · exact .inl (.inl (.inl (.inl ⟨wrong, rfl, rfl⟩)))
      · exact .inl (.inl (.inl (.inr ⟨⟨given, wrong⟩, rfl, rfl⟩)))
      · exact .inl (.inl (.inr ⟨wrong, rfl, rfl⟩))
      · exact .inl (.inr ⟨_, _, rfl, there, wrong⟩)
      · exact .inr ⟨wrong, rfl, rfl⟩

theorem validate_eq_ok_iff_issues : c.validate = .ok () ↔ c.issues = [] := by
  rw [validate, ← List.isEmpty_iff]
  split <;> simp_all

/-- Settings are accepted where nothing is wrong with them. -/
theorem validate_eq_ok_iff_wrong : c.validate = .ok () ↔ ∀ spot issue, ¬ c.Wrong spot issue :=
  validate_eq_ok_iff_issues.trans (lists_issues c).eq_nil_iff

/-- The check fails with all issues, in order. -/
theorem issues_of_validate {issues : List Issue} (h : c.validate = .error issues) :
    issues = c.issues := by
  unfold validate at h
  split at h
  · cases h
  · exact (Except.error.inj h).symm

end Lox.Config
