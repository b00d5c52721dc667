import Lox.Proofs.Session.Basic

/-!
What is wrong with a program before it runs keeps it from running at all. A session reports exactly
what the checks find, all of it of the first stage that finds anything, and stays as it was; so the
programs that fail the checks can be left out of a session without a trace.
-/

namespace Lox

open Source

/-- The first stage that finds something wrong with a text. -/
def failingStage? (source : String) : Option Stage :=
  let scanned := scan source
  let parsed := Grammar.parse scanned.tokens
  if scanned.errors ≠ [] then some .scan
  else if parsed.errors ≠ [] then some .parse
  else if (Scope.resolve parsed.program).errors ≠ [] then some .resolve
  else none

/-! ### What the checks find -/

/-- Errors that are all of one stage are diagnostics of that stage. -/
theorem stages_of_map {α : Type} {f : α → Diagnostic} {stage : Stage} (h : ∀ a, (f a).stage = stage)
    {errors : List α} (found : errors ≠ []) :
    errors.map f ≠ [] ∧ ∀ d ∈ errors.map f, d.stage = stage := by
  refine ⟨by simpa using found, fun d hd => ?_⟩
  obtain ⟨a, -, rfl⟩ := List.mem_map.mp hd
  exact h a

/-- The checks find nothing, or something of the first stage that fails. -/
theorem validate_stage (source : String) :
    match validate source with
    | .ok _ => failingStage? source = none
    | .error ds => ds ≠ [] ∧ ∃ stage, stage.isStatic = true ∧ failingStage? source = some stage ∧
        ∀ d ∈ ds, d.stage = stage := by
  unfold validate check Grammar.parseSource failingStage?
  dsimp only
  -- the stages in order: the first with an error is the last that is looked at
  by_cases scans : (scan source).errors = []
  · by_cases parses : (Grammar.parse (scan source).tokens).errors = []
    · by_cases resolves :
        (Scope.resolve (Grammar.parse (scan source).tokens).program).errors = []
      · simp [scans, parses, resolves]
      · obtain ⟨some_, all⟩ := stages_of_map (f := Diagnostic.ofScope) (fun _ => rfl) resolves
        simp only [scans, parses, resolves, List.isEmpty_nil, List.isEmpty_iff, if_true, if_false,
          ne_eq, not_true_eq_false, not_false_eq_true]
        exact ⟨some_, .resolve, rfl, rfl, all⟩
    · obtain ⟨some_, all⟩ := stages_of_map (f := Diagnostic.ofParse) (fun _ => rfl) parses
      simp only [scans, parses, List.isEmpty_nil, List.isEmpty_iff, if_true, if_false, ne_eq,
        not_true_eq_false, not_false_eq_true]
      exact ⟨some_, .parse, rfl, rfl, all⟩
  · obtain ⟨some_, all⟩ := stages_of_map (f := Diagnostic.ofScan) (fun _ => rfl) scans
    simp only [scans, List.isEmpty_iff, if_true, if_false, ne_eq, not_false_eq_true]
    exact ⟨some_, .scan, rfl, rfl, all⟩

/-- Diagnostics of one stage are of that stage together. -/
theorem stageOf_eq {ds : List Diagnostic} {stage : Stage} (found : ds ≠ [])
    (all : ∀ d ∈ ds, d.stage = stage) : Diagnostic.stageOf ds = stage := by
  cases ds with
  | nil => exact absurd rfl found
  | cons d rest => exact all d List.mem_cons_self

/-! ### What a session does with them -/

namespace Session

variable {s : Session} {source : String} {ds : List Diagnostic}

/-- A source that does not pass is reported and leaves the session as it is. -/
theorem run_of_error (h : validate source = .error ds) :
    s.run source = (s, some (.reported ds)) := by
  rw [run, h]

/-- A program that runs does not fail in a stage before the run. -/
theorem not_static_of_execute {p : Program} (h : (s.execute p).2 = some (.reported ds)) :
    (Diagnostic.stageOf ds).isStatic = false := by
  unfold execute at h
  split at h
  · cases h
  · next stop w run =>
    cases stop with
    | raised token fault =>
      cases h
      rfl
    | unplaced fault => cases h
    | outOfFuel => cases h

/-- A session reports something static exactly if the checks find it. -/
theorem reported_static_iff :
    ((s.run source).2 = some (.reported ds) ∧ (Diagnostic.stageOf ds).isStatic = true) ↔
      validate source = .error ds := by
  have stages := validate_stage source
  constructor
  · rintro ⟨failed, isStatic⟩
    unfold run at failed
    split at failed
    · next found =>
      cases failed
      exact found
    · rw [not_static_of_execute failed] at isStatic
      cases isStatic
  · intro h
    rw [h] at stages
    obtain ⟨found, stage, isStatic, -, all⟩ := stages
    rw [run_of_error h, stageOf_eq found all]
    exact ⟨rfl, isStatic⟩

end Session

/-! ### Sessions without the programs that fail the checks -/

/-- What can be seen of a step: what it prints, and what there is after it. -/
structure Observation where
  printed : String
  runs : Nat
  globals : Bindings Value
  failure : Option Failure

/-- The step is no program that fails the checks. -/
def Action.passes : Action → Bool
  | .lend _ => true
  | .run source => (validate source).isOk

namespace Session

def failure? (s : Session) : Action → Option Failure
  | .lend _ => none
  | .run source => (s.run source).2

def observe (s : Session) (action : Action) : Observation where
  printed := (s.act action).outputSince s.world.printed.size
  runs := (s.act action).runs
  globals := (s.act action).globals
  failure := s.failure? action

/-- Every step in turn, with what is seen of it. -/
def trace (s : Session) : List Action → List (Action × Observation)
  | [] => []
  | action :: rest => (action, s.observe action) :: (s.act action).trace rest

/-- An action that does not pass leaves the session as it is. -/
theorem act_of_not_passes {s : Session} {action : Action} (h : action.passes = false) :
    s.act action = s := by
  cases action with
  | lend native => cases h
  | run source =>
    rw [Action.passes] at h
    cases found : validate source with
    | ok p =>
      rw [found] at h
      cases h
    | error ds => rw [act, run_of_error found]

/-- Sources that do not pass may be left out of a session, and nothing else in it changes. -/
theorem trace_filter (s : Session) (actions : List Action) :
    s.trace (actions.filter (·.passes)) = (s.trace actions).filter (·.1.passes) := by
  induction actions generalizing s with
  | nil => rfl
  | cons action rest ih =>
    rw [trace, List.filter_cons, List.filter_cons]
    by_cases passes : action.passes = true
    · rw [if_pos passes, if_pos passes, trace, ih]
    · rw [if_neg passes, if_neg passes, ih, act_of_not_passes (Bool.eq_false_iff.mpr passes)]

end Session

/-- Static errors are an all-or-nothing gate. A session fails with static diagnostics exactly if the
checks find them; they are not empty and all of the first stage that fails, and the session stays as
it was. So in any sequence of steps those that fail the checks can be left out, and nothing changes
in what is seen of the others. -/
theorem static_errors_gate (s : Session) :
    (∀ source ds, ((s.run source).2 = some (.reported ds) ∧
        (Diagnostic.stageOf ds).isStatic = true) ↔ validate source = .error ds) ∧
      (∀ source ds, validate source = .error ds → ds ≠ [] ∧
        (∀ d ∈ ds, failingStage? source = some d.stage) ∧ (s.run source).1 = s) ∧
        ∀ actions, s.trace (actions.filter (·.passes)) = (s.trace actions).filter (·.1.passes) := by
  refine ⟨fun source ds => Session.reported_static_iff, fun source ds h => ?_, s.trace_filter⟩
  have stages := validate_stage source
  rw [h] at stages
  obtain ⟨found, stage, -, first, all⟩ := stages
  refine ⟨found, fun d hd => ?_, by rw [Session.run_of_error h]⟩
  rw [first, all d hd]

/-- A text of one character that no token has. -/
def strayCharacter : String := "@"

theorem strayCharacter_fails : ∃ ds, validate strayCharacter = .error ds := by
  have cut_ : cut strayCharacter.toList = [.bad (.unexpectedCharacter '@') ['@']] := by
    rw [show strayCharacter.toList = ['@'] from rfl]
    refine cut_step rfl ?_
    exact cut_nil
  have fails : (validate strayCharacter).isOk = false := by
    unfold validate check Grammar.parseSource scan
    rw [cut_]
    rfl
  cases found : validate strayCharacter with
  | ok p =>
    rw [found] at fails
    cases fails
  | error ds => exact ⟨ds, rfl⟩

/-- A session before its first run. -/
def newSession : Session := { machine := { maxDepth := 8, natives := Native.standardReplies 0 } }

/-- A text that cannot be scanned is reported at that stage and leaves a new session as it is. -/
theorem static_errors_gate_strayCharacter : ∃ ds,
    validate strayCharacter = .error ds ∧ ds ≠ [] ∧
      (∀ d ∈ ds, failingStage? strayCharacter = some d.stage) ∧
        (newSession.run strayCharacter).1 = newSession := by
  obtain ⟨ds, h⟩ := strayCharacter_fails
  exact ⟨ds, h, (static_errors_gate newSession).2.1 strayCharacter ds h⟩

end Lox
