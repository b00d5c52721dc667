import Mathlib.Data.List.Forall2
import Lox.Fixture

/-!
When a fixture passes: nothing is missing, nothing is there that was not expected, and whatever the
expectations leave open may be anything.
-/

namespace Lox.Fixture

/-- The diagnostic is the expected one, as far as a line and a place were expected. -/
structure Agrees (want got : Diagnostic) : Prop where
  stage : got.stage = want.stage
  message : got.message = want.message
  line : want.line ≠ 0 → got.line = want.line
  place : want.place ≠ "" → got.place = want.place

/-- The result is what the fixture expects: the program ran, its output is that of the fixture, and
its diagnostics agree with those of the fixture one by one, as many as there are. -/
structure Meets (f : Fixture) (r : Result) : Prop where
  ran : r.error = none
  stdout : r.stdout = f.stdout
  diagnostics : List.Forall₂ Agrees f.diagnostics r.diagnostics

theorem agrees_iff {want got : Diagnostic} : agrees want got = true ↔ Agrees want got := by
  unfold agrees
  simp only [Bool.and_eq_true, Bool.or_eq_true, decide_eq_true_eq]
  constructor
  · rintro ⟨⟨⟨stage, message⟩, line⟩, place⟩
    exact ⟨stage, message, line.resolve_left, place.resolve_left⟩
  · rintro ⟨stage, message, line, place⟩
    exact ⟨⟨⟨stage, message⟩, Decidable.or_iff_not_imp_left.mpr line⟩,
      Decidable.or_iff_not_imp_left.mpr place⟩

theorem outputMismatch_eq_nil_iff {want got : String} :
    outputMismatch want got = [] ↔ got = want := by
  unfold outputMismatch
  split
  · next same => exact iff_of_true rfl same
  · next other => exact iff_of_false (List.cons_ne_nil _ _) other

theorem diagnosticMismatches_eq_nil_iff (i : Nat) {wants gots : List Diagnostic}
    (same : gots.length = wants.length) :
    diagnosticMismatches i wants gots = [] ↔ List.Forall₂ Agrees wants gots := by
  induction wants generalizing i gots with
  | nil =>
    cases List.length_eq_zero_iff.mp same
    exact iff_of_true rfl .nil
  | cons want wants ih =>
    cases gots with
    | nil => cases same
    | cons got gots =>
      rw [diagnosticMismatches, List.append_eq_nil_iff, List.forall₂_cons,
        ih (i + 1) (Nat.succ.inj same), ← agrees_iff]
      split
      · next agreed => simp [agreed]
      · next other => simp [other]

theorem mismatches_eq_nil_iff {f : Fixture} {stdout : String} {diagnostics : List Diagnostic} :
    f.mismatches stdout diagnostics = [] ↔
      stdout = f.stdout ∧ List.Forall₂ Agrees f.diagnostics diagnostics := by
  unfold mismatches
  rw [List.append_eq_nil_iff, outputMismatch_eq_nil_iff]
  split
  · next other =>
    exact and_congr_right fun _ =>
      iff_of_false (List.cons_ne_nil _ _) fun agreed => other agreed.length_eq.symm
  · next same => rw [diagnosticMismatches_eq_nil_iff 0 (Decidable.of_not_not same)]

theorem passed_of_compared {f : Fixture} {r : Result} (ran : r.error = none)
    (compared : r.mismatches = f.mismatches r.stdout r.diagnostics) :
    r.passed = true ↔ f.Meets r := by
  unfold Result.passed
  rw [ran, compared, Option.isNone_none, Bool.true_and, List.isEmpty_iff, mismatches_eq_nil_iff]
  exact ⟨fun ⟨stdout, diagnostics⟩ => ⟨ran, stdout, diagnostics⟩,
    fun met => ⟨met.stdout, met.diagnostics⟩⟩

/-- A result with an error does not pass, and is not what was expected. -/
theorem passed_of_error {f : Fixture} {r : Result} (failed : r.error ≠ none) :
    r.passed = true ↔ f.Meets r := by
  refine iff_of_false (fun passed => failed ?_) fun met => failed met.ran
  unfold Result.passed at passed
  exact Option.isNone_iff_eq_none.mp (Bool.and_eq_true_iff.mp passed).1

/-- A fixture that was run passes if and only if it gave what it was expected to. -/
theorem passed_run (f : Fixture) (c : Config) (replies : Natives) :
    (f.run c replies).passed = true ↔ f.Meets (f.run c replies) := by
  unfold run
  split
  · exact passed_of_error nofun
  · next s _ =>
    dsimp only
    split
    · exact passed_of_compared rfl rfl
    · exact passed_of_compared rfl rfl
    · exact passed_of_error nofun

end Lox.Fixture
