import Lox.Proofs.Fixture.Batch
import Lox.Proofs.Fixture.Compare

/-!
The results of fixtures do not depend on the order in which a pool runs them. A fixture that is left
alone gives what it gives when it is run alone, whatever becomes of the others; the other fixtures
give that as well, or nothing but the reason for which they were not run.
-/

namespace Lox.Batch

open Fixture (Result)

variable {b : Batch} {d : Pool.Discipline} {s s' : State} {m : Move} {k i : Nat} {f : Fixture}

/-! ### Fixtures that are left alone -/

theorem waits_step (orderly : b.Orderly d s) (h : b.step? s m = some s') (spares : m.Spares k s)
    (waits : ∀ i, s.handles[k]? = some i → s.pool.Waits i) :
    ∀ i, s'.handles[k]? = some i → s'.pool.Waits i := by
  have sound := orderly.sound
  cases m with
  | submit cancelled =>
    obtain ⟨f, -, rfl⟩ := Option.map_eq_some_iff.mp h
    intro i handle
    rw [List.getElem?_append] at handle
    split at handle
    · refine (waits i handle).step (a := .submit _ cancelled) sound rfl ?_
      rintro (ends | ends)
      all_goals cases ends
    -- the task is that of the fixture itself, just submitted
    · obtain ⟨last, rfl⟩ : s.handles.length = k ∧ s.pool.tasks.length = i := by
        rw [List.getElem?_singleton] at handle
        grind
      obtain ⟨rfl, opened⟩ := spares last
      exact Pool.waits_submit opened
  | pool a =>
    obtain ⟨q, step, rfl⟩ := Option.map_eq_some_iff.mp h
    exact fun i handle => (waits i handle).step sound step (spares i handle)
  | collect =>
    obtain ⟨f, i, t, -, -, -, -, -, rfl⟩ := exists_of_collect? h
    exact waits

theorem waits_after {moves : List Move} (orderly : b.Orderly d s) (spares : b.Spares k s moves)
    (waits : ∀ i, s.handles[k]? = some i → s.pool.Waits i) :
    ∀ i, (b.after s moves).handles[k]? = some i → (b.after s moves).pool.Waits i := by
  induction moves generalizing s with
  | nil => exact waits
  | cons m rest ih =>
    obtain ⟨spares, later⟩ := spares
    change ∀ i, (b.after (b.act s m) rest).handles[k]? = some i →
      (b.after (b.act s m) rest).pool.Waits i
    unfold act at later ⊢
    cases h : b.step? s m with
    | none =>
      rw [h] at later
      exact ih orderly later waits
    | some s' =>
      rw [h] at later
      exact ih (orderly.step (steps_of_step? h)) later (waits_step orderly h spares waits)

/-! ### Results -/

/-- What may come of a fixture. -/
inductive MayGive (b : Batch) (p : Pool Result) (k : Nat) (f : Fixture) : Result → Prop where
  | result : MayGive b p k f (b.result k f)
  /-- The pool was closed when the fixture was submitted. -/
  | closed : p.closed = true → MayGive b p k f (failed f .closed)
  /-- The context was over before the program was started. -/
  | ended (why : Pool.Cancellation) : MayGive b p k f (failed f why.error)

/-- Whether a result passes is decided by the fixture's expectations alone. -/
theorem MayGive.passed_iff {p : Pool Result} {r : Result} (gives : b.MayGive p k f r) :
    r.passed = true ↔ f.Meets r := by
  cases gives with
  | result => exact Fixture.passed_run f b.config (b.replies k)
  | closed => exact Fixture.passed_of_error nofun
  | ended => exact Fixture.passed_of_error nofun

/-- The result of a handle that was looked at. -/
theorem Orderly.exists_result (orderly : b.Orderly d s) (handle : s.handles[k]? = some i)
    (next : b.fixtures[k]? = some f) (seen : k < s.collected) :
    ∃ r, s.slots[k]? = some (some r) ∧ b.MayGive s.pool k f r ∧
      (s.pool.Waits i → r = b.result k f) := by
  have sound := orderly.sound
  have kept := orderly.kept handle next
  obtain ⟨t, there, final, missed⟩ := kept.looked seen
  have known : t.phase.hasResult = true :=
    Pool.Phase.hasResult_of_isOver ((sound.tasks there).isFinal_iff ▸ final)
  have given (shows : t.Shows (.ok (b.result k f))) :
        s.slots[k]? = some (some (b.result k f)) :=
    kept.gave t there ⟨known, shows.given⟩
  by_cases waits : s.pool.Waits i
  · have shows := kept.promises.shows_of_waits sound there final waits
    exact ⟨_, given shows, .result, fun _ => rfl⟩
  · obtain ⟨_, shows, rfl | ⟨rfl, closed⟩ | ⟨why, rfl⟩⟩ := kept.promises.shows sound there final
    · exact ⟨_, given shows, .result, fun _ => rfl⟩
    · exact ⟨_, missed _ shows.error, .closed closed, fun alone => absurd alone waits⟩
    · exact ⟨_, missed _ shows.error, .ended why, fun alone => absurd alone waits⟩

/-! ### Progress -/

/-- Whatever the workers and the one who runs the batch do brings it nearer to its end. -/
theorem work_lt_of_step? (own : m.isOwn = true) (h : b.step? s m = some s') :
    b.work s' < b.work s := by
  unfold work
  cases m with
  | submit cancelled =>
    obtain ⟨f, next, rfl⟩ := Option.map_eq_some_iff.mp h
    have more : s.handles.length < b.fixtures.length := (List.getElem?_eq_some_iff.mp next).1
    have pool := (Pool.work_submit s.pool (.gives (b.result s.handles.length f)) cancelled).2
    dsimp only
    rw [List.length_append, List.length_singleton]
    omega
  | pool a =>
    obtain ⟨q, step, rfl⟩ := Option.map_eq_some_iff.mp h
    exact Nat.add_lt_add_left (Pool.work_lt_of_step? own step) _
  | collect =>
    obtain ⟨f, i, t, -, next, -, -, -, rfl⟩ := exists_of_collect? h
    have more : s.collected < b.fixtures.length := (List.getElem?_eq_some_iff.mp next).1
    dsimp only
    omega

/-- If the others' bodies end, the batch is stuck only when it is through. -/
theorem Orderly.returned (orderly : b.Orderly d s) (rest : b.AtRest s)
    (others : ∀ i t, s.pool.task? i = some t → i ∉ s.handles → ¬ t.Held) : b.Returned s := by
  -- a fixture not yet submitted could be, and this is no rest
  have all : s.handles.length = b.fixtures.length := by
    refine Nat.le_antisymm orderly.handles (Nat.le_of_not_lt fun more => ?_)
    have stuck := rest (.submit false) rfl
    rw [step?, submit?, List.getElem?_eq_getElem more] at stuck
    cases stuck
  have pool : s.pool.AtRest := fun a isWork =>
    Option.map_eq_none_iff.mp (rest (.pool a) isWork)
  -- fixtures come to an end, so their tasks hold nothing back
  have held (i : Nat) (t : Pool.Task Result) (there : s.pool.task? i = some t) : ¬ t.Held := by
    by_cases own : i ∈ s.handles
    · obtain ⟨k, handle⟩ := List.mem_iff_getElem?.mp own
      have small : k < b.fixtures.length := all ▸ (List.getElem?_eq_some_iff.mp handle).1
      exact (orderly.kept handle (List.getElem?_eq_getElem small)).promises.not_held there
    · exact others i t there own
  obtain ⟨actions, reached⟩ := orderly.reached
  have finished := Pool.finished_run d actions (reached ▸ pool) (reached ▸ held)
  rw [← reached] at finished
  refine Nat.le_antisymm (all ▸ orderly.collected) (Nat.le_of_not_lt fun more => ?_)
  have next := List.getElem?_eq_getElem more
  have handle := List.getElem?_eq_getElem (all ▸ more : s.collected < s.handles.length)
  obtain ⟨t, there, -⟩ := (orderly.kept handle next).promises
  obtain ⟨t', there', final⟩ := finished _ (Pool.lt_length_of_task? there)
  -- the next task has ended, so it could be looked at
  have stuck := rest .collect rfl
  rw [step?, collect?, if_pos all, next, Option.bind_some, handle, Option.bind_some, there',
    Option.bind_some, if_pos final] at stuck
  cases stuck

/-- On a pool of their own the fixtures are run as each of them alone. -/
theorem runEach_eq (b : Batch) (d : Pool.Discipline) :
    Fixture.runEach d b.fixtures b.config b.replies = b.fixtures.mapIdx b.result := by
  have outcomes := @Pool.outcomes_settle _ d (b.fixtures.mapIdx b.result)
  have bodies : (b.fixtures.mapIdx b.result).map Pool.Body.gives =
      b.fixtures.mapIdx fun k f => .gives (b.result k f) :=
    List.ext_getElem (by simp) (by simp)
  rw [bodies] at outcomes
  unfold Fixture.runEach
  refine (congrArg (List.zipWith Result.ofOutcome b.fixtures) outcomes).trans ?_
  refine List.ext_getElem (by simp) fun k small _ => ?_
  simp [Result.ofOutcome]

/-- Fixtures give the same on every pool and in every order, each with the natives that it has when
it is run alone. Whatever else the pool is used for, and however the workers, the others and the one
who runs the fixtures take turns: when all handles were looked at, there is for each fixture what it
gives when it is run alone, or nothing but the error that the pool was closed or that its context
was over, and it is the first for every fixture that was left alone; a result passes if and only if
it is what its fixture expects. What the workers and the one who runs the fixtures do comes to an
end, and this only when all handles were looked at, or when the body of some other task does not
end. -/
theorem results_unscheduled (b : Batch) (d : Pool.Discipline)
    (before : List (Pool.Action Result)) (moves : List Move) :
    let s := b.run d before moves
    s.slots.length = b.fixtures.length ∧
    (b.Returned s → ∀ k f, b.fixtures[k]? = some f → ∃ r, s.slots[k]? = some (some r) ∧
      b.MayGive s.pool k f r ∧
      (b.Spares k (b.start (Pool.run d before)) moves → r = b.result k f) ∧
      (r.passed = true ↔ f.Meets r)) ∧
    (∀ m s', m.isOwn = true → b.step? s m = some s' → b.work s' < b.work s) ∧
    (b.AtRest s → (∀ i t, s.pool.task? i = some t → i ∉ s.handles → ¬ t.Held) → b.Returned s) ∧
    Fixture.runEach d b.fixtures b.config b.replies = b.fixtures.mapIdx b.result := by
  intro s
  -- the invariant of the batch, from its start on
  have first : b.Orderly d (b.start (Pool.run d before)) := orderly_start before
  have orderly : b.Orderly d s := first.after moves
  refine ⟨orderly.slots, fun returned k f next => ?_, fun _ _ => work_lt_of_step?,
    orderly.returned, runEach_eq b d⟩
  have small : k < b.fixtures.length := (List.getElem?_eq_some_iff.mp next).1
  have seen : k < s.collected := returned ▸ small
  have handle := List.getElem?_eq_getElem (Nat.lt_of_lt_of_le seen orderly.collected)
  obtain ⟨r, slot, gives, alone⟩ := orderly.exists_result handle next seen
  refine ⟨r, slot, gives, fun spares => ?_, gives.passed_iff⟩
  exact alone (waits_after first spares nofun _ handle)

/-- Two fixtures. -/
def pair : Batch where
  fixtures := [{ source := "print 1;", stdout := "1\n" }, { source := "print 2;", stdout := "2\n" }]
  config := {}
  replies k := Native.standardReplies k.toFloat

/-- The second one is taken first, and the context of the other ends while that waits for a slot. -/
def overtaken : List Move :=
  [.submit false, .submit false, .pool (.take 1), .pool (.park 0), .pool (.start 1),
    .pool (.enter 1), .pool (.cancel 0), .pool (.finish 0), .pool (.conclude 1), .pool (.finish 1),
    .collect, .collect]

/-- The one that is left alone has its result. -/
theorem results_unscheduled_overtaken :
    let s := pair.run (.ofLimit 1) [] overtaken
    (pair.Returned s ∧ pair.Spares 1 (pair.start (Pool.run (.ofLimit 1) [])) overtaken) ∧
      s.slots[1]? = some (some (pair.result 1 pair.fixtures[1])) := by
  intro s
  have returned : pair.Returned s := by
    show s.collected = 2
    decide +kernel
  have own {s : State} {a : Pool.Action Result} (isWork : a.isWork = true) :
      (Move.pool a).Spares 1 s := fun _ _ => Pool.not_endsContext isWork
  have spares : pair.Spares 1 (pair.start (Pool.run (.ofLimit 1) [])) overtaken := by
    refine ⟨fun _ => ⟨rfl, rfl⟩, fun _ => ⟨rfl, rfl⟩, own rfl, own rfl, own rfl, own rfl, ?_,
      own rfl, own rfl, own rfl, trivial, trivial, trivial⟩
    intro i handle
    obtain rfl : 1 = i := Option.some_inj.mp handle
    rintro (ends | ends)
    all_goals cases ends
  obtain ⟨-, results, -⟩ := results_unscheduled pair (.ofLimit 1) [] overtaken
  obtain ⟨r, slot, -, alone, -⟩ := results returned 1 _ rfl
  exact ⟨⟨returned, spares⟩, slot.trans (by rw [alone spares]; rfl)⟩

end Lox.Batch
