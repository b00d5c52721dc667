import Lox.Proofs.Pool.Bounded
import Lox.Proofs.Pool.Serial

/-!
The life of a handle, whatever the discipline of its pool.
-/

namespace Lox.Pool

variable {α : Type} {p q : Pool α} {i j : Nat} {t u : Task α}

namespace Task

/-- Status, error and announcements of the handle fit together. -/
structure Consistent (t : Task α) : Prop where
  announced : t.announced = if t.status.isFinal then 1 else 0
  unfinished : t.status.isFinal = false → t.error? = none
  succeeded : t.status.isFinal = true → (t.error? = none ↔ t.status = .succeeded)
  cancelled : t.status = .cancelled ↔ ∃ e, t.error? = some e ∧ e.isCancellation = true

/-- What a handle shows of a task fits together. -/
theorem Sound.consistent (sound : t.Sound) : t.Consistent := by
  -- a handle shows all of its result at once, so it is consistent before and after
  cases ended : t.phase.isOver with
  | true =>
    have final : t.status.isFinal = true := sound.isFinal_iff.trans ended
    obtain ⟨result, shows⟩ := sound.ended ended
    refine ⟨?_, fun going => ?_, fun _ => ?_, ?_⟩
    · rw [shows.announced, if_pos final]
    · rw [final] at going
      cases going
    · rw [shows.error, shows.status]
      exact errorOf_eq_none_iff
    · rw [shows.error, shows.status]
      exact statusOf_eq_cancelled_iff
  | false =>
    have going : t.status.isFinal = false := sound.isFinal_iff.trans ended
    obtain ⟨-, error, announced⟩ := sound.going ended
    refine ⟨?_, fun _ => error, fun final => ?_, iff_of_false (fun cancelled => ?_) ?_⟩
    · rw [announced, going]
      rfl
    · rw [going] at final
      cases final
    · rw [cancelled] at going
      cases going
    · rw [error]
      rintro ⟨e, given, -⟩
      cases given

/-- A finished handle shows how the body ended. -/
theorem Sound.shows_ending (sound : t.Sound) {ending : Ending α} (ends : t.EndsAs ending)
    (final : t.status.isFinal = true) :
    t.status = statusOf ending.result ∧ t.error? = errorOf ending.result := by
  have ended : t.phase.isOver = true := sound.isFinal_iff ▸ final
  obtain ⟨result, shows⟩ := sound.ended ended
  have given : t.result? = some ending.result := by
    refine (ends.resolve_left ?_).2
    rintro ⟨inBody, -⟩
    rw [inBody] at ended
    cases ended
  cases shows.given.symm.trans given
  exact ⟨shows.status, shows.error⟩

end Task

/-- At rest every task is finished, unless a body is held. -/
theorem finished_run (d : Discipline) (actions : List (Action α))
    (rest : (run d actions).AtRest)
    (ends : ∀ i t, (run d actions).task? i = some t → ¬ t.Held) :
    ∀ i < (run d actions).tasks.length, (run d actions).Finished i := by
  cases d with
  | serial =>
    obtain ⟨sound, orderly, -, -⟩ := regular_run actions
    obtain ⟨queue, inactive, -⟩ := orderly.atRest sound rest ends
    exact orderly.finished sound queue inactive
  | bounded limit positive =>
    obtain ⟨sound, measured, full, -⟩ := bounded_run positive actions
    obtain ⟨-, done⟩ := measured.atRest full sound rest ends
    exact measured.serves sound .flush ((measured.serves_iff _).mpr done)

/-- The order in which bodies are run only gets longer. -/
theorem ran_prefix_after (p : Pool α) (actions : List (Action α)) :
    p.ran <+: (p.after actions).ran :=
  after_induction (P := fun q => p.ran <+: q.ran) List.prefix_rfl
    (fun ran h => ran.trans h.ran_prefix) actions

/-- What becomes of a task is later than what it was. -/
theorem later_after (sound : p.Sound) (there : p.task? i = some t) (actions : List (Action α)) :
    ∃ u, (p.after actions).task? i = some u ∧ t.Later u := by
  refine (after_induction (P := fun q => q.Sound ∧ ∃ u, q.task? i = some u ∧ t.Later u)
    ⟨sound, t, there, .refl t⟩ ?_ actions).2
  rintro q r ⟨sound, u, there, later⟩ h
  obtain ⟨v, there', changes⟩ := h.changes there
  exact ⟨sound.step h, v, there', later.trans (changes.later (sound.tasks there))⟩

/-- What was submitted too late has failed from the first, and is never run. -/
theorem refused_after (sound : p.Sound) (closed : p.closed = true) (body : Body α)
    (cancelled : Bool) (more : List (Action α)) :
    let r := (p.act (.submit body cancelled)).after more
    p.tasks.length ∉ r.ran ∧ ∃ u, r.task? p.tasks.length = some u ∧
      u.status = .failed ∧ u.error? = some .closed ∧ u.announced = 1 := by
  intro r
  have sound' : r.Sound := (sound.step (.submit body cancelled)).after more
  have new : (p.newTask body cancelled).phase = .refused ∧
      (p.newTask body cancelled).result? = some (.error .closed) := by
    unfold newTask
    rw [closed]
    exact ⟨rfl, rfl⟩
  -- no action changes a task that was refused
  obtain ⟨u, there, refused, given⟩ : ∃ u, r.task? p.tasks.length = some u ∧
      u.phase = .refused ∧ u.result? = some (.error .closed) := by
    refine exists_task?_after (P := fun u => u.phase = .refused ∧ u.result? = some (.error .closed))
      task?_submit_length new (fun ⟨refused, given⟩ changes => ?_) more
    refine ⟨changes.refused_iff.mpr refused, (changes.result? ?_).trans given⟩
    rw [refused]
    rfl
  refine ⟨fun ran => ?_, u, there, ?_⟩
  · obtain ⟨v, there', beyond⟩ := sound'.beyond _ ran
    cases there.symm.trans there'
    rw [refused] at beyond
    cases beyond
  · obtain ⟨result, shows⟩ := (sound'.tasks there).ended (by rw [refused]; rfl)
    cases shows.given.symm.trans given
    exact ⟨shows.status, shows.error, shows.announced⟩

/-- Whatever callers and workers of a pool do, and in whatever order: handles are pending, then
running, then finished, or finished at once, and what a finished handle shows fits together and
stays; a body is entered once at most, never after its context is over, and never if the pool was
closed when the task came; a task ends as its body does, also if that crashes; tasks that were
accepted are not finished without their bodies unless someone ends their contexts; and the pool
comes to rest only with all tasks finished, or in a body that does not end. -/
theorem handles_sound (d : Discipline) (actions more : List (Action α)) :
    let p : Pool α := run d actions
    let q := p.after more
    (∀ i t, p.task? i = some t → t.Consistent ∧ ∃ u, q.task? i = some u ∧ t.Later u) ∧
    (p.ran.Nodup ∧ p.ran <+: q.ran) ∧
    (∀ i t, p.task? i = some t → t.cancelled? ≠ none → i ∉ p.ran → i ∉ q.ran) ∧
    (p.closed = true → ∀ body cancelled,
      let r := (p.act (.submit body cancelled)).after more
      p.tasks.length ∉ r.ran ∧ ∃ u, r.task? p.tasks.length = some u ∧
        u.status = .failed ∧ u.error? = some .closed ∧ u.announced = 1) ∧
    (∀ i t, p.task? i = some t → t.phase = .inBody → ∀ ending, t.ending? = some ending →
      ∃ u, q.task? i = some u ∧ (u.status.isFinal = true →
        u.status = statusOf ending.result ∧ u.error? = errorOf ending.result ∧
          ∀ message, ending = .crashes message → u.status = .failed)) ∧
    (∀ i ∈ p.accepted, (∃ t, p.task? i = some t ∧ t.cancelled? = none) →
      (∀ a ∈ more, ¬ a.EndsContext i) → q.Finished i → i ∈ q.ran) ∧
    (p.AtRest → (∀ i t, p.task? i = some t → ¬ t.Held) → ∀ i < p.tasks.length, p.Finished i) := by
  intro p q
  -- one invariant; each part reads something off it, here or after more actions
  have sound : p.Sound := sound_run d actions
  refine ⟨fun i t there => ⟨(sound.tasks there).consistent, later_after sound there more⟩,
    ⟨sound.once, ran_prefix_after p more⟩, fun i t there ended unrun => ?_,
    fun closed body cancelled => refused_after sound closed body cancelled more,
    fun i t there inBody ending ends => ?_, fun i mem ⟨t, there, fresh⟩ others finished => ?_,
    finished_run d actions⟩
  · obtain ⟨why, ended⟩ := Option.ne_none_iff_exists'.mp ended
    exact (cancelled?_after there ended unrun more).1
  · obtain ⟨u, there', ends⟩ := exists_task?_after (P := fun u => u.EndsAs ending) there
      (.inl ⟨inBody, ends⟩) Task.EndsAs.changes more
    refine ⟨u, there', fun final => ?_⟩
    obtain ⟨status, error⟩ := ((sound.after more).tasks there').shows_ending ends final
    refine ⟨status, error, ?_⟩
    rintro message rfl
    exact status
  · have waits := (waits_of_mem_accepted mem there fresh).after sound others
    exact waits.mem_ran (sound.after more) finished

/-- A task is about to crash, and another one waits behind it. -/
def crashing : List (Action Unit) :=
  [.submit (.crashes "boom") false, .submit (.gives ()) false, .take 0, .start 0, .enter 0]

/-- The crash is an error like others, and the worker serves the next task. -/
theorem handles_sound_crashing :
    let q := (run .serial crashing).after ([.conclude 0, .finish 0, .leave 0] ++ serve 1)
    (q.ran = [0, 1] ∧ q.queue = []) ∧
      ∃ u, q.task? 0 = some u ∧ u.status = .failed ∧ u.error? = some (.crashed "boom") := by
  refine ⟨by decide +kernel, ?_⟩
  have here : (run .serial crashing).phase? 0 = some .inBody := by decide +kernel
  have final : (((run .serial crashing).after ([.conclude 0, .finish 0, .leave 0] ++ serve 1)).task?
      0).map (·.status.isFinal) = some true := by decide +kernel
  obtain ⟨t, there, inBody⟩ := Option.map_eq_some_iff.mp here
  obtain ⟨v, there', final⟩ := Option.map_eq_some_iff.mp final
  have body : ((run .serial crashing).task? 0).bind Task.ending? = some (.crashes "boom") := rfl
  rw [there, Option.bind_some] at body
  obtain ⟨u, there'', shown⟩ := (handles_sound .serial crashing _).2.2.2.2.1 0 t there inBody _ body
  cases there'.symm.trans there''
  obtain ⟨-, error, failed⟩ := shown final
  exact ⟨v, there', failed "boom" rfl, error⟩

end Lox.Pool
