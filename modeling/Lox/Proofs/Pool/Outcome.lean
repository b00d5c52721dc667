import Lox.Proofs.Pool.Context

/-!
Tasks whose bodies give values. Such a task ends with its value, with the end of its context, or
with the refusal of a closed pool; what is done with other tasks makes no difference.
-/

namespace Lox.Pool

variable {α : Type} {p q : Pool α} {i : Nat} {t u : Task α} {value : α} {cancelled : Bool}

/-- The task results in the value. -/
def Task.Gave (t : Task α) (value : α) : Prop :=
  t.phase.hasResult = true ∧ t.result? = some (.ok value)

/-- The body of the task gives the value; only a closed pool refused it. -/
def Promises (p : Pool α) (i : Nat) (value : α) : Prop :=
  ∃ t, p.task? i = some t ∧ t.body = .gives value ∧
    (i ∈ p.ran → t.EndsAs (.gives value)) ∧
    (t.phase = .refused → p.closed = true ∧ t.result? = some (.error .closed))

theorem ran_submit {body : Body α} : (p.submit body cancelled).ran = p.ran := by
  unfold submit
  split
  · rfl
  · split <;> rfl

theorem closed_submit {body : Body α} : (p.submit body cancelled).closed = p.closed := by
  unfold submit
  split
  · rfl
  · split <;> rfl

/-- A task whose body gives a value promises that value. -/
theorem promises_submit (sound : p.Sound) :
    (p.submit (.gives value) cancelled).Promises p.tasks.length value := by
  refine ⟨_, task?_submit_length, ?_, fun ran => ?_, fun refused => ?_⟩
  · unfold newTask
    cases p.closed <;> rfl
  · rw [ran_submit] at ran
    obtain ⟨t, there, -⟩ := sound.beyond _ ran
    exact absurd (lt_length_of_task? there) (Nat.lt_irrefl _)
  · rw [closed_submit]
    rw [phase_newTask] at refused
    unfold newTask
    cases closed : p.closed with
    | true => exact ⟨rfl, rfl⟩
    | false =>
      rw [closed] at refused
      cases refused

/-- A promise is kept by every step. -/
theorem Promises.step (promises : p.Promises i value) (h : p.Steps q) : q.Promises i value := by
  obtain ⟨t, there, body, entered, refused⟩ := promises
  obtain ⟨u, there', changes⟩ := h.changes there
  refine ⟨u, there', changes.body.trans body, fun ran => ?_, fun late => ?_⟩
  · obtain ⟨same, -⟩ | ⟨k, t', here, -, -, rfl⟩ := h.ran_cases
    · rw [same] at ran
      exact (entered ran).changes changes
    · rcases List.mem_append.mp ran with old | new
      · exact (entered old).changes changes
      · cases List.mem_singleton.mp new
        cases there.symm.trans here
        cases there'.symm.trans (task?_setTask_self (p := { p with ran := p.ran ++ [i] }) there)
        refine .inl ⟨rfl, ?_⟩
        unfold Task.ending?
        rw [body]
  · obtain ⟨closed, given⟩ := refused (changes.refused_iff.mp late)
    refine ⟨h.closed closed, (changes.result? ?_).trans given⟩
    rw [changes.refused_iff.mp late]
    rfl

/-- To finish a task changes nothing of its result. -/
theorem Task.result?_finish (t : Task α) (result : Except TaskError α) :
    (t.finish result).result? = t.result? := by
  unfold finish
  split <;> rfl

/-- A task comes to its value in one way only: its body comes to its end. -/
theorem concludes_of_step? {a : Action α} (h : p.step? a = some q) (there : p.task? i = some t)
    (there' : q.task? i = some u) (before : ¬ t.Gave value) (after : u.Gave value) :
    a = .conclude i := by
  obtain ⟨u', here, makes⟩ := makes_of_step? h there
  cases there'.symm.trans here
  obtain ⟨known, given⟩ := after
  -- Except at the end of its body, what the task results in is not new, or not known, or an error.
  cases makes with
  | conclude => rfl
  | same | release | tell => exact absurd ⟨known, given⟩ before
  | cancel | expire =>
    refine absurd ?_ before
    unfold Task.cancel at known given
    unfold Task.Gave
    grind [Task.withdraw]
  | take | park | start | enter | receive => cases known
  | withdraw | skip => cases given
  | finish phase | giveUp phase =>
    exact absurd ⟨by rw [phase]; rfl, (Task.result?_finish ..).symm.trans given⟩ before
  | leave phase | give phase | depart phase => exact absurd ⟨by rw [phase]; rfl, given⟩ before

/-- A task whose body was entered results in its value, when it is over. -/
theorem Promises.result? (promises : p.Promises i value) (there : p.task? i = some t)
    (ran : i ∈ p.ran) (ended : t.phase.isOver = true) : t.result? = some (.ok value) := by
  obtain ⟨t', there', -, entered, -⟩ := promises
  cases there.symm.trans there'
  obtain ⟨inBody, -⟩ | ⟨-, given⟩ := entered ran
  · rw [inBody] at ended
    cases ended
  · exact given

/-- A task that was submitted to an open pool waits for its body. -/
theorem waits_submit {body : Body α} (opened : p.closed = false) :
    (p.submit body false).Waits p.tasks.length := by
  refine ⟨_, task?_submit_length, ?_, .inl ?_⟩
  · rw [phase_newTask, opened]
    decide
  · unfold newTask
    rw [opened]
    rfl

section Finished

variable (promises : p.Promises i value) (sound : p.Sound) (there : p.task? i = some t)
  (final : t.status.isFinal = true)

include promises sound there final

/-- What the handle of a finished task shows. -/
theorem Promises.shows : ∃ result, t.Shows result ∧
    (result = .ok value ∨ result = .error .closed ∧ p.closed = true ∨
      ∃ why : Cancellation, result = .error why.error) := by
  have ended : t.phase.isOver = true := (sound.tasks there).isFinal_iff ▸ final
  obtain ⟨result, shows⟩ := (sound.tasks there).ended ended
  refine ⟨result, shows, ?_⟩
  by_cases ran : i ∈ p.ran
  · cases shows.given.symm.trans (promises.result? there ran ended)
    exact .inl rfl
  · right
    obtain late | ⟨why, -, given⟩ :=
      (sound.unentered there ran).result (Phase.hasResult_of_isOver ended)
    · obtain ⟨t', there', -, -, refused⟩ := promises
      cases there.symm.trans there'
      obtain ⟨closed, given⟩ := refused late
      cases shows.given.symm.trans given
      exact .inl ⟨rfl, closed⟩
    · cases shows.given.symm.trans given
      exact .inr ⟨why, rfl⟩

/-- If the task was not refused and nobody ends its context, it ends with its value. -/
theorem Promises.shows_of_waits (waits : p.Waits i) : t.Shows (.ok value) := by
  have ended : t.phase.isOver = true := (sound.tasks there).isFinal_iff ▸ final
  have ran : i ∈ p.ran := waits.mem_ran sound ⟨t, there, final⟩
  obtain ⟨result, shows⟩ := (sound.tasks there).ended ended
  cases shows.given.symm.trans (promises.result? there ran ended)
  exact shows

end Finished

end Lox.Pool
