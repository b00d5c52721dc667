import Lox.Proofs.Pool.Life

/-!
Those who wait. A caller comes back only when it is served, and what it was served for stays:
finished tasks stay finished, and to a closed pool only finished tasks are added.
-/

namespace Lox.Pool

variable {α : Type} {p q : Pool α} {i j : Nat} {t u : Task α}

/-- The task is there, and its handle is finished. -/
def Finished (p : Pool α) (i : Nat) : Prop := ∃ t, p.task? i = some t ∧ t.status.isFinal = true

/-- A task is finished when it is over. -/
theorem Sound.finished_iff (sound : p.Sound) :
    p.Finished i ↔ ∃ phase, p.phase? i = some phase ∧ phase.isOver = true := by
  constructor
  · rintro ⟨t, there, final⟩
    refine ⟨t.phase, phase?_of_task? there, ?_⟩
    rwa [← (sound.tasks there).isFinal_iff]
  · rintro ⟨phase, here, ended⟩
    obtain ⟨t, there, rfl⟩ := Option.map_eq_some_iff.mp here
    refine ⟨t, there, ?_⟩
    rwa [(sound.tasks there).isFinal_iff]

/-- A task that is finished stays so. -/
theorem Sound.finished_step (sound : p.Sound) (finished : p.Finished i) (h : p.Steps q) :
    q.Finished i := by
  obtain ⟨t, there, final⟩ := finished
  obtain ⟨u, there', changes⟩ := h.changes there
  have later := changes.later (sound.tasks there)
  exact ⟨u, there', by rwa [Status.eq_of_mayBecome final later.status]⟩

/-- A pool that is closed stays closed. -/
theorem Steps.closed (h : p.Steps q) (closed : p.closed = true) : q.closed = true := by
  cases h with
  | submit body cancelled =>
    unfold Pool.submit
    rw [if_pos closed]
    exact closed
  | close | shutdown => rfl
  | _ => exact closed

/-- No task goes away. -/
theorem Steps.length_le (h : p.Steps q) : p.tasks.length ≤ q.tasks.length := by
  obtain same | ⟨body, cancelled, rfl⟩ := h.length_cases
  · exact Nat.le_of_eq same.symm
  · rw [length_submit]
    exact Nat.le_succ _

/-- All tasks are finished, and what comes is refused. -/
structure Over (p : Pool α) : Prop where
  closed : p.closed = true
  finished : ∀ i < p.tasks.length, p.Finished i

/-- Where all is over, it stays so. -/
theorem Over.step (ended : p.Over) (sound : p.Sound) (h : p.Steps q) : q.Over := by
  refine ⟨h.closed ended.closed, fun i small => ?_⟩
  obtain ⟨u, there⟩ : ∃ u, q.task? i = some u := ⟨_, List.getElem?_eq_getElem small⟩
  obtain ⟨t, before, changes⟩ | ⟨-, body, cancelled, rfl⟩ := h.task?_cases there
  · exact sound.finished_step (ended.finished i (lt_length_of_task? before)) h
  · refine (sound.step h).finished_iff.mpr ⟨_, phase?_of_task? there, ?_⟩
    rw [phase_newTask, if_pos ended.closed]
    rfl

/-- Nothing is run any more. -/
theorem Over.ran_step (ended : p.Over) (sound : p.Sound) (h : p.Steps q) : q.ran = p.ran := by
  obtain ⟨same, -⟩ | ⟨i, t, there, started, -⟩ := h.ran_cases
  · exact same
  · obtain ⟨t', there', final⟩ := ended.finished i (lt_length_of_task? there)
    rw [there] at there'
    cases there'
    rw [(sound.tasks there).isFinal_iff, started] at final
    cases final

/-- Where all is over, no body is run any more. -/
theorem Over.after (ended : p.Over) (sound : p.Sound) (more : List (Action α)) :
    (p.after more).ran = p.ran := by
  refine (after_induction (P := fun q => q.Sound ∧ q.Over ∧ q.ran = p.ran) ⟨sound, ended, rfl⟩ ?_
    more).2.2
  rintro q r ⟨sound, ended, same⟩ h
  exact ⟨sound.step h, ended.step sound h, (ended.ran_step sound h).trans same⟩

/-- Whoever has come back from the pool has not come back too early. -/
structure Honest (p : Pool α) : Prop where
  since : ∀ c ∈ p.callers, c.since ≤ p.tasks.length
  flush : ∀ c ∈ p.callers, c.state = .returned → ∀ i < c.since, p.Finished i
  closed : ∀ c ∈ p.callers, c.errand = .shutdown → p.closed = true
  shutdown : ∀ c ∈ p.callers, c.errand = .shutdown → c.state = .returned → p.Over

/-- An empty pool has served nobody. -/
theorem honest_empty (d : Discipline) : ({ discipline := d } : Pool α).Honest :=
  ⟨nofun, nofun, nofun, nofun⟩

/-- Callers stay what they are, but for whether they sleep. -/
theorem Caller.woken_returned {c : Caller} (h : c.woken.state = .returned) :
    c.state = .returned := by
  unfold woken at h
  grind

/-- In one step a caller wakes up or falls asleep, comes, or comes back since it is served. -/
theorem Steps.callers_cases (h : p.Steps q) {c : Caller} (mem : c ∈ q.callers) :
    (∃ b ∈ p.callers, c.errand = b.errand ∧ c.since = b.since ∧
      (c.state = .returned → b.state = .returned)) ∨
    (c.since = p.tasks.length ∧ c.state = .awake ∧ (c.errand = .shutdown → q.closed = true)) ∨
    ∃ b ∈ p.callers, c.errand = b.errand ∧ c.since = b.since ∧ p.serves b.errand = true := by
  have old (mem : c ∈ p.callers) : ∃ b ∈ p.callers, c.errand = b.errand ∧ c.since = b.since ∧
      (c.state = .returned → b.state = .returned) := ⟨c, mem, rfl, rfl, id⟩
  -- to wake a caller gives it no answer
  have woken (mem : c ∈ p.callers.map Caller.woken) : ∃ b ∈ p.callers, c.errand = b.errand ∧
      c.since = b.since ∧ (c.state = .returned → b.state = .returned) := by
    obtain ⟨b, there, rfl⟩ := List.mem_map.mp mem
    exact ⟨b, there, rfl, rfl, Caller.woken_returned⟩
  cases h with
  | submit body cancelled =>
    unfold Pool.submit at mem
    split at mem
    · exact .inl (old mem)
    · split at mem
      · exact .inl (woken mem)
      · exact .inl (old mem)
  | close | stop | release => exact .inl (woken mem)
  | flush =>
    rcases List.mem_append.mp mem with mem | new
    · exact .inl (old mem)
    · cases List.mem_singleton.mp new
      exact .inr (.inl ⟨rfl, rfl, nofun⟩)
  | shutdown =>
    rcases List.mem_append.mp mem with mem | new
    · exact .inl (woken mem)
    · cases List.mem_singleton.mp new
      exact .inr (.inl ⟨rfl, rfl, fun _ => rfl⟩)
  | serve there awake serves =>
    rcases List.mem_or_eq_of_mem_set mem with mem | rfl
    · exact .inl (old mem)
    · exact .inr (.inr ⟨_, List.mem_of_getElem? there, rfl, rfl, serves⟩)
  | rest there =>
    rcases List.mem_or_eq_of_mem_set mem with mem | rfl
    · exact .inl (old mem)
    · exact .inl ⟨_, List.mem_of_getElem? there, rfl, rfl, nofun⟩
  | _ => exact .inl (old mem)

/-- Callers are not let down, if all tasks are finished whenever a caller is served. -/
theorem Honest.step (honest : p.Honest) (sound : p.Sound)
    (serves : ∀ errand, p.serves errand = true → ∀ i < p.tasks.length, p.Finished i)
    (h : p.Steps q) : q.Honest := by
  refine ⟨fun c mem => ?_, fun c mem returned i small => ?_, fun c mem shutdown => ?_,
    fun c mem shutdown returned => ?_⟩
  -- a caller was there before, or came just now, or is given its answer just now
  all_goals obtain ⟨b, there, errand, since, back⟩ | ⟨since, awake, closed⟩ |
    ⟨b, there, errand, since, served⟩ := h.callers_cases mem
  · rw [since]
    exact Nat.le_trans (honest.since b there) h.length_le
  · rw [since]
    exact h.length_le
  · rw [since]
    exact Nat.le_trans (honest.since b there) h.length_le
  · rw [since] at small
    exact sound.finished_step (honest.flush b there (back returned) i small) h
  · rw [awake] at returned
    cases returned
  · rw [since] at small
    exact sound.finished_step
      (serves _ served i (Nat.lt_of_lt_of_le small (honest.since b there))) h
  · exact h.closed (honest.closed b there (errand.symm.trans shutdown))
  · exact closed shutdown
  · exact h.closed (honest.closed b there (errand.symm.trans shutdown))
  · exact (honest.shutdown b there (errand.symm.trans shutdown) (back returned)).step sound h
  · rw [awake] at returned
    cases returned
  · have closed := honest.closed b there (errand.symm.trans shutdown)
    exact Over.step ⟨closed, serves _ served⟩ sound h

end Lox.Pool
