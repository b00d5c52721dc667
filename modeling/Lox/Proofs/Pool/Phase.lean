import Lox.Proofs.Pool.Step

/-!
The phases of tasks. A task that is over stays so, a task that was refused is never accepted, and
the accepted tasks only get more.
-/

namespace Lox.Pool

variable {α : Type} {p q : Pool α} {i j : Nat} {t u : Task α}

namespace Phase

/-- The handle is finished in the phase. -/
def isOver : Phase → Bool
  | finished | leaving | gone | refused => true
  | waiting | parked | withdrawn | taken | started | inBody | returned => false

/-- The task is taken and not let go. -/
def isGoing : Phase → Bool
  | taken | started | inBody | returned | finished => true
  | waiting | parked | withdrawn | leaving | gone | refused => false

/-- The task had a slot or none, but has none any more. -/
def hasLeft : Phase → Bool
  | leaving | gone => true
  | waiting | parked | withdrawn | taken | started | inBody | returned | finished | refused => false

/-- The task has come to its body, or is beyond it. -/
def isBeyond : Phase → Bool
  | inBody | returned | finished | leaving | gone => true
  | waiting | parked | withdrawn | taken | started | refused => false

/-- What the task results in is known. -/
def hasResult : Phase → Bool
  | withdrawn | returned | finished | leaving | gone | refused => true
  | waiting | parked | taken | started | inBody => false

/-- The phases that may come right after one. -/
def next : Phase → List Phase
  | waiting => [parked, withdrawn, taken]
  | parked => [withdrawn, taken]
  | withdrawn => [leaving]
  | taken => [started]
  | started => [inBody, returned]
  | inBody => [returned]
  | returned => [finished]
  | finished => [leaving, gone]
  | leaving => [gone]
  | gone | refused => []

variable {old : Phase}

/-- What is beyond the body stays there. -/
theorem isBeyond_next : ∀ new ∈ old.next, old.isBeyond = true → new.isBeyond = true := by
  cases old <;> decide

/-- A result that is known stays known. -/
theorem hasResult_next : ∀ new ∈ old.next, old.hasResult = true → new.hasResult = true := by
  cases old <;> decide

/-- A task that has left does not come back. -/
theorem hasLeft_next : ∀ new ∈ old.next, old.hasLeft = true → new.hasLeft = true := by
  cases old <;> decide

/-- A task that is over has a result. -/
theorem hasResult_of_isOver {phase : Phase} (ended : phase.isOver = true) :
    phase.hasResult = true := by
  cases phase <;> first | rfl | cases ended

/-- A task is refused from the first or never. -/
theorem refused_next : ∀ new ∈ old.next, old ≠ .refused ∧ new ≠ .refused := by
  cases old <;> decide

/-- Every step brings a task nearer to its end. -/
theorem ahead_next : ∀ new ∈ old.next, new.ahead < old.ahead := by
  cases old <;> decide

end Phase

namespace Task

/-- The end of a context withdraws a task that is parked, and moves no other. -/
theorem phase_cancel (t : Task α) (why : Cancellation) :
    (t.cancel why).phase = t.phase ∨ t.phase = .parked ∧ (t.cancel why).phase = .withdrawn := by
  unfold cancel
  split
  · exact .inl rfl
  · dsimp only
    split
    · next parked => exact .inr ⟨parked, rfl⟩
    · exact .inl rfl

/-- By itself a task goes on while it has its slot, or gives up waiting for one. -/
theorem Inner.phase (h : t.Inner u) :
    u.phase = t.phase ∨ u.phase ∈ t.phase.next ∧
      (t.phase.isGoing = true ∧ u.phase.isGoing = true ∨
        t.phase = .parked ∧ u.phase = .withdrawn ∨ t.phase = .withdrawn ∧ u.phase = .leaving) := by
  cases h with
  | cancel why =>
    refine (phase_cancel t why).imp_right fun ⟨parked, withdrawn⟩ => ?_
    refine ⟨?_, .inr (.inl ⟨parked, withdrawn⟩)⟩
    rw [parked, withdrawn]
    decide
  | release => exact .inl rfl
  | tell => exact .inl rfl
  | start h | skip h | conclude h | finish h | giveUp h =>
    simp [h, Phase.next, Phase.isGoing]

/-- A change leaves a task in its phase or moves it to one of the next. -/
theorem Changes.phase (h : t.Changes u) : u.phase = t.phase ∨ u.phase ∈ t.phase.next := by
  cases h with
  | same => exact .inl rfl
  | inner h => exact h.phase.imp_right (·.1)
  | take h =>
    rcases h with h | h
    all_goals simp [h, Phase.next]
  | park h | withdraw h | enter h | leave h | release h | depart h =>
    simp [h, Phase.next, Task.withdraw]

/-- A task that is beyond its body stays there. -/
theorem Changes.isBeyond (h : t.Changes u) (beyond : t.phase.isBeyond = true) :
    u.phase.isBeyond = true := by
  rcases h.phase with same | next
  · rw [same, beyond]
  · exact Phase.isBeyond_next _ next beyond

/-- A task that has a result keeps it. -/
theorem Changes.hasResult (h : t.Changes u) (known : t.phase.hasResult = true) :
    u.phase.hasResult = true := by
  rcases h.phase with same | next
  · rw [same, known]
  · exact Phase.hasResult_next _ next known

/-- No change refuses a task, or takes a refusal back. -/
theorem Changes.refused_iff (h : t.Changes u) : u.phase = .refused ↔ t.phase = .refused := by
  rcases h.phase with same | next
  · rw [same]
  · obtain ⟨before, after⟩ := Phase.refused_next _ next
    exact iff_of_false after before

end Task

/-! ### Phases in a pool -/

def phase? (p : Pool α) (i : Nat) : Option Phase := (p.task? i).map (·.phase)

/-- The tasks that came while the pool was open, in the order of submission. -/
def accepted (p : Pool α) : List Nat :=
  (List.range p.tasks.length).filter fun i => p.phase? i ≠ some .refused

theorem phase?_of_task? (there : p.task? i = some t) : p.phase? i = some t.phase := by
  rw [phase?, there, Option.map_some]

theorem phase?_set_self {phase : Phase} (there : p.task? i = some t)
    (tasks : q.tasks = p.tasks.set i u) (new : u.phase = phase) : q.phase? i = some phase := by
  rw [phase?, task?, tasks, List.getElem?_set_self (lt_length_of_task? there), Option.map_some, new]

/-- To change one task moves no other. -/
theorem phase?_set_of_ne (tasks : q.tasks = p.tasks.set i u) (other : i ≠ j) :
    q.phase? j = p.phase? j := by
  rw [phase?, task?, tasks, List.getElem?_set_ne other]
  rfl

/-- To change a task moves that task and no other. -/
theorem phase?_set (there : p.task? i = some t) (tasks : q.tasks = p.tasks.set i u) :
    q.phase? j = if i = j then some u.phase else p.phase? j := by
  split
  · next same =>
    subst same
    exact phase?_set_self there tasks rfl
  · next other => exact phase?_set_of_ne tasks other

/-- If only a task that was in the phase comes out in it, the phase is nowhere new. -/
theorem phase?_of_set {phase : Phase} (there : p.task? i = some t)
    (tasks : q.tasks = p.tasks.set i u) (here : q.phase? j = some phase)
    (old : u.phase = phase → t.phase = phase) : p.phase? j = some phase := by
  rw [phase?_set there tasks] at here
  split at here
  · next same =>
    subst same
    rw [phase?_of_task? there, old (Option.some_inj.mp here)]
  · exact here

theorem lt_length_of_phase? {phase : Phase} (here : p.phase? i = some phase) :
    i < p.tasks.length := by
  obtain ⟨t, there, -⟩ := Option.map_eq_some_iff.mp here
  exact lt_length_of_task? there

/-- A task is accepted if it is there and was not refused. -/
theorem mem_accepted : i ∈ p.accepted ↔ ∃ phase, p.phase? i = some phase ∧ phase ≠ .refused := by
  unfold accepted
  rw [List.mem_filter, List.mem_range, decide_eq_true_iff]
  constructor
  · rintro ⟨small, other⟩
    have here : p.phase? i = some p.tasks[i].phase :=
      phase?_of_task? (List.getElem?_eq_getElem small)
    exact ⟨_, here, fun refused => other (refused ▸ here)⟩
  · rintro ⟨phase, here, other⟩
    refine ⟨lt_length_of_phase? here, ?_⟩
    rwa [here, ne_eq, Option.some_inj]

theorem lt_length_of_mem_accepted (mem : i ∈ p.accepted) : i < p.tasks.length := by
  obtain ⟨phase, here, -⟩ := mem_accepted.mp mem
  exact lt_length_of_phase? here

/-- No task is accepted twice. -/
theorem nodup_accepted : p.accepted.Nodup := List.nodup_range.filter _

/-- Tasks in different phases are different tasks. -/
theorem ne_of_phase_ne (there : p.task? i = some t) (there' : p.task? j = some u)
    (apart : t.phase ≠ u.phase) : i ≠ j := by
  rintro rfl
  rw [there] at there'
  cases there'
  exact apart rfl

/-- To change two tasks moves these two and no other. -/
theorem phase?_set_set {k : Nat} {t' u' : Task α} (there : p.task? i = some t)
    (there' : p.task? j = some u) (apart : i ≠ j)
    (tasks : q.tasks = (p.tasks.set i t').set j u') :
    q.phase? k =
      if j = k then some u'.phase else if i = k then some t'.phase else p.phase? k := by
  rw [phase?_set ((task?_setTask_of_ne apart).trans there') tasks, phase?_set there rfl]

/-- The accepted tasks depend on nothing but how many tasks there are and which were refused. -/
theorem accepted_congr (length : q.tasks.length = p.tasks.length)
    (same : ∀ i, q.phase? i = some .refused ↔ p.phase? i = some .refused) :
    q.accepted = p.accepted := by
  unfold accepted
  rw [length]
  refine List.filter_congr fun i _ => ?_
  rw [decide_eq_decide]
  exact not_congr (same i)

/-- To change a task accepts none and refuses none. -/
theorem accepted_set (there : p.task? i = some t) (change : t.Changes u)
    (tasks : q.tasks = p.tasks.set i u) : q.accepted = p.accepted := by
  refine accepted_congr (by rw [tasks, List.length_set]) fun j => ?_
  rw [phase?_set there tasks]
  split
  · next same =>
    subst same
    rw [phase?_of_task? there, Option.some_inj, Option.some_inj, change.refused_iff]
  · rfl

/-- A task that is added moves no other. -/
theorem phase?_append (tasks : q.tasks = p.tasks ++ [t]) :
    q.phase? i = if i = p.tasks.length then some t.phase else p.phase? i := by
  unfold phase? task?
  rw [tasks]
  split
  · next last => rw [last, List.getElem?_concat_length, Option.map_some]
  · next other => rw [List.getElem?_append, List.getElem?_singleton]; grind

end Lox.Pool
