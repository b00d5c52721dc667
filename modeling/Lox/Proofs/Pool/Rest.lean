import Mathlib.Algebra.Order.BigOperators.Group.List
import Mathlib.Algebra.GroupWithZero.Nat
import Mathlib.Algebra.Order.Group.Nat
import Lox.Proofs.Pool.Life

/-!
Progress. Everything that the workers do brings the pool nearer to a state of rest; there no task is
in between, so that what is not finished waits for a body that does not end.
-/

namespace Lox.Pool

variable {α : Type} {p q : Pool α} {i j : Nat} {t u : Task α}

/-! ### Work -/

/-- The action belongs to the workers: it is up to nobody else whether and when it is done. -/
def Action.isWork : Action α → Bool
  | .doze | .stop | .take _ | .park _ | .withdraw _ | .start _ | .enter _ | .skip _ | .conclude _
  | .finish _ | .leave _ | .hand .. | .depart _ => true
  | .submit .. | .cancel _ | .expire _ | .release _ | .tell .. | .close | .flush | .shutdown
  | .look _ => false

/-- The sum of a weight over the phases of all tasks. -/
def total (p : Pool α) (weight : Phase → Nat) : Nat := (p.tasks.map fun t => weight t.phase).sum

variable (weight : Phase → Nat)

/-- A change of one task counts for all that task weighs. -/
theorem total_set (there : p.task? i = some t) (tasks : q.tasks = p.tasks.set i u) :
    q.total weight + weight t.phase = p.total weight + weight u.phase := by
  unfold total
  unfold task? at there
  rw [tasks]
  clear tasks
  generalize p.tasks = old at there ⊢
  induction old generalizing i with
  | nil => cases there
  | cons v rest ih =>
    cases i with
    | zero =>
      cases there
      simp only [List.set_cons_zero, List.map_cons, List.sum_cons]
      omega
    | succ i =>
      have := ih there
      simp only [List.set_cons_succ, List.map_cons, List.sum_cons]
      omega

/-- A task that is submitted adds what it weighs. -/
theorem total_submit (p : Pool α) (body : Body α) (cancelled : Bool) :
    (p.submit body cancelled).total weight =
      p.total weight + weight (if p.closed then .refused else .waiting) := by
  unfold total
  rw [tasks_submit, List.map_append, List.sum_append, List.map_singleton, List.sum_singleton,
    phase_newTask]

/-- No task weighs more than all together. -/
theorem le_total (there : p.task? i = some t) : weight t.phase ≤ p.total weight :=
  List.le_sum_of_mem (List.mem_map.mpr ⟨t, List.mem_of_getElem? there, rfl⟩)

variable {weight} in
/-- If there is any weight, some task has it. -/
theorem exists_of_total_pos (pos : 0 < p.total weight) :
    ∃ i t, p.task? i = some t ∧ 0 < weight t.phase := by
  by_contra none
  have zero : p.total weight = 0 := by
    refine List.sum_eq_zero fun n mem => ?_
    obtain ⟨t, there, rfl⟩ := List.mem_map.mp mem
    obtain ⟨i, there⟩ := List.mem_iff_getElem?.mp there
    exact Nat.eq_zero_of_not_pos fun pos => none ⟨i, t, there, pos⟩
  omega

/-- What is left to do is what the tasks have ahead of them, and a step of a worker that is awake.
-/
theorem work_eq : p.work = p.total Phase.ahead + if p.worker = .awake then 1 else 0 := by
  unfold work total List.sum
  rw [List.foldr_map]

/-- The weight of all tasks is less when one task goes to its next phase. -/
theorem total_ahead_lt (there : p.task? i = some t) (tasks : q.tasks = p.tasks.set i u)
    (next : u.phase ∈ t.phase.next) : q.total Phase.ahead < p.total Phase.ahead := by
  have := total_set Phase.ahead there tasks
  have := Phase.ahead_next _ next
  omega

/-- A task that is moved on has less ahead of it. -/
theorem work_lt_of_alter {r : Pool α} {change : Task α → Option (Task α)}
    (h : r.alter i change = some q) (less : r.work ≤ p.work)
    (next : ∀ t u, change t = some u → u.phase ∈ t.phase.next) : q.work < p.work := by
  obtain ⟨t, u, there, changed, rfl⟩ := alter_eq_some_iff.mp h
  refine Nat.lt_of_lt_of_le ?_ less
  rw [work_eq, work_eq]
  exact Nat.add_lt_add_right (total_ahead_lt there rfl (next t u changed)) _

/-- To move a task to one of its next phases leaves less to do. -/
theorem work_lt_of_move {r : Pool α} {old new : Phase}
    (h : r.alter i (Task.move? old new) = some q) (less : r.work ≤ p.work)
    (next : new ∈ old.next) : q.work < p.work := by
  refine work_lt_of_alter h less fun t u moved => ?_
  obtain ⟨same, rfl⟩ := Task.move?_eq_some_iff.mp moved
  rwa [same]

/-- To take a task leaves less to do. -/
theorem work_lt_of_take? (h : p.take? i = some q) : q.work < p.work := by
  unfold take? at h
  split at h
  · split at h
    · next ready =>
      refine work_lt_of_move h ?_ (by decide)
      rw [work_eq, work_eq, if_pos ready.1, if_neg nofun]
      exact Nat.le_succ _
    · cases h
  · split at h
    · exact work_lt_of_move h le_rfl (by decide)
    · cases h

theorem work_lt_of_park? (h : p.park? i = some q) : q.work < p.work := by
  unfold park? at h
  split at h
  · cases h
  · split at h
    · refine work_lt_of_alter h le_rfl fun t u changed => ?_
      split at changed
      · obtain ⟨waiting, rfl⟩ := Task.move?_eq_some_iff.mp changed
        simp [waiting, Phase.next]
      · cases changed
    · cases h

theorem work_lt_of_withdraw? (h : p.withdraw? i = some q) : q.work < p.work := by
  unfold withdraw? at h
  split at h
  · cases h
  · refine work_lt_of_alter h le_rfl fun t u changed => ?_
    split at changed
    · next waiting =>
      obtain ⟨why, ended, rfl⟩ := Option.map_eq_some_iff.mp changed
      simp [waiting, Phase.next, Task.withdraw]
    · cases changed

/-- The worker is awake again, but the task it let go was two steps from its end. -/
theorem work_lt_of_leave? (h : p.leave? i = some q) : q.work < p.work := by
  unfold leave? at h
  split at h
  · obtain ⟨t, u, there, moved, rfl⟩ := alter_eq_some_iff.mp h
    obtain ⟨finished, rfl⟩ := Task.move?_eq_some_iff.mp moved
    rw [work_eq, work_eq]
    refine Nat.lt_of_lt_of_le ?_ (Nat.le_add_right _ _)
    generalize final : setTask _ i _ = q
    have total := total_set (p := p) (q := q) Phase.ahead there (by rw [← final]; rfl)
    rw [finished] at total
    change q.total _ + 2 = p.total _ + 0 at total
    split <;> omega
  · split at h
    · exact work_lt_of_move h le_rfl (by decide)
    · cases h

/-- To hand a slot on leaves less to do. -/
theorem work_lt_of_hand? (h : p.hand? i j = some q) : q.work < p.work := by
  unfold hand? at h
  split at h
  · cases h
  · obtain ⟨r, left, taken⟩ := Option.bind_eq_some_iff.mp h
    refine (work_lt_of_move taken le_rfl (by decide)).trans ?_
    exact work_lt_of_move left le_rfl (by decide)

theorem work_lt_of_depart? (h : p.depart? i = some q) : q.work < p.work := by
  unfold depart? at h
  split at h
  · cases h
  · exact work_lt_of_move h le_rfl (by decide)

/-- Whatever the workers do, and in whatever order, they come to rest. -/
theorem work_lt_of_step? {a : Action α} (isWork : a.isWork = true) (h : p.step? a = some q) :
    q.work < p.work := by
  cases a with
  | submit | cancel | expire | release | tell | close | flush | shutdown | look => cases isWork
  | take i => exact work_lt_of_take? h
  | park i => exact work_lt_of_park? h
  | withdraw i => exact work_lt_of_withdraw? h
  | leave i => exact work_lt_of_leave? h
  | hand i j => exact work_lt_of_hand? h
  | depart i => exact work_lt_of_depart? h
  -- the worker is awake before and not after
  | doze | stop =>
    change (if _ then _ else _) = _ at h
    split at h
    · next idle =>
      cases h
      rw [work_eq, work_eq, if_pos (idles_iff.mp idle).2.1, if_neg nofun]
      exact Nat.lt_succ_self _
    · cases h
  -- within a task every step moves it on to a phase with less before it
  | start i =>
    refine work_lt_of_alter h le_rfl fun t u changed => ?_
    obtain ⟨taken, rfl⟩ := Task.start?_eq_some_iff.mp changed
    simp [taken, Phase.next]
  | enter i =>
    refine work_lt_of_alter h le_rfl fun t u changed => ?_
    obtain ⟨⟨started, -⟩, rfl⟩ := Task.enter?_eq_some_iff.mp changed
    simp [started, Phase.next]
  | skip i =>
    refine work_lt_of_alter h le_rfl fun t u changed => ?_
    obtain ⟨started, why, -, rfl⟩ := Task.skip?_eq_some_iff.mp changed
    simp [started, Phase.next]
  | conclude i =>
    refine work_lt_of_alter h le_rfl fun t u changed => ?_
    obtain ⟨inBody, ending, -, rfl⟩ := Task.conclude?_eq_some_iff.mp changed
    simp [inBody, Phase.next]
  | finish i =>
    refine work_lt_of_alter h le_rfl fun t u changed => ?_
    obtain ⟨result, -, ⟨returned, rfl⟩ | ⟨withdrawn, rfl⟩⟩ := Task.finish?_eq_some_iff.mp changed
    · simp [returned, Phase.next]
    · simp [withdrawn, Phase.next]

/-! ### Rest -/

/-- There is nothing that the workers can do. -/
def AtRest (p : Pool α) : Prop := ∀ a : Action α, a.isWork = true → p.step? a = none

theorem alter_eq_some {change : Task α → Option (Task α)} (there : p.task? i = some t)
    (changed : change t = some u) : p.alter i change = some (p.setTask i u) :=
  alter_eq_some_iff.mpr ⟨t, u, there, changed, rfl⟩

/-- A task that is in the phase can be moved out of it. -/
theorem alter_move {old new : Phase} (there : p.task? i = some t) (here : t.phase = old) :
    p.alter i (Task.move? old new) = some (p.setTask i { t with phase := new }) :=
  alter_eq_some there (Task.move?_eq_some_iff.mpr ⟨here, rfl⟩)

/-- A task that cannot be moved out of a phase is not in it. -/
theorem phase_ne_of_alter {old new : Phase} (stuck : p.alter i (Task.move? old new) = none)
    (there : p.task? i = some t) : t.phase ≠ old := by
  intro here
  rw [alter_move there here] at stuck
  cases stuck

/-- At rest no task can be changed by a worker. -/
theorem AtRest.alter {a : Action α} {change : Task α → Option (Task α)} {r : Pool α}
    (rest : p.AtRest) (isWork : a.isWork = true) (step : p.step? a = r.alter i change)
    (there : r.task? i = some t) : change t = none := by
  cases changed : change t with
  | none => rfl
  | some u =>
    have := rest a isWork
    rw [step, alter_eq_some there changed] at this
    cases this

/-- At rest no task is where a worker could take it further. -/
theorem AtRest.move {a : Action α} {old new : Phase} {r : Pool α} (rest : p.AtRest)
    (isWork : a.isWork = true) (step : p.step? a = r.alter i (Task.move? old new))
    (there : r.task? i = some t) : t.phase ≠ old :=
  phase_ne_of_alter (step.symm.trans (rest a isWork)) there

/-- The body of the task was entered, and is not at its end. -/
def Task.Held (t : Task α) : Prop := t.phase = .inBody ∧ t.ending? = none

/-- At rest a task has not been let in yet, or its body does not end, or it is finished. -/
theorem AtRest.phase (rest : p.AtRest) (sound : p.Sound) (there : p.task? i = some t) :
    t.phase = .waiting ∨ t.phase = .parked ∨ t.phase = .finished ∨ t.Held ∨
      t.phase.isOver = true ∧ t.phase.isGoing = false := by
  -- in every other phase the task itself could take a step
  cases phase : t.phase with
  | waiting => exact .inl rfl
  | parked => exact .inr (.inl rfl)
  | finished => exact .inr (.inr (.inl rfl))
  | leaving | gone | refused => exact .inr (.inr (.inr (.inr ⟨rfl, rfl⟩)))
  | taken =>
    have := rest.alter (a := .start i) rfl rfl there
    unfold Task.start? at this
    rw [if_pos phase] at this
    cases this
  | started =>
    have enter := rest.alter (a := .enter i) rfl rfl there
    have skip := rest.alter (a := .skip i) rfl rfl there
    unfold Task.skip? at skip
    rw [if_pos phase, Option.map_eq_none_iff] at skip
    unfold Task.enter? at enter
    rw [if_pos ⟨phase, skip⟩] at enter
    cases enter
  | inBody =>
    have conclude := rest.alter (a := .conclude i) rfl rfl there
    unfold Task.conclude? at conclude
    rw [if_pos phase, Option.map_eq_none_iff] at conclude
    exact .inr (.inr (.inr (.inl ⟨phase, conclude⟩)))
  | returned =>
    have finish := rest.alter (a := .finish i) rfl rfl there
    unfold Task.finish? at finish
    rw [phase] at finish
    exact absurd (Option.map_eq_none_iff.mp finish) ((sound.tasks there).returned phase)
  | withdrawn =>
    have finish := rest.alter (a := .finish i) rfl rfl there
    obtain ⟨why, -, given⟩ := (sound.tasks there).withdrawn phase
    unfold Task.finish? at finish
    rw [phase, given] at finish
    cases finish

end Lox.Pool
