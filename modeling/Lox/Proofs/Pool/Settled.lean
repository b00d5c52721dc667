import Lox.Proofs.Pool.Lifecycle
import Lox.Proofs.Pool.Outcome

/-!
The order in which a pool is run when nobody says otherwise. It is one of those that are possible,
and it ends in a state of rest; so bodies that give values all give them.
-/

namespace Lox.Pool

variable {α : Type} {p q : Pool α} {i j : Nat} {a : Action α}

/-! ### What the workers might do next -/

theorem lt_length_of_alter {change : Task α → Option (Task α)} (h : p.alter i change = some q) :
    i < p.tasks.length := by
  obtain ⟨t, -, there, -⟩ := alter_eq_some_iff.mp h
  exact lt_length_of_task? there

/-- What may be done with a task is among all that the workers may do. -/
theorem mem_workerActions (small : i < p.tasks.length) (mem : a ∈ p.taskActions i) :
    a ∈ p.workerActions :=
  List.mem_append_left _ (List.mem_flatMap.mpr ⟨i, List.mem_range.mpr small, mem⟩)

/-- What is tried for the workers is up to the workers. -/
theorem isWork_of_mem (mem : a ∈ p.workerActions) : a.isWork = true := by
  have all : p.workerActions.all Action.isWork = true := by
    simp [workerActions, taskActions, Action.isWork]
  exact List.all_eq_true.mp all a mem

/-- If a slot can be handed to some task, it can be handed to the first one that is parked. -/
theorem exists_hand (h : p.hand? i j = some q) :
    ∃ k, .hand i k ∈ p.workerActions ∧ p.hand? i k ≠ none := by
  obtain ⟨limit, positive, t, u, bounded, ⟨there, finished⟩, ⟨there', parked⟩, -⟩ :=
    exists_of_hand? h
  -- the worker hands the place to the first that waits, whoever this action gave it to
  cases first : p.tasks.findIdx? (·.phase = .parked) with
  | none =>
    have := List.findIdx?_eq_none_iff.mp first u (List.mem_of_getElem? there')
    exact absurd parked (of_decide_eq_false this)
  | some k =>
    obtain ⟨small, found, -⟩ := List.findIdx?_eq_some_iff_getElem.mp first
    have here : p.task? k = some p.tasks[k] := List.getElem?_eq_getElem small
    have parked' := of_decide_eq_true found
    have apart : i ≠ k := ne_of_phase_ne there here (by rw [finished, parked']; decide)
    refine ⟨k, mem_workerActions (lt_length_of_task? there) ?_, ?_⟩
    · simp [taskActions, first]
    · unfold hand?
      split
      · next serial =>
        rw [bounded] at serial
        cases serial
      · exact Option.ne_none_iff_exists'.mpr ⟨_, Option.bind_eq_some_iff.mpr
          ⟨_, alter_move there finished,
            alter_move ((task?_setTask_of_ne apart).trans here) parked'⟩⟩

/-- If the workers can do anything, then also something of what they might do next. -/
theorem exists_possible (h : p.step? a = some q) (isWork : a.isWork = true) :
    ∃ b ∈ p.workerActions, p.step? b ≠ none := by
  -- an action on a task is among those that the worker tries for it
  have one {k : Nat} (small : k < p.tasks.length) (mem : a ∈ p.taskActions k) :
      ∃ b ∈ p.workerActions, p.step? b ≠ none :=
    ⟨a, mem_workerActions small mem, by rw [h]; exact nofun⟩
  cases a with
  | submit | cancel | expire | release | tell | close | flush | shutdown | look => cases isWork
  | doze | stop =>
    refine ⟨_, List.mem_append_right _ ?_, by rw [h]; exact nofun⟩
    simp
  | take i =>
    obtain ⟨t, there, -⟩ := exists_of_take? h
    exact one (lt_length_of_task? there) (by simp [taskActions])
  | park i =>
    obtain ⟨t, there, -⟩ := exists_of_park? h
    exact one (lt_length_of_task? there) (by simp [taskActions])
  | withdraw i =>
    obtain ⟨t, -, there, -⟩ := exists_of_withdraw? h
    exact one (lt_length_of_task? there) (by simp [taskActions])
  | start i | skip i | conclude i | finish i =>
    exact one (lt_length_of_alter h) (by simp [taskActions])
  | enter i =>
    exact one (lt_length_of_alter h :) (by simp [taskActions])
  | leave i =>
    obtain ⟨t, -, there, -⟩ := exists_of_leave? h
    exact one (lt_length_of_task? there) (by simp [taskActions])
  | depart i =>
    obtain ⟨t, there, -⟩ := exists_of_depart? h
    exact one (lt_length_of_task? there) (by simp [taskActions])
  | hand i j =>
    obtain ⟨k, mem, possible⟩ := exists_hand h
    exact ⟨_, mem, possible⟩

/-! ### Rest -/

/-- If nothing that is tried is possible, the pool is at rest. -/
theorem atRest_of_advance? (h : p.advance? = none) : p.AtRest := by
  intro a isWork
  cases step : p.step? a with
  | none => rfl
  | some q =>
    obtain ⟨b, mem, possible⟩ := exists_possible step isWork
    exact absurd (List.findSome?_eq_none_iff.mp h b mem) possible

/-- With as many steps as there is work the pool comes to rest. -/
theorem exists_advance (n : Nat) (p : Pool α) (enough : p.work ≤ n) :
    ∃ more : List (Action α), (∀ a ∈ more, a.isWork = true) ∧ p.advance n = p.after more ∧
      (p.after more).AtRest := by
  -- the work that is left bounds the steps, and each step takes some of it away
  induction n generalizing p with
  | zero =>
    refine ⟨[], List.forall_mem_nil _, rfl, fun a isWork => ?_⟩
    cases step : p.step? a with
    | none => exact step
    | some q =>
      have := work_lt_of_step? isWork step
      omega
  | succ n ih =>
    unfold advance
    cases next : p.advance? with
    | none => exact ⟨[], List.forall_mem_nil _, rfl, atRest_of_advance? next⟩
    | some q =>
      obtain ⟨a, mem, step⟩ := List.exists_of_findSome?_eq_some next
      have isWork := isWork_of_mem mem
      have less := work_lt_of_step? isWork step
      obtain ⟨more, works, same, rest⟩ := ih q (by omega)
      refine ⟨a :: more, List.forall_mem_cons.mpr ⟨isWork, works⟩, ?_⟩
      have first : p.after (a :: more) = q.after more := by
        rw [after, List.foldl_cons, act_of_step? step]
        rfl
      rw [first]
      exact ⟨same, rest⟩

/-- A pool that is left to its workers comes to rest by what they do. -/
theorem exists_settle (p : Pool α) : ∃ more : List (Action α), (∀ a ∈ more, a.isWork = true) ∧
    p.settle = p.after more ∧ p.settle.AtRest := by
  obtain ⟨more, works, same, rest⟩ := exists_advance p.work p (Nat.le_refl _)
  refine ⟨more, works, same, ?_⟩
  rw [settle, same]
  exact rest

/-! ### Bodies that give values -/

/-- A submission is one task more for the workers, and may wake one of them. -/
theorem work_submit (p : Pool α) (body : Body α) (cancelled : Bool) :
    p.work ≤ (p.submit body cancelled).work ∧ (p.submit body cancelled).work ≤ p.work + 9 := by
  have total := total_submit Phase.ahead p body cancelled
  have new : Phase.ahead (if p.closed then .refused else .waiting) ≤ 8 := by
    cases p.closed <;> decide
  have worker : p.worker = .awake → (p.submit body cancelled).worker = .awake := by
    intro awake
    unfold submit
    split
    · exact awake
    · split
      · exact congrArg Worker.woken awake
      · exact awake
  rw [work_eq, work_eq]
  grind

/-- The workers add no task. -/
theorem length_step {a : Action α} (isWork : a.isWork = true) (h : p.step? a = some q) :
    q.tasks.length = p.tasks.length := by
  refine (steps_of_step? h).length_cases.resolve_right ?_
  rintro ⟨body, cancelled, rfl⟩
  have := work_lt_of_step? isWork h
  have := (work_submit p body cancelled).1
  omega

theorem length_after {more : List (Action α)} (works : ∀ a ∈ more, a.isWork = true) :
    (p.after more).tasks.length = p.tasks.length := by
  induction more generalizing p with
  | nil => rfl
  | cons a rest ih =>
    obtain ⟨isWork, works⟩ := List.forall_mem_cons.mp works
    refine (ih works (p := p.act a)).trans ?_
    unfold act
    cases step : p.step? a with
    | none => rfl
    | some q => exact length_step isWork step

/-- The workers end no context. -/
theorem not_endsContext (isWork : a.isWork = true) : ¬ a.EndsContext i := by
  rintro (rfl | rfl)
  all_goals cases isWork

/-- Tasks that are submitted to an open pool come in their order. -/
theorem tasks_submitAll {bodies : List (Body α)} (opened : p.closed = false) :
    (p.submitAll bodies).tasks = p.tasks ++ bodies.map fun body => { body := body } := by
  induction bodies generalizing p with
  | nil => exact (List.append_nil _).symm
  | cons body rest ih =>
    have new : p.newTask body false = { body } := by
      unfold newTask
      rw [opened]
      rfl
    refine (ih (p := p.submit body false) (closed_submit.trans opened)).trans ?_
    rw [tasks_submit, new, List.append_assoc, List.map_cons]
    rfl

/-- What is done after something is done with all that was done before. -/
theorem run_append (d : Discipline) (actions more : List (Action α)) :
    (run d actions).after more = run d (actions ++ more) := List.foldl_append.symm

/-- A promise is kept, whatever is done. -/
theorem Promises.after {value : α} (promises : p.Promises i value) (more : List (Action α)) :
    (p.after more).Promises i value :=
  after_induction promises Promises.step more

/-- A task that gives a value is not held. -/
theorem Promises.not_held {value : α} {t : Task α} (promises : p.Promises i value)
    (there : p.task? i = some t) : ¬ t.Held := by
  rintro ⟨-, going⟩
  obtain ⟨t', there', body, -⟩ := promises
  cases there.symm.trans there'
  unfold Task.ending? at going
  rw [body] at going
  cases going

/-- The submissions of bodies that give the values. -/
def submissions (values : List α) : List (Action α) :=
  (values.map Body.gives).map (.submit · false)

section Submissions

variable {d : Discipline} {values : List α}

/-- To submit all is to submit one after the other. -/
theorem submitAll_eq_run :
    ({ discipline := d } : Pool α).submitAll (values.map .gives) = run d (submissions values) :=
  List.foldl_map.symm

/-- Each body that is submitted has a task at its place. -/
theorem tasks_submissions :
    (run d (submissions values)).tasks = values.map fun value => { body := .gives value } := by
  rw [← submitAll_eq_run, tasks_submitAll rfl, List.map_map]
  rfl

/-- Nothing stands between the tasks and their values. -/
theorem promises_submissions (small : i < values.length) :
    (run d (submissions values)).Promises i values[i] ∧ (run d (submissions values)).Waits i := by
  have there : (run d (submissions values)).task? i = some { body := .gives values[i] } := by
    rw [task?, tasks_submissions, List.getElem?_map, List.getElem?_eq_getElem small,
      Option.map_some]
  have waiting : Phase.waiting ≠ .refused := by decide
  refine ⟨⟨_, there, rfl, fun ran => ?_, fun late => absurd late waiting⟩, _, there, waiting,
    .inl rfl⟩
  obtain ⟨t, there', beyond⟩ := (sound_run d (submissions values)).beyond i ran
  cases there.symm.trans there'
  cases beyond

/-- Left to itself an empty pool gets the values of all bodies, in the order of submission. -/
theorem outcomes_settle :
    (({ discipline := d } : Pool α).submitAll (values.map .gives)).settle.outcomes =
      values.map fun value => some (.ok value) := by
  rw [submitAll_eq_run]
  obtain ⟨more, works, same, rest⟩ := exists_settle (run d (submissions values))
  rw [same] at rest ⊢
  generalize final : (run d (submissions values)).after more = p at rest ⊢
  have sound : p.Sound := final ▸ (sound_run d (submissions values)).after more
  have length : p.tasks.length = values.length := by
    rw [← final, length_after works, tasks_submissions, List.length_map]
  have promises {i : Nat} (small : i < values.length) : p.Promises i values[i] :=
    final ▸ (promises_submissions small).1.after more
  have waits {i : Nat} (small : i < values.length) : p.Waits i :=
    final ▸ (promises_submissions small).2.after (sound_run d (submissions values)) fun a mem =>
      not_endsContext (works a mem)
  -- no body holds back what it gives, so all tasks have finished when the pool is at rest
  have held (i : Nat) (t : Task α) (there : p.task? i = some t) : ¬ t.Held :=
    (promises (length ▸ lt_length_of_task? there)).not_held there
  have finished : ∀ i < p.tasks.length, p.Finished i := by
    rw [← final, run_append] at rest held ⊢
    exact finished_run d _ rest held
  refine List.ext_getElem (by rw [outcomes, List.length_map, List.length_map, length]) ?_
  intro i _ small
  rw [List.length_map] at small
  obtain ⟨t, there, isFinal⟩ := finished i (length ▸ small)
  have shows := (promises small).shows_of_waits sound there isFinal (waits small)
  obtain ⟨_, there⟩ := List.getElem?_eq_some_iff.mp there
  simp only [outcomes, List.getElem_map, there]
  rw [Task.outcome, if_pos isFinal, shows.given]

end Submissions

end Lox.Pool
