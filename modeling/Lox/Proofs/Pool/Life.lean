import Lox.Proofs.Pool.Handle

/-!
The tasks of a pool along its runs. Whatever the order of the actions, handles stay sound, every
body is entered at most once, and a task whose body was not entered results in nothing but the end
of its context.
-/

namespace Lox.Pool

variable {α : Type} {p q : Pool α} {i j : Nat} {t u : Task α} {body : Body α} {cancelled : Bool}

/-- A pool of the discipline after some actions. -/
def run (d : Discipline) (actions : List (Action α)) : Pool α :=
  ({ discipline := d } : Pool α).after actions

theorem nodup_concat {l : List Nat} (once : l.Nodup) (new : i ∉ l) : (l ++ [i]).Nodup := by
  refine List.nodup_append.mpr ⟨once, List.pairwise_singleton .., fun k mem k' last => ?_⟩
  rw [List.mem_singleton.mp last]
  rintro rfl
  exact new mem

/-! ### What a step does to the list of tasks -/

/-- A step adds no task, or the one that is submitted. -/
theorem Steps.length_cases (h : p.Steps q) : q.tasks.length = p.tasks.length ∨
    ∃ body cancelled, q = p.submit body cancelled := by
  cases h with
  | submit body cancelled => exact .inr ⟨body, cancelled, rfl⟩
  | hand => exact .inl (length_setTask.trans length_setTask)
  | _ => first | exact .inl rfl | exact .inl length_setTask

theorem length_submit : (p.submit body cancelled).tasks.length = p.tasks.length + 1 := by
  rw [tasks_submit, List.length_append, List.length_singleton]

/-- The new task has the next number. -/
theorem task?_submit_length :
    (p.submit body cancelled).task? p.tasks.length = some (p.newTask body cancelled) := by
  unfold task?
  rw [tasks_submit, List.getElem?_concat_length]

/-- A task after a step was there before, or is the one that was submitted. -/
theorem Steps.task?_cases (h : p.Steps q) (there : q.task? j = some u) :
    (∃ t, p.task? j = some t ∧ t.Changes u) ∨
      j = p.tasks.length ∧ ∃ body cancelled, u = p.newTask body cancelled := by
  by_cases old : j < p.tasks.length
  · obtain ⟨u', there', changes⟩ := h.changes (t := p.tasks[j]) (List.getElem?_eq_getElem old)
    rw [there] at there'
    cases there'
    exact .inl ⟨_, List.getElem?_eq_getElem old, changes⟩
  · have new : j < q.tasks.length := lt_length_of_task? there
    obtain same | ⟨body, cancelled, rfl⟩ := h.length_cases
    · omega
    · rw [length_submit] at new
      have last : j = p.tasks.length := by omega
      subst last
      rw [task?_submit_length] at there
      cases there
      exact .inr ⟨rfl, body, cancelled, rfl⟩

/-- A new task waits, unless the pool is closed. -/
theorem phase_newTask :
    (p.newTask body cancelled).phase = if p.closed then .refused else .waiting := by
  unfold newTask
  cases p.closed <;> rfl

/-- To submit a task changes no other. -/
theorem phase?_submit : (p.submit body cancelled).phase? j =
    if j = p.tasks.length then some (if p.closed then .refused else .waiting)
    else p.phase? j := by
  rw [phase?_append (tasks_submit p body cancelled), phase_newTask]

/-- A task is accepted if the pool is open. -/
theorem accepted_submit : (p.submit body cancelled).accepted =
    if p.closed then p.accepted else p.accepted ++ [p.tasks.length] := by
  have old : ∀ i ∈ List.range p.tasks.length,
      (p.submit body cancelled).phase? i = p.phase? i := by
    intro i mem
    rw [phase?_submit, if_neg (Nat.ne_of_lt (List.mem_range.mp mem))]
  unfold accepted
  rw [length_submit, List.range_succ, List.filter_append,
    List.filter_congr fun i mem => by rw [old i mem]]
  cases closed : p.closed with
  | false => simp [phase?_submit, closed]
  | true => simp [phase?_submit, closed]

/-- A task that was accepted stays accepted, at its place. -/
theorem Steps.accepted_prefix (h : p.Steps q) : p.accepted <+: q.accepted := by
  obtain same | ⟨body, cancelled, rfl⟩ := h.length_cases
  · refine (accepted_congr same fun i => ?_) ▸ List.prefix_rfl
    by_cases small : i < p.tasks.length
    · have there : p.task? i = some p.tasks[i] := List.getElem?_eq_getElem small
      obtain ⟨u, there', changes⟩ := h.changes there
      rw [phase?_of_task? there, phase?_of_task? there', Option.some_inj, Option.some_inj,
        changes.refused_iff]
    · refine iff_of_false (fun here => ?_) fun here => ?_
      · have := lt_length_of_phase? here
        omega
      · have := lt_length_of_phase? here
        omega
  · rw [accepted_submit]
    split
    · exact List.prefix_rfl
    · exact List.prefix_append ..

/-- A task that was taken was taken in its turn. -/
theorem Steps.taken_prefix (h : p.Steps q) : p.taken <+: q.taken := by
  cases h with
  | submit body cancelled =>
    unfold Pool.submit
    split
    · exact List.prefix_rfl
    · split <;> exact List.prefix_rfl
  | take | occupy | hand => exact List.prefix_append ..
  | _ => exact List.prefix_rfl

/-! ### Bodies -/

/-- Nothing that goes on inside a task enters its body but to enter it. -/
theorem Task.Inner.outside (h : t.Inner u) (inBody : u.phase = .inBody) : t.phase = .inBody := by
  rcases h.phase with same | ⟨next, -⟩
  · rw [← same, inBody]
  · cases h with
    | cancel why =>
      rcases Task.phase_cancel t why with same | ⟨-, withdrawn⟩
      · rw [← same, inBody]
      · rw [withdrawn] at inBody
        cases inBody
    | release | tell => exact inBody
    | start | skip | conclude | finish | giveUp => cases inBody

/-- A body is entered as one step, right after it was seen that the context is not over. -/
theorem Steps.ran_cases (h : p.Steps q) :
    q.ran = p.ran ∧ (∀ j, q.phase? j = some .inBody → p.phase? j = some .inBody) ∨
      ∃ i t, p.task? i = some t ∧ t.phase = .started ∧ t.cancelled? = none ∧
        q = setTask { p with ran := p.ran ++ [i] } i { t with phase := .inBody } := by
  cases h with
  | enter there started going => exact .inr ⟨_, _, there, started, going, rfl⟩
  | submit body cancelled =>
    refine .inl ⟨?_, fun j inBody => ?_⟩
    · unfold Pool.submit
      split
      · rfl
      · split <;> rfl
    -- a new task is not in its body yet
    · rw [phase?_submit] at inBody
      grind
  | close | flush | shutdown | serve | rest | doze | stop => exact .inl ⟨rfl, fun _ => id⟩
  | inner there inner => exact .inl ⟨rfl, fun _ here => phase?_of_set there rfl here inner.outside⟩
  | take _ _ _ there | occupy _ _ there | park _ _ there | withdraw _ there | release _ there
  | vacate _ _ there | depart _ there =>
    exact .inl ⟨rfl, fun _ here => phase?_of_set there rfl here nofun⟩
  | hand _ there finished there' parked =>
    refine .inl ⟨rfl, fun j inBody => ?_⟩
    have apart := ne_of_phase_ne there there' (by rw [finished, parked]; decide)
    rw [phase?_set_set there there' apart rfl] at inBody
    grind

/-- A body that was run was run in its turn. -/
theorem Steps.ran_prefix (h : p.Steps q) : p.ran <+: q.ran := by
  obtain ⟨same, -⟩ | ⟨i, t, -, -, -, rfl⟩ := h.ran_cases
  · exact same ▸ List.prefix_rfl
  · exact List.prefix_append ..

/-- The body was not entered: the task results in the end of its context, if in anything. -/
structure Task.Unentered (t : Task α) : Prop where
  outside : t.phase ≠ .inBody
  result : t.phase.hasResult = true →
    t.phase = .refused ∨
      ∃ why : Cancellation, t.cancelled? = some why ∧ t.result? = some (.error why.error)

/-- A body that was not entered is entered only by entering it. -/
theorem Task.Changes.unentered (h : t.Changes u) (unentered : t.Unentered)
    (outside : u.phase ≠ .inBody) : u.Unentered := by
  refine ⟨outside, fun known => ?_⟩
  -- a result that was there stays; a new one comes from a cancellation, since no body was entered
  cases before : t.phase.hasResult with
  | true =>
    refine (unentered.result before).imp h.refused_iff.mpr ?_
    rintro ⟨why, ended, result⟩
    exact ⟨why, h.cancelled? ended, (h.result? before).trans result⟩
  | false =>
    right
    cases h with
    | same => exact absurd (before.symm.trans known) Bool.false_ne_true
    | inner h =>
      cases h with
      | cancel why =>
        unfold Task.cancel at known ⊢
        split at known
        · exact absurd (before.symm.trans known) Bool.false_ne_true
        · dsimp only at known ⊢
          split at known
          · next parked =>
            rw [if_pos parked]
            exact ⟨why, rfl, rfl⟩
          · exact absurd (before.symm.trans known) Bool.false_ne_true
      | release | tell => exact absurd (before.symm.trans known) Bool.false_ne_true
      | start => cases known
      | skip _ ended => exact ⟨_, ended, rfl⟩
      | conclude inBody => exact absurd inBody unentered.outside
      | finish other | giveUp other => rw [other] at before; cases before
    | take => cases known
    | park => cases known
    | withdraw _ ended => exact ⟨_, ended, rfl⟩
    | enter => cases known
    | leave other | release other | depart other => rw [other] at before; cases before

/-! ### Runs -/

/-- The handles of a pool are sound, and its record of the bodies is true. -/
structure Sound (p : Pool α) : Prop where
  tasks : ∀ {i t}, p.task? i = some t → t.Sound
  beyond : ∀ i ∈ p.ran, ∃ t, p.task? i = some t ∧ t.phase.isBeyond = true
  once : p.ran.Nodup
  unentered : ∀ {i t}, p.task? i = some t → i ∉ p.ran → t.Unentered

/-- The handle of a new task is sound. -/
theorem sound_newTask : (p.newTask body cancelled).Sound := by
  unfold newTask
  cases p.closed with
  | false => exact ⟨fun _ => ⟨rfl, rfl, rfl⟩, nofun, nofun, nofun, nofun⟩
  | true =>
    exact Task.sound_of_shows (show Task.Shows _ (.error .closed) from ⟨rfl, rfl, rfl, rfl⟩) rfl

/-- The body of a new task was not entered. -/
theorem unentered_newTask : (p.newTask body cancelled).Unentered := by
  have phase : (p.newTask body cancelled).phase = _ := phase_newTask
  constructor
  · rw [phase]
    cases p.closed <;> decide
  · rw [phase]
    cases p.closed with
    | false => exact nofun
    | true => exact fun _ => .inl rfl

/-- An empty pool is sound. -/
theorem sound_empty (d : Discipline) : ({ discipline := d } : Pool α).Sound :=
  ⟨nofun, nofun, .nil, nofun⟩

/-- Every step keeps the pool sound. -/
theorem Sound.step (sound : p.Sound) (h : p.Steps q) : q.Sound := by
  have tasks {i : Nat} {u : Task α} (there : q.task? i = some u) : u.Sound := by
    obtain ⟨t, before, changes⟩ | ⟨-, body, cancelled, rfl⟩ := h.task?_cases there
    · exact (sound.tasks before).changes changes
    · exact sound_newTask
  have old : ∀ i ∈ p.ran, ∃ u, q.task? i = some u ∧ u.phase.isBeyond = true := by
    intro i ran
    obtain ⟨t, there, beyond⟩ := sound.beyond i ran
    obtain ⟨u, there', changes⟩ := h.changes there
    exact ⟨u, there', changes.isBeyond beyond⟩
  -- either no body was entered in this step or that of the task `k` was
  obtain ⟨ran, outside⟩ | ⟨k, t, there, started, going, rfl⟩ := h.ran_cases
  · refine ⟨tasks, ?_, ?_, fun {i u} there unran => ?_⟩
    · rwa [ran]
    · rw [ran]
      exact sound.once
    · rw [ran] at unran
      obtain ⟨t, before, changes⟩ | ⟨-, body, cancelled, rfl⟩ := h.task?_cases there
      · have unentered := sound.unentered before unran
        refine changes.unentered unentered fun inBody => unentered.outside ?_
        have := outside i (by rw [phase?_of_task? there, inBody])
        rwa [phase?_of_task? before, Option.some_inj] at this
      · exact unentered_newTask
  -- a body that was entered before is past its start
  · have new : k ∉ p.ran := by
      intro ran
      obtain ⟨t', there', beyond⟩ := sound.beyond k ran
      rw [there] at there'
      cases there'
      rw [started] at beyond
      cases beyond
    refine ⟨tasks, fun i ran => ?_, ?_, fun {i u} there' unran => ?_⟩
    · rcases List.mem_append.mp ran with ran | last
      · exact old i ran
      · cases List.mem_singleton.mp last
        exact ⟨_, task?_setTask_self there, rfl⟩
    · exact nodup_concat sound.once new
    · obtain ⟨unran, other⟩ : i ∉ p.ran ∧ i ≠ k := by
        simpa [not_or] using unran
      refine sound.unentered ?_ unran
      rwa [task?_setTask_of_ne (p := { p with ran := p.ran ++ [k] }) other.symm] at there'

/-- All actions keep the pool sound. -/
theorem Sound.after (sound : p.Sound) (actions : List (Action α)) : (p.after actions).Sound :=
  after_induction sound Sound.step actions

/-- A pool is sound, whatever was done with it. -/
theorem sound_run (d : Discipline) (actions : List (Action α)) : (run d actions).Sound :=
  (sound_empty d).after actions

/-- What every change of a task keeps, the task has after all actions. -/
theorem exists_task?_after {P : Task α → Prop} (there : p.task? i = some t) (start : P t)
    (step : ∀ {t u : Task α}, P t → t.Changes u → P u) (actions : List (Action α)) :
    ∃ u, (p.after actions).task? i = some u ∧ P u := by
  refine after_induction (P := fun q => ∃ u, q.task? i = some u ∧ P u) ⟨t, there, start⟩ ?_ actions
  rintro q r ⟨u, there, holds⟩ h
  obtain ⟨v, there', changes⟩ := h.changes there
  exact ⟨v, there', step holds changes⟩

/-- The orders in which tasks are accepted and taken only get longer. -/
theorem prefixes_after (p : Pool α) (actions : List (Action α)) :
    p.accepted <+: (p.after actions).accepted ∧ p.taken <+: (p.after actions).taken := by
  refine after_induction (P := fun q => p.accepted <+: q.accepted ∧ p.taken <+: q.taken)
    ⟨List.prefix_rfl, List.prefix_rfl⟩ ?_ actions
  rintro q r ⟨accepted, taken⟩ h
  exact ⟨accepted.trans h.accepted_prefix, taken.trans h.taken_prefix⟩

end Lox.Pool
