import Lox.Pool.Settle

/-!
What a step of a pool can do. A task changes by itself, or together with the counts and lists of its
pool; every possible action is one of the cases of `Pool.Steps`, and what every case keeps holds
along every run.
-/

namespace Lox.Pool

variable {α : Type}

/-! ### Tasks -/

namespace Task

/-- A task changes, and nothing else does. -/
inductive Inner : Task α → Task α → Prop where
  | cancel (t : Task α) (why : Cancellation) : Inner t (t.cancel why)
  | release (t : Task α) : Inner t { t with released := true }
  | tell (t : Task α) (ending : Ending α) : Inner t (t.tell ending)
  | start : t.phase = .taken → Inner t { t.markStarted with phase := .started }
  | skip {why : Cancellation} : t.phase = .started → t.cancelled? = some why →
      Inner t { t with phase := .returned, result? := some (.error why.error) }
  | conclude {ending : Ending α} : t.phase = .inBody → t.ending? = some ending →
      Inner t { t with phase := .returned, result? := some ending.result }
  | finish {result : Except TaskError α} : t.phase = .returned → t.result? = some result →
      Inner t { t.finish result with phase := .finished }
  | giveUp {result : Except TaskError α} : t.phase = .withdrawn → t.result? = some result →
      Inner t { t.finish result with phase := .leaving }

/-- All ways in which a task changes in one step. -/
inductive Changes : Task α → Task α → Prop where
  | same (t : Task α) : Changes t t
  | inner {t u : Task α} : t.Inner u → Changes t u
  | take : t.phase = .waiting ∨ t.phase = .parked → Changes t { t with phase := .taken }
  | park : t.phase = .waiting → t.cancelled? = none → Changes t { t with phase := .parked }
  | withdraw {why : Cancellation} : t.phase = .waiting → t.cancelled? = some why →
      Changes t (t.withdraw why)
  | enter : t.phase = .started → t.cancelled? = none → Changes t { t with phase := .inBody }
  | leave : t.phase = .finished → Changes t { t with phase := .leaving }
  | release : t.phase = .finished → Changes t { t with phase := .gone }
  | depart : t.phase = .leaving → Changes t { t with phase := .gone }

variable {t : Task α}

/-! What each change asks for, and what it makes of the task. -/

variable {u : Task α}

/-- A task is moved if it is in the phase to move it from. -/
theorem move?_eq_some_iff {old new : Phase} :
    t.move? old new = some u ↔ t.phase = old ∧ { t with phase := new } = u := by
  unfold move?
  split
  · next h => simp [h]
  · next h => simp [h]

/-- A task is started when it was taken. -/
theorem start?_eq_some_iff :
    t.start? = some u ↔ t.phase = .taken ∧ { t.markStarted with phase := .started } = u := by
  unfold start?
  split <;> simp_all

/-- The body is entered if the context is not over when the task was started. -/
theorem enter?_eq_some_iff : t.enter? = some u ↔
    (t.phase = .started ∧ t.cancelled? = none) ∧ { t with phase := .inBody } = u := by
  unfold enter?
  split <;> simp_all

/-- The body is skipped if the context is over when the task was started. -/
theorem skip?_eq_some_iff : t.skip? = some u ↔ t.phase = .started ∧ ∃ why, t.cancelled? = some why ∧
    { t with phase := .returned, result? := some (.error why.error) } = u := by
  unfold skip?
  split <;> simp_all

/-- The body comes to its end if it ends. -/
theorem conclude?_eq_some_iff : t.conclude? = some u ↔ t.phase = .inBody ∧
    ∃ ending, t.ending? = some ending ∧
      { t with phase := .returned, result? := some ending.result } = u := by
  unfold conclude?
  split <;> simp_all

/-- A task is finished with the result that there is. -/
theorem finish?_eq_some_iff : t.finish? = some u ↔ ∃ result, t.result? = some result ∧
    (t.phase = .returned ∧ { t.finish result with phase := .finished } = u ∨
      t.phase = .withdrawn ∧ { t.finish result with phase := .leaving } = u) := by
  unfold finish?
  split <;> simp_all

theorem inner_of_start? (h : t.start? = some u) : t.Inner u := by
  obtain ⟨taken, rfl⟩ := start?_eq_some_iff.mp h
  exact .start taken

theorem inner_of_skip? (h : t.skip? = some u) : t.Inner u := by
  obtain ⟨started, why, ended, rfl⟩ := skip?_eq_some_iff.mp h
  exact .skip started ended

theorem inner_of_conclude? (h : t.conclude? = some u) : t.Inner u := by
  obtain ⟨inBody, ending, ends, rfl⟩ := conclude?_eq_some_iff.mp h
  exact .conclude inBody ends

theorem inner_of_finish? (h : t.finish? = some u) : t.Inner u := by
  obtain ⟨result, given, ⟨returned, rfl⟩ | ⟨withdrawn, rfl⟩⟩ := finish?_eq_some_iff.mp h
  · exact .finish returned given
  · exact .giveUp withdrawn given

end Task

/-! ### Pools -/

variable {p q : Pool α} {i j : Nat} {t : Task α}

section Frame

@[simp] theorem discipline_setTask : (p.setTask i t).discipline = p.discipline := rfl
@[simp] theorem closed_setTask : (p.setTask i t).closed = p.closed := rfl
@[simp] theorem callers_setTask : (p.setTask i t).callers = p.callers := rfl
@[simp] theorem queue_setTask : (p.setTask i t).queue = p.queue := rfl
@[simp] theorem active_setTask : (p.setTask i t).active = p.active := rfl
@[simp] theorem stopped_setTask : (p.setTask i t).stopped = p.stopped := rfl
@[simp] theorem worker_setTask : (p.setTask i t).worker = p.worker := rfl
@[simp] theorem slots_setTask : (p.setTask i t).slots = p.slots := rfl
@[simp] theorem pending_setTask : (p.setTask i t).pending = p.pending := rfl
@[simp] theorem taken_setTask : (p.setTask i t).taken = p.taken := rfl
@[simp] theorem ran_setTask : (p.setTask i t).ran = p.ran := rfl
@[simp] theorem left_setTask : (p.setTask i t).left = p.left := rfl

@[simp] theorem length_setTask : (p.setTask i t).tasks.length = p.tasks.length :=
  List.length_set

end Frame

theorem lt_length_of_task? (h : p.task? i = some t) : i < p.tasks.length :=
  (List.getElem?_eq_some_iff.mp h).1

theorem task?_setTask_self {u : Task α} (h : p.task? i = some t) :
    (p.setTask i u).task? i = some u :=
  List.getElem?_set_self (lt_length_of_task? h)

/-- To change one task leaves the others. -/
theorem task?_setTask_of_ne {u : Task α} (h : i ≠ j) : (p.setTask i u).task? j = p.task? j :=
  List.getElem?_set_ne h

/-- A task is altered if it is there and can be. -/
theorem alter_eq_some_iff {change : Task α → Option (Task α)} :
    p.alter i change = some q ↔
      ∃ t u, p.task? i = some t ∧ change t = some u ∧ q = p.setTask i u := by
  simp only [alter, Option.bind_eq_some_iff, Option.map_eq_some_iff]
  constructor
  · rintro ⟨t, there, u, changed, rfl⟩
    exact ⟨t, u, there, changed, rfl⟩
  · rintro ⟨t, u, there, changed, rfl⟩
    exact ⟨t, there, u, changed, rfl⟩

/-- All that a step can do. -/
inductive Steps (p : Pool α) : Pool α → Prop where
  | submit (body : Body α) (cancelled : Bool) : Steps p (p.submit body cancelled)
  | inner {i : Nat} {t u : Task α} : p.task? i = some t → t.Inner u → Steps p (p.setTask i u)
  | close : Steps p p.close
  | flush : Steps p (p.enlist .flush)
  | shutdown : Steps p (p.close.enlist .shutdown)
  | serve {k : Nat} {c : Caller} : p.callers[k]? = some c → c.state = .awake →
      p.serves c.errand = true →
      Steps p { p with callers := p.callers.set k { c with state := .returned } }
  | rest {k : Nat} {c : Caller} : p.callers[k]? = some c → c.state = .awake →
      p.serves c.errand = false → p.discipline = .serial →
      Steps p { p with callers := p.callers.set k { c with state := .asleep } }
  | doze : p.discipline = .serial → p.worker = .awake → p.queue = [] → p.closed = false →
      Steps p { p with worker := .asleep }
  | stop : p.discipline = .serial → p.worker = .awake → p.queue = [] → p.closed = true →
      Steps p (wake { p with stopped := true, worker := .done })
  | take {i : Nat} {rest : List Nat} {t : Task α} : p.discipline = .serial → p.worker = .awake →
      p.queue = i :: rest → p.task? i = some t → t.phase = .waiting →
      Steps p (setTask
        { p with queue := rest, active := true, worker := .busy i, taken := p.taken ++ [i] } i
        { t with phase := .taken })
  | occupy {limit : Nat} {positive : 0 < limit} {i : Nat} {t : Task α} :
      p.discipline = .bounded limit positive → p.slots < limit → p.task? i = some t →
      t.phase = .waiting →
      Steps p (setTask { p with slots := p.slots + 1, taken := p.taken ++ [i] } i
        { t with phase := .taken })
  | park {limit : Nat} {positive : 0 < limit} {i : Nat} {t : Task α} :
      p.discipline = .bounded limit positive → limit ≤ p.slots → p.task? i = some t →
      t.cancelled? = none → t.phase = .waiting → Steps p (p.setTask i { t with phase := .parked })
  | withdraw {limit : Nat} {positive : 0 < limit} {i : Nat} {t : Task α} {why : Cancellation} :
      p.discipline = .bounded limit positive → p.task? i = some t → t.phase = .waiting →
      t.cancelled? = some why → Steps p (p.setTask i (t.withdraw why))
  | enter {i : Nat} {t : Task α} : p.task? i = some t → t.phase = .started → t.cancelled? = none →
      Steps p (setTask { p with ran := p.ran ++ [i] } i { t with phase := .inBody })
  | release {i : Nat} {t : Task α} : p.discipline = .serial → p.task? i = some t →
      t.phase = .finished →
      Steps p (setTask (wake { p with active := false, worker := .awake, left := p.left ++ [i] }) i
        { t with phase := .gone })
  | vacate {limit : Nat} {positive : 0 < limit} {i : Nat} {t : Task α} :
      p.discipline = .bounded limit positive → (∀ u ∈ p.tasks, u.phase ≠ .parked) →
      p.task? i = some t → t.phase = .finished →
      Steps p (setTask { p with slots := p.slots - 1, left := p.left ++ [i] } i
        { t with phase := .leaving })
  | hand {limit : Nat} {positive : 0 < limit} {i j : Nat} {t u : Task α} :
      p.discipline = .bounded limit positive → p.task? i = some t → t.phase = .finished →
      p.task? j = some u → u.phase = .parked →
      Steps p (setTask (setTask { p with left := p.left ++ [i], taken := p.taken ++ [j] } i
        { t with phase := .leaving }) j { u with phase := .taken })
  | depart {limit : Nat} {positive : 0 < limit} {i : Nat} {t : Task α} :
      p.discipline = .bounded limit positive → p.task? i = some t → t.phase = .leaving →
      Steps p (setTask { p with pending := p.pending - 1 } i { t with phase := .gone })

/-- What goes on inside of a task is a step of the pool. -/
theorem steps_alter {change : Task α → Option (Task α)} (h : p.alter i change = some q)
    (inner : ∀ t u, change t = some u → t.Inner u) : p.Steps q := by
  obtain ⟨t, u, there, changed, rfl⟩ := alter_eq_some_iff.mp h
  exact .inner there (inner t u changed)

theorem steps_of_look? {k : Nat} (h : p.look? k = some q) : p.Steps q := by
  obtain ⟨c, there, h⟩ := Option.bind_eq_some_iff.mp h
  dsimp only at h
  split at h
  · next awake =>
    split at h
    · next serves =>
      cases h
      exact .serve there awake serves
    · next unserved =>
      split at h
      · next serial =>
        cases h
        exact .rest there awake (Bool.eq_false_iff.mpr unserved) serial
      · cases h
  · cases h

theorem steps_of_take? (h : p.take? i = some q) : p.Steps q := by
  unfold take? at h
  split at h
  · next serial =>
    split at h
    · next ready =>
      obtain ⟨t, u, there, moved, rfl⟩ := alter_eq_some_iff.mp h
      obtain ⟨waiting, rfl⟩ := Task.move?_eq_some_iff.mp moved
      obtain ⟨rest, queue⟩ := List.head?_eq_some_iff.mp ready.2
      have tail : p.queue.tail = rest := by rw [queue, List.tail_cons]
      rw [tail]
      exact .take serial ready.1 queue there waiting
    · cases h
  · next limit positive bounded =>
    split at h
    · next free =>
      obtain ⟨t, u, there, moved, rfl⟩ := alter_eq_some_iff.mp h
      obtain ⟨waiting, rfl⟩ := Task.move?_eq_some_iff.mp moved
      exact .occupy bounded free there waiting
    · cases h

/-- A task with no place waits for one. -/
theorem steps_of_park? (h : p.park? i = some q) : p.Steps q := by
  unfold park? at h
  split at h
  · cases h
  · next limit positive bounded =>
    split at h
    · next full =>
      obtain ⟨t, u, there, changed, rfl⟩ := alter_eq_some_iff.mp h
      split at changed
      · next going =>
        obtain ⟨waiting, rfl⟩ := Task.move?_eq_some_iff.mp changed
        exact .park bounded full there going waiting
      · cases changed
    · cases h

/-- A task that waits may withdraw. -/
theorem steps_of_withdraw? (h : p.withdraw? i = some q) : p.Steps q := by
  unfold withdraw? at h
  split at h
  · cases h
  · next limit positive bounded =>
    obtain ⟨t, u, there, changed, rfl⟩ := alter_eq_some_iff.mp h
    split at changed
    · next waiting =>
      obtain ⟨why, ended, rfl⟩ := Option.map_eq_some_iff.mp changed
      exact .withdraw bounded there waiting ended
    · cases changed

theorem steps_of_leave? (h : p.leave? i = some q) : p.Steps q := by
  unfold leave? at h
  split at h
  · next serial =>
    obtain ⟨t, u, there, moved, rfl⟩ := alter_eq_some_iff.mp h
    obtain ⟨finished, rfl⟩ := Task.move?_eq_some_iff.mp moved
    exact .release serial there finished
  · next limit positive bounded =>
    split at h
    · next none =>
      obtain ⟨t, u, there, moved, rfl⟩ := alter_eq_some_iff.mp h
      obtain ⟨finished, rfl⟩ := Task.move?_eq_some_iff.mp moved
      refine .vacate bounded (fun u mem => ?_) there finished
      exact of_decide_eq_true (List.all_eq_true.mp none u mem)
    · cases h

/-- A slot goes from a task that is finished to another one that is parked. -/
theorem exists_of_hand? (h : p.hand? i j = some q) :
    ∃ limit positive t u, p.discipline = .bounded limit positive ∧
      (p.task? i = some t ∧ t.phase = .finished) ∧ (p.task? j = some u ∧ u.phase = .parked) ∧
      q = setTask (setTask { p with left := p.left ++ [i], taken := p.taken ++ [j] } i
        { t with phase := .leaving }) j { u with phase := .taken } := by
  unfold hand? at h
  split at h
  · cases h
  · next limit positive bounded =>
    obtain ⟨r, left, h⟩ := Option.bind_eq_some_iff.mp h
    obtain ⟨t, u, there, moved, rfl⟩ := alter_eq_some_iff.mp left
    obtain ⟨finished, rfl⟩ := Task.move?_eq_some_iff.mp moved
    obtain ⟨t', u', there', moved', rfl⟩ := alter_eq_some_iff.mp h
    obtain ⟨parked, rfl⟩ := Task.move?_eq_some_iff.mp moved'
    have other : i ≠ j := by
      rintro rfl
      rw [task?_setTask_self there] at there'
      cases there'
      cases parked
    rw [task?_setTask_of_ne other] at there'
    exact ⟨limit, positive, t, t', bounded, ⟨there, finished⟩, ⟨there', parked⟩, rfl⟩

/-- A place is handed to a task that waits for one. -/
theorem steps_of_hand? (h : p.hand? i j = some q) : p.Steps q := by
  obtain ⟨limit, positive, t, u, bounded, ⟨there, finished⟩, ⟨there', parked⟩, rfl⟩ :=
    exists_of_hand? h
  exact .hand bounded there finished there' parked

theorem steps_of_depart? (h : p.depart? i = some q) : p.Steps q := by
  unfold depart? at h
  split at h
  · cases h
  · next limit positive bounded =>
    obtain ⟨t, u, there, moved, rfl⟩ := alter_eq_some_iff.mp h
    obtain ⟨leaving, rfl⟩ := Task.move?_eq_some_iff.mp moved
    exact .depart bounded there leaving

/-- A serial worker idles when it is awake and the queue is empty. -/
theorem idles_iff {closed : Bool} : p.idles closed = true ↔
    p.discipline = .serial ∧ p.worker = .awake ∧ p.queue = [] ∧ p.closed = closed := by
  simp [idles, and_assoc]

/-- Every action that is possible is one of the steps. -/
theorem steps_of_step? {a : Action α} (h : p.step? a = some q) : p.Steps q := by
  cases a with
  | submit body cancelled =>
    cases h
    exact .submit body cancelled
  | close =>
    cases h
    exact .close
  | flush =>
    cases h
    exact .flush
  | shutdown =>
    cases h
    exact .shutdown
  | cancel i =>
    refine steps_alter h fun t u changed => ?_
    cases changed
    exact .cancel t _
  | expire i =>
    refine steps_alter h fun t u changed => ?_
    cases changed
    exact .cancel t _
  | release i =>
    refine steps_alter h fun t u changed => ?_
    cases changed
    exact .release t
  | tell i ending =>
    refine steps_alter h fun t u changed => ?_
    cases changed
    exact .tell t ending
  | start i => exact steps_alter h fun _ _ => Task.inner_of_start?
  | skip i => exact steps_alter h fun _ _ => Task.inner_of_skip?
  | conclude i => exact steps_alter h fun _ _ => Task.inner_of_conclude?
  | finish i => exact steps_alter h fun _ _ => Task.inner_of_finish?
  | look k => exact steps_of_look? h
  | take i => exact steps_of_take? h
  | park i => exact steps_of_park? h
  | withdraw i => exact steps_of_withdraw? h
  | leave i => exact steps_of_leave? h
  | hand i j => exact steps_of_hand? h
  | depart i => exact steps_of_depart? h
  -- to enter a body changes the log as well as the task
  | enter i =>
    obtain ⟨t, u, there, changed, rfl⟩ := alter_eq_some_iff.mp h
    obtain ⟨⟨started, going⟩, rfl⟩ := Task.enter?_eq_some_iff.mp changed
    exact .enter there started going
  | doze =>
    change (if _ then _ else _) = _ at h
    split at h
    · next idle =>
      cases h
      obtain ⟨serial, awake, empty, opened⟩ := idles_iff.mp idle
      exact .doze serial awake empty opened
    · cases h
  | stop =>
    change (if _ then _ else _) = _ at h
    split at h
    · next idle =>
      cases h
      obtain ⟨serial, awake, empty, closed⟩ := idles_iff.mp idle
      exact .stop serial awake empty closed
    · cases h

/-! ### What becomes of tasks -/

/-- A pool that is closed refuses the task. -/
theorem submit_of_closed {body : Body α} {cancelled : Bool} (closed : p.closed = true) :
    p.submit body cancelled = { p with tasks := p.tasks ++ [p.newTask body cancelled] } :=
  if_pos closed

/-- A serial pool queues the task and wakes the worker. -/
theorem submit_serial {body : Body α} {cancelled : Bool} (opened : p.closed = false)
    (serial : p.discipline = .serial) : p.submit body cancelled =
      wake { p with
        tasks := p.tasks ++ [p.newTask body cancelled], queue := p.queue ++ [p.tasks.length] } := by
  unfold submit
  rw [opened, if_neg Bool.false_ne_true]
  split
  · rfl
  · next bounded =>
    rw [serial] at bounded
    cases bounded

/-- A bounded pool lets the task wait for a slot. -/
theorem submit_bounded {body : Body α} {cancelled : Bool} {limit : Nat} {positive : 0 < limit}
    (opened : p.closed = false) (bounded : p.discipline = .bounded limit positive) :
    p.submit body cancelled = { p with
      tasks := p.tasks ++ [p.newTask body cancelled], pending := p.pending + 1 } := by
  unfold submit
  rw [opened, if_neg Bool.false_ne_true]
  split
  · next serial =>
    rw [bounded] at serial
    cases serial
  · rfl

theorem tasks_submit (p : Pool α) (body : Body α) (cancelled : Bool) :
    (p.submit body cancelled).tasks = p.tasks ++ [p.newTask body cancelled] := by
  unfold submit
  split
  · rfl
  · split <;> rfl

/-- A submission leaves the tasks alone that are there. -/
theorem task?_submit {body : Body α} {cancelled : Bool} (there : p.task? i = some t) :
    (p.submit body cancelled).task? i = some t := by
  unfold task?
  rw [tasks_submit, List.getElem?_append_left (lt_length_of_task? there)]
  exact there

/-- A task that is changed is there, and the others are as they were. -/
theorem task?_modified {u v : Task α} (there : p.task? j = some u)
    (same : q.tasks = p.tasks.set i v) (moved : i = j → u.Changes v) :
    ∃ u', q.task? j = some u' ∧ u.Changes u' := by
  unfold task? at there ⊢
  rw [same]
  by_cases h : i = j
  · subst h
    exact ⟨v, List.getElem?_set_self (List.getElem?_eq_some_iff.mp there).1, moved rfl⟩
  · exact ⟨u, by rw [List.getElem?_set_ne h, there], .same u⟩

/-- Every task is still there after a step, changed in one of the ways there are. -/
theorem Steps.changes (h : p.Steps q) (there : p.task? j = some t) :
    ∃ u, q.task? j = some u ∧ t.Changes u := by
  have one {i : Nat} {r : Pool α} {u v : Task α} (here : p.task? i = some u) (moved : u.Changes v)
      (same : r.tasks = p.tasks.set i v) : ∃ t', r.task? j = some t' ∧ t.Changes t' := by
    refine task?_modified there same fun h => ?_
    rw [← h, here] at there
    cases there
    exact moved
  cases h with
  | submit body cancelled => exact ⟨t, task?_submit there, .same t⟩
  | close | flush | shutdown | serve | rest | doze | stop => exact ⟨t, there, .same t⟩
  | inner here inner => exact one here (.inner inner) rfl
  | take _ _ _ here waiting => exact one here (.take (.inl waiting)) rfl
  | occupy _ _ here waiting => exact one here (.take (.inl waiting)) rfl
  | park _ _ here going waiting => exact one here (.park waiting going) rfl
  | withdraw _ here waiting ended => exact one here (.withdraw waiting ended) rfl
  | enter here started going => exact one here (.enter started going) rfl
  | release _ here finished => exact one here (.release finished) rfl
  | vacate _ _ here finished => exact one here (.leave finished) rfl
  | depart _ here leaving => exact one here (.depart leaving) rfl
  -- two tasks change: one leaves and the other takes its place
  | @hand _ _ i k u v _ here finished here' parked =>
    by_cases h : k = j
    · subst h
      rw [here'] at there
      cases there
      refine ⟨_, List.getElem?_set_self ?_, .take (.inr parked)⟩
      rw [length_setTask]
      exact lt_length_of_task? here'
    · rw [task?_setTask_of_ne h]
      exact one here (.leave finished) rfl

/-! ### Runs -/

/-- A step that is possible is what acting does. -/
theorem act_of_step? {a : Action α} (h : p.step? a = some q) : p.act a = q := by
  rw [act, h, Option.getD_some]

/-- What every step keeps holds after all actions. -/
theorem after_induction {P : Pool α → Prop} (start : P p)
    (step : ∀ {q r : Pool α}, P q → q.Steps r → P r) (actions : List (Action α)) :
    P (p.after actions) := by
  induction actions generalizing p with
  | nil => exact start
  | cons a rest ih =>
    refine ih (p := p.act a) ?_
    unfold act
    cases h : p.step? a with
    | none => exact start
    | some q => exact step start (steps_of_step? h)

end Lox.Pool
