import Lox.Proofs.Pool.Context
import Lox.Proofs.Pool.Rest

/-!
The serial pool loses nothing and keeps the order of submission: what was accepted is what the
worker took and then what is queued. The worker has at most one task at a time, and comes to its end
only when there is none left.
-/

namespace Lox.Pool

variable {α : Type} {p q : Pool α} {i j : Nat} {t u : Task α}

/-- How worker, queue and tasks of a serial pool fit together between any two steps. -/
structure Orderly (p : Pool α) : Prop where
  serial : p.discipline = .serial
  order : p.accepted = p.taken ++ p.queue
  queued : ∀ i ∈ p.queue, p.phase? i = some .waiting
  taken : ∀ i ∈ p.taken, p.phase? i = some .gone ∨ p.worker = .busy i
  busy : ∀ {i}, p.worker = .busy i →
    p.taken.getLast? = some i ∧ ∃ phase, p.phase? i = some phase ∧ phase.isGoing = true
  active : p.active = true ↔ ∃ i, p.worker = .busy i
  stopped : p.stopped = true ↔ p.worker = .done
  done : p.worker = .done → p.closed = true ∧ p.queue = []
  asleep : p.worker = .asleep → p.closed = false ∧ p.queue = []

/-- An empty pool is orderly. -/
theorem orderly_empty : ({ discipline := .serial } : Pool α).Orderly where
  serial := rfl
  order := rfl
  queued := nofun
  taken := nofun
  busy := nofun
  active := by simp
  stopped := by simp
  done := nofun
  asleep := nofun

/-! ### The worker -/

theorem woken_eq_busy_iff {worker : Worker} : worker.woken = .busy i ↔ worker = .busy i := by
  cases worker <;> simp [Worker.woken]

theorem woken_eq_done_iff {worker : Worker} : worker.woken = .done ↔ worker = .done := by
  cases worker <;> simp [Worker.woken]

theorem woken_ne_asleep {worker : Worker} : worker.woken ≠ .asleep := by
  cases worker <;> simp [Worker.woken]

namespace Orderly

/-- A task that is neither queued nor gone is the one that the worker has. -/
theorem busy_of_phase (orderly : p.Orderly) (there : p.task? i = some t)
    (waiting : t.phase ≠ .waiting) (gone : t.phase ≠ .gone) (refused : t.phase ≠ .refused) :
    p.worker = .busy i := by
  have here : p.phase? i = some t.phase := phase?_of_task? there
  have accepted : i ∈ p.accepted := mem_accepted.mpr ⟨_, here, refused⟩
  rw [orderly.order] at accepted
  rcases List.mem_append.mp accepted with taken | queued
  · refine (orderly.taken i taken).resolve_left fun other => gone ?_
    rwa [here, Option.some_inj] at other
  · have other := orderly.queued i queued
    rw [here, Option.some_inj] at other
    exact absurd other waiting

/-- A task that is going on is the only one. -/
theorem active_of_isGoing {phase : Phase} (orderly : p.Orderly) (here : p.phase? i = some phase)
    (going : phase.isGoing = true) : p.active = true ∧ p.taken.getLast? = some i := by
  obtain ⟨t, there, rfl⟩ := Option.map_eq_some_iff.mp here
  have busy : p.worker = .busy i := by
    refine orderly.busy_of_phase there ?_ ?_ ?_
    all_goals
      intro other
      rw [other] at going
      cases going
  exact ⟨orderly.active.mpr ⟨i, busy⟩, (orderly.busy busy).1⟩

/-- No task is at the worker if it is busy with none. -/
theorem inactive (orderly : p.Orderly) (free : ∀ i, p.worker ≠ .busy i) : p.active = false := by
  refine Bool.eq_false_iff.mpr fun active => ?_
  obtain ⟨i, busy⟩ := orderly.active.mp active
  exact free i busy

/-- A worker that is not at its end does not count as stopped. -/
theorem running (orderly : p.Orderly) (going : p.worker ≠ .done) : ¬ p.stopped = true :=
  fun stopped => going (orderly.stopped.mp stopped)

/-- The task that the worker has goes on. -/
theorem go (orderly : p.Orderly) (there : p.task? i = some t) (change : t.Changes u)
    (going : u.phase = t.phase ∨ t.phase.isGoing = true ∧ u.phase.isGoing = true) :
    (p.setTask i u).Orderly := by
  -- a task that goes on is neither in the queue nor gone, so it may change its phase
  have kept {j : Nat} {phase : Phase} (here : p.phase? j = some phase) :
      (p.setTask i u).phase? j = some phase ∨
        phase.isGoing = true ∧ ∃ new, (p.setTask i u).phase? j = some new ∧ new.isGoing = true := by
    rw [phase?_set there rfl]
    split
    · next same =>
      subst same
      rw [phase?_of_task? there] at here
      cases here
      exact going.imp (congrArg some) fun ⟨old, new⟩ => ⟨old, u.phase, rfl, new⟩
    · exact .inl here
  exact {
    serial := orderly.serial
    order := (accepted_set there change rfl).trans orderly.order
    queued := fun j mem => (kept (orderly.queued j mem)).resolve_right nofun
    taken := fun j mem => (orderly.taken j mem).imp_left fun gone => (kept gone).resolve_right nofun
    busy := fun {j} busy => by
      obtain ⟨last, phase, here, going⟩ := orderly.busy busy
      refine ⟨last, ?_⟩
      rcases kept here with same | ⟨-, new⟩
      · exact ⟨phase, same, going⟩
      · exact new
    active := orderly.active
    stopped := orderly.stopped
    done := orderly.done
    asleep := orderly.asleep }

/-- What goes on inside a body leaves the queue as it is. -/
theorem inner (orderly : p.Orderly) (there : p.task? i = some t) (h : t.Inner u) :
    (p.setTask i u).Orderly := by
  refine orderly.go there (.inner h) (h.phase.imp_right fun ⟨next, moves⟩ => ?_)
  refine moves.resolve_right fun outside => ?_
  -- Neither parked nor withdrawn tasks are known here: the worker would have them.
  have odd : t.phase = .parked ∨ t.phase = .withdrawn := outside.imp And.left And.left
  have busy : p.worker = .busy i := by
    refine orderly.busy_of_phase there ?_ ?_ ?_
    all_goals rcases odd with odd | odd <;> rw [odd] <;> decide
  obtain ⟨-, phase, here, going⟩ := orderly.busy busy
  rw [phase?_of_task? there, Option.some_inj] at here
  rw [← here] at going
  rcases odd with odd | odd
  all_goals
    rw [odd] at going
    cases going

/-- The first of the queue is taken by a worker that is awake. -/
theorem take {rest : List Nat} (orderly : p.Orderly) (awake : p.worker = .awake)
    (queue : p.queue = i :: rest) (there : p.task? i = some t) (waiting : t.phase = .waiting) :
    (setTask { p with queue := rest, active := true, worker := .busy i, taken := p.taken ++ [i] } i
      { t with phase := .taken }).Orderly := by
  have order : p.accepted = p.taken ++ [i] ++ rest := by
    rw [orderly.order, queue, List.append_assoc, List.singleton_append]
  -- what was accepted has no task twice, so the one taken is in neither list any more
  have once : (p.taken ++ [i] ++ rest).Nodup := order ▸ nodup_accepted
  rw [List.append_assoc, List.singleton_append, List.nodup_append, List.nodup_cons] at once
  obtain ⟨-, ⟨unqueued, -⟩, apart⟩ := once
  have ne_of_taken {j : Nat} (mem : j ∈ p.taken) : i ≠ j :=
    (apart j mem i List.mem_cons_self).symm
  exact {
    serial := orderly.serial
    order := (accepted_set there (.take (.inl waiting)) rfl).trans order
    queued := fun j mem => by
      have other : i ≠ j := fun same => unqueued (same ▸ mem)
      refine (phase?_set_of_ne rfl other).trans (orderly.queued j ?_)
      rw [queue]
      exact List.mem_cons_of_mem i mem
    taken := fun j mem => by
      rcases List.mem_append.mp mem with old | new
      · refine .inl ((phase?_set_of_ne rfl (ne_of_taken old)).trans ?_)
        refine (orderly.taken j old).resolve_right fun busy => ?_
        rw [awake] at busy
        cases busy
      · cases List.mem_singleton.mp new
        exact .inr rfl
    busy := fun {j} busy => by
      cases busy
      exact ⟨List.getLast?_concat, .taken, phase?_set_self there rfl rfl, rfl⟩
    active := iff_of_true rfl ⟨i, rfl⟩
    stopped := iff_of_false (orderly.running (by rw [awake]; exact nofun)) nofun
    done := nofun
    asleep := nofun }

/-- A task that is finished leaves the worker free. -/
theorem release (orderly : p.Orderly) (there : p.task? i = some t)
    (finished : t.phase = .finished) :
    (setTask (wake { p with active := false, worker := .awake, left := p.left ++ [i] }) i
      { t with phase := .gone }).Orderly := by
  -- a task that has finished is neither waiting nor gone, so it is the worker's
  have busy : p.worker = .busy i := by
    refine orderly.busy_of_phase there ?_ ?_ ?_
    all_goals rw [finished]; decide
  exact {
    serial := orderly.serial
    order := (accepted_set there (.release finished) rfl).trans orderly.order
    queued := fun j mem => by
      have waiting := orderly.queued j mem
      refine (phase?_set_of_ne rfl ?_).trans waiting
      rintro rfl
      rw [phase?_of_task? there, finished] at waiting
      cases waiting
    taken := fun j mem => by
      left
      by_cases same : i = j
      · subst same
        exact phase?_set_self there rfl rfl
      · refine (phase?_set_of_ne rfl same).trans ?_
        refine (orderly.taken j mem).resolve_right fun other => ?_
        rw [busy] at other
        cases other
        exact same rfl
    busy := nofun
    active := by
      refine iff_of_false Bool.false_ne_true ?_
      rintro ⟨j, other⟩
      cases other
    stopped := iff_of_false (orderly.running (by rw [busy]; exact nofun)) nofun
    done := nofun
    asleep := nofun }

/-- A task that is submitted comes last in the queue. -/
theorem submit (orderly : p.Orderly) (body : Body α) (cancelled : Bool) :
    (p.submit body cancelled).Orderly := by
  have old {j : Nat} {phase : Phase} (here : p.phase? j = some phase) :
      (p.submit body cancelled).phase? j = some phase := by
    rw [phase?_submit, if_neg (Nat.ne_of_lt (lt_length_of_phase? here)), here]
  have order : (p.submit body cancelled).accepted = _ := accepted_submit
  rw [orderly.order] at order
  have new : (p.submit body cancelled).phase? p.tasks.length =
      some (if p.closed then .refused else .waiting) := phase?_submit.trans (if_pos rfl)
  cases closed : p.closed with
  | true =>
    rw [closed] at order
    rw [submit_of_closed closed] at old order ⊢
    exact {
      serial := orderly.serial
      order := order
      queued := fun j mem => old (orderly.queued j mem)
      taken := fun j mem => (orderly.taken j mem).imp_left old
      busy := fun busy => by
        obtain ⟨last, phase, here, going⟩ := orderly.busy busy
        exact ⟨last, phase, old here, going⟩
      active := orderly.active
      stopped := orderly.stopped
      done := orderly.done
      asleep := orderly.asleep }
  | false =>
    rw [closed] at order new
    rw [submit_serial closed orderly.serial] at old order new ⊢
    exact {
      serial := orderly.serial
      order := by
        rw [order, if_neg Bool.false_ne_true, List.append_assoc]
        rfl
      queued := fun j mem => by
        rcases List.mem_append.mp mem with mem | last
        · exact old (orderly.queued j mem)
        · cases List.mem_singleton.mp last
          exact new
      taken := fun j mem => (orderly.taken j mem).imp old woken_eq_busy_iff.mpr
      busy := fun busy => by
        obtain ⟨last, phase, here, going⟩ := orderly.busy (woken_eq_busy_iff.mp busy)
        exact ⟨last, phase, old here, going⟩
      active := orderly.active.trans (exists_congr fun _ => woken_eq_busy_iff.symm)
      stopped := orderly.stopped.trans woken_eq_done_iff.symm
      done := fun done => by
        have := (orderly.done (woken_eq_done_iff.mp done)).1
        rw [closed] at this
        cases this
      asleep := fun asleep => absurd asleep woken_ne_asleep }

/-- To close the pool leaves the queue as it is. -/
theorem close (orderly : p.Orderly) : p.close.Orderly where
  serial := orderly.serial
  order := orderly.order
  queued := orderly.queued
  taken := fun j mem => (orderly.taken j mem).imp_right woken_eq_busy_iff.mpr
  busy := fun busy => orderly.busy (woken_eq_busy_iff.mp busy)
  active := orderly.active.trans (exists_congr fun _ => woken_eq_busy_iff.symm)
  stopped := orderly.stopped.trans woken_eq_done_iff.symm
  done := fun done => ⟨rfl, (orderly.done (woken_eq_done_iff.mp done)).2⟩
  asleep := fun asleep => absurd asleep woken_ne_asleep

/-- Who waits for the pool makes no difference to the queue. -/
theorem callers (orderly : p.Orderly) (callers : List Caller) : Orderly { p with callers } :=
  { orderly with }

/-- The worker has no task, and goes from one state without a task to another. -/
theorem idle (orderly : p.Orderly) (awake : p.worker = .awake) :
    p.active = false ∧ ¬ p.stopped = true ∧ ∀ i ∈ p.taken, p.phase? i = some .gone := by
  have free (i : Nat) : p.worker ≠ .busy i := by
    rw [awake]
    exact nofun
  refine ⟨orderly.inactive free, orderly.running ?_, fun i mem => ?_⟩
  · rw [awake]
    exact nofun
  · exact (orderly.taken i mem).resolve_right (free i)

/-- The worker falls asleep when there is nothing to do. -/
theorem doze (orderly : p.Orderly) (awake : p.worker = .awake) (queue : p.queue = [])
    (opened : p.closed = false) : Orderly { p with worker := .asleep } := by
  obtain ⟨inactive, running, gone⟩ := orderly.idle awake
  exact { orderly with
    taken := fun j mem => .inl (gone j mem)
    busy := nofun
    active := iff_of_false (Bool.eq_false_iff.mp inactive) nofun
    stopped := iff_of_false running nofun
    done := nofun
    asleep := fun _ => ⟨opened, queue⟩ }

/-- The worker stops when there is nothing to do and will be nothing. -/
theorem stop (orderly : p.Orderly) (awake : p.worker = .awake) (queue : p.queue = [])
    (closed : p.closed = true) : (wake { p with stopped := true, worker := .done }).Orderly := by
  obtain ⟨inactive, -, gone⟩ := orderly.idle awake
  exact { orderly with
    taken := fun j mem => .inl (gone j mem)
    busy := nofun
    active := iff_of_false (Bool.eq_false_iff.mp inactive) nofun
    stopped := iff_of_true rfl rfl
    done := fun _ => ⟨closed, queue⟩
    asleep := nofun }

/-- Every step keeps the pool orderly. -/
theorem step (orderly : p.Orderly) (h : p.Steps q) : q.Orderly := by
  cases h with
  | submit body cancelled => exact orderly.submit body cancelled
  | inner there h => exact orderly.inner there h
  | close => exact orderly.close
  | flush => exact orderly.callers _
  | shutdown => exact orderly.close.callers _
  | serve | rest => exact orderly.callers _
  | doze _ awake queue opened => exact orderly.doze awake queue opened
  | stop _ awake queue closed => exact orderly.stop awake queue closed
  | take _ awake queue there waiting => exact orderly.take awake queue there waiting
  | enter there started going =>
    have recorded (ran : List Nat) : Orderly { p with ran } := { orderly with }
    exact (recorded _).go there (.enter started going) (by rw [started]; exact .inr ⟨rfl, rfl⟩)
  | release _ there finished => exact orderly.release there finished
  | occupy bounded | park bounded | withdraw bounded | vacate bounded | hand bounded
  | depart bounded =>
    rw [orderly.serial] at bounded
    cases bounded

/-! ### What is left -/

/-- With an empty queue and no task at the worker nothing is left to be done. -/
theorem finished (orderly : p.Orderly) (sound : p.Sound) (queue : p.queue = [])
    (inactive : p.active = false) : ∀ i < p.tasks.length, p.Finished i := by
  intro i small
  have here : p.phase? i = some p.tasks[i].phase := phase?_of_task? (List.getElem?_eq_getElem small)
  refine sound.finished_iff.mpr ⟨_, here, ?_⟩
  by_cases refused : p.tasks[i].phase = .refused
  · rw [refused]
    rfl
  · have taken : i ∈ p.taken := by
      have accepted : i ∈ p.accepted := mem_accepted.mpr ⟨_, here, refused⟩
      rwa [orderly.order, queue, List.append_nil] at accepted
    rcases orderly.taken i taken with gone | busy
    · rw [here, Option.some_inj] at gone
      rw [gone]
      rfl
    · rw [orderly.active.mpr ⟨i, busy⟩] at inactive
      cases inactive

/-- A caller of Flush is served when the queue is empty and no task is at the worker. -/
theorem serves_flush (orderly : p.Orderly) :
    p.serves .flush = (p.queue.isEmpty && !p.active) := by
  unfold Pool.serves
  rw [orderly.serial]

/-- A caller of Shutdown is served when the worker has stopped. -/
theorem serves_shutdown (orderly : p.Orderly) : p.serves .shutdown = p.stopped := by
  unfold Pool.serves
  rw [orderly.serial]

/-- Whoever is served finds all tasks finished. -/
theorem serves (orderly : p.Orderly) (sound : p.Sound) (errand : Errand)
    (served : p.serves errand = true) : ∀ i < p.tasks.length, p.Finished i := by
  cases errand with
  | flush =>
    rw [orderly.serves_flush, Bool.and_eq_true, List.isEmpty_iff, Bool.not_eq_true'] at served
    exact orderly.finished sound served.1 served.2
  | shutdown =>
    rw [orderly.serves_shutdown, orderly.stopped] at served
    refine orderly.finished sound (orderly.done served).2 (orderly.inactive fun i => ?_)
    rw [served]
    exact nofun

/-! ### Rest -/

/-- At rest the worker has nothing to do, unless a body keeps it. -/
theorem atRest (orderly : p.Orderly) (sound : p.Sound) (rest : p.AtRest)
    (ends : ∀ i t, p.task? i = some t → ¬ t.Held) :
    p.queue = [] ∧ p.active = false ∧ (p.closed = true → p.stopped = true) := by
  -- an awake worker has something to do in every case, and a busy one waits for its task only
  cases worker : p.worker with
  | awake =>
    exfalso
    cases queue : p.queue with
    | nil =>
      cases closed : p.closed with
      | false =>
        have doze := rest .doze rfl
        rw [Pool.step?, if_pos (idles_iff.mpr ⟨orderly.serial, worker, queue, closed⟩)] at doze
        cases doze
      | true =>
        have stop := rest .stop rfl
        rw [Pool.step?, if_pos (idles_iff.mpr ⟨orderly.serial, worker, queue, closed⟩)] at stop
        cases stop
    | cons i others =>
      have waiting := orderly.queued i (by rw [queue]; exact List.mem_cons_self)
      obtain ⟨t, there, waiting⟩ := Option.map_eq_some_iff.mp waiting
      have step : p.step? (.take i) =
          alter { p with
            queue := p.queue.tail, active := true, worker := .busy i, taken := p.taken ++ [i] } i
            (Task.move? .waiting .taken) := by
        change p.take? i = _
        unfold take?
        rw [orderly.serial]
        exact if_pos ⟨worker, by rw [queue]; rfl⟩
      exact rest.move rfl step there waiting
  | asleep =>
    obtain ⟨opened, queue⟩ := orderly.asleep worker
    refine ⟨queue, orderly.inactive fun i => by rw [worker]; exact nofun, fun closed => ?_⟩
    rw [opened] at closed
    cases closed
  | done =>
    refine ⟨(orderly.done worker).2, orderly.inactive fun i => by rw [worker]; exact nofun, ?_⟩
    exact fun _ => orderly.stopped.mpr worker
  | busy i =>
    exfalso
    obtain ⟨-, phase, here, going⟩ := orderly.busy worker
    obtain ⟨t, there, rfl⟩ := Option.map_eq_some_iff.mp here
    obtain waiting | parked | finished | held | ⟨-, still⟩ := rest.phase sound there
    · rw [waiting] at going
      cases going
    · rw [parked] at going
      cases going
    · have step : p.step? (.leave i) =
          alter (wake { p with active := false, worker := .awake, left := p.left ++ [i] }) i
            (Task.move? .finished .gone) := by
        change p.leave? i = _
        unfold leave?
        rw [orderly.serial]
      exact rest.move rfl step there finished
    · exact ends i t there held
    · rw [still] at going
      cases going

end Orderly

/-! ### Callers -/

/-- Nobody sleeps who is served, and who came back from closing the pool found the worker at its
end. -/
structure Alert (p : Pool α) : Prop where
  asleep : ∀ c ∈ p.callers, c.state = .asleep → p.serves c.errand = false
  stopped : ∀ c ∈ p.callers, c.errand = .shutdown → c.state = .returned → p.stopped = true

/-- In an empty pool nobody sleeps through anything. -/
theorem alert_empty (d : Discipline) : Alert ({ discipline := d } : Pool α) := ⟨nofun, nofun⟩

/-- Nobody is asleep who was woken. -/
theorem not_asleep_woken {p : Pool α} {c : Caller} (mem : c ∈ p.wake.callers) :
    c.state ≠ .asleep := by
  obtain ⟨b, -, rfl⟩ := List.mem_map.mp mem
  unfold Caller.woken
  cases b.state <;> exact nofun

/-- A worker that has stopped does not start again. -/
theorem Steps.stopped (h : p.Steps q) (stopped : p.stopped = true) : q.stopped = true := by
  cases h with
  | submit body cancelled =>
    unfold Pool.submit
    split
    · exact stopped
    · split <;> exact stopped
  | stop => rfl
  | _ => exact stopped

/-- Nobody sleeps through what would serve them. -/
theorem Alert.step (alert : Alert p) (orderly : p.Orderly) (h : p.Steps q) : Alert q := by
  refine ⟨fun c mem asleep => ?_, fun c mem shutdown returned => ?_⟩
  · cases h with
    | submit body cancelled =>
      cases closed : p.closed with
      | true =>
        rw [submit_of_closed closed] at mem ⊢
        exact alert.asleep c mem asleep
      | false =>
        rw [submit_serial closed orderly.serial] at mem
        exact absurd asleep (not_asleep_woken mem)
    | close | stop | release => exact absurd asleep (not_asleep_woken mem)
    | flush =>
      rcases List.mem_append.mp mem with mem | new
      · exact alert.asleep c mem asleep
      · cases List.mem_singleton.mp new
        cases asleep
    | shutdown =>
      rcases List.mem_append.mp mem with mem | new
      · exact absurd asleep (not_asleep_woken mem)
      · cases List.mem_singleton.mp new
        cases asleep
    | serve there =>
      rcases List.mem_or_eq_of_mem_set mem with mem | rfl
      · exact alert.asleep c mem asleep
      · cases asleep
    | rest there _ unserved =>
      rcases List.mem_or_eq_of_mem_set mem with mem | rfl
      · exact alert.asleep c mem asleep
      · exact unserved
    -- taking a task only takes away what a caller waits for to be there: it is not served now
    -- either
    | take _ awake queue there waiting =>
      have unserved := alert.asleep c mem asleep
      have orderly' := orderly.take awake queue there waiting
      cases errand : c.errand with
      | flush =>
        rw [orderly'.serves_flush]
        exact Bool.and_false _
      | shutdown =>
        rw [errand, orderly.serves_shutdown] at unserved
        rw [orderly'.serves_shutdown]
        exact unserved
    | inner | enter | doze => exact alert.asleep c mem asleep
    | occupy bounded | park bounded | withdraw bounded | vacate bounded | hand bounded
    | depart bounded =>
      rw [orderly.serial] at bounded
      cases bounded
  · obtain ⟨b, there, errand, -, back⟩ | ⟨-, awake, -⟩ | ⟨b, there, errand, -, served⟩ :=
      h.callers_cases mem
    · exact h.stopped (alert.stopped b there (errand.symm.trans shutdown) (back returned))
    · rw [awake] at returned
      cases returned
    · rw [← errand, shutdown, orderly.serves_shutdown] at served
      exact h.stopped served

/-! ### Runs -/

/-- All that holds of a serial pool between any two steps. -/
structure Regular (p : Pool α) : Prop where
  sound : p.Sound
  orderly : p.Orderly
  honest : p.Honest
  alert : Alert p

/-- Every step keeps a serial pool in order. -/
theorem Regular.step (regular : p.Regular) (h : p.Steps q) : q.Regular where
  sound := regular.sound.step h
  orderly := regular.orderly.step h
  honest := regular.honest.step regular.sound (regular.orderly.serves regular.sound) h
  alert := regular.alert.step regular.orderly h

/-- A serial pool is in order, whatever was done with it. -/
theorem regular_run (actions : List (Action α)) : (run .serial actions).Regular :=
  after_induction ⟨sound_empty _, orderly_empty, honest_empty _, alert_empty _⟩ Regular.step actions

/-- Whatever callers and worker of a serial pool do, and in whatever order: the accepted tasks are
those that were taken, in the order of their submission, and then those that are queued; at most one
is going on, the last one that was taken; the worker stops, and callers come back, only when all is
done that was to be done; closing the pool takes nothing from those tasks that were accepted, so
that they run unless someone ends their contexts; and the pool comes to rest only with all tasks
finished and nobody asleep, or in a body that does not end. -/
theorem serial_fifo (actions more : List (Action α)) :
    let p : Pool α := run .serial actions
    let q := p.after more
    (p.accepted = p.taken ++ p.queue ∧ p.accepted.Pairwise (· < ·) ∧
      p.accepted <+: q.accepted ∧ p.taken <+: q.taken) ∧
    (∀ i phase, p.phase? i = some phase → phase.isGoing = true →
      p.active = true ∧ p.taken.getLast? = some i) ∧
    (p.stopped = true → p.closed = true ∧ p.queue = [] ∧ ∀ i ∈ p.accepted, p.Finished i) ∧
    (∀ c ∈ p.callers, c.state = .returned →
      (∀ i < c.since, p.Finished i) ∧ (c.errand = .shutdown → p.stopped = true)) ∧
    (∀ i ∈ p.accepted, (∃ t, p.task? i = some t ∧ t.cancelled? = none) →
      (∀ a ∈ more, ¬ a.EndsContext i) → q.Finished i → i ∈ q.ran) ∧
    (p.AtRest → (∀ i t, p.task? i = some t → ¬ t.Held) →
      (∀ i ∈ p.accepted, p.Finished i) ∧
        ∀ c ∈ p.callers, c.state ≠ .asleep ∧ p.serves c.errand = true) := by
  intro p q
  -- the invariants of the pool, of which every part is one property
  obtain ⟨sound, orderly, honest, alert⟩ : p.Regular := regular_run actions
  obtain ⟨accepted, taken⟩ := prefixes_after p more
  refine ⟨⟨orderly.order, List.pairwise_lt_range.filter _, accepted, taken⟩,
    fun i phase here going => ?_,
    fun stopped => ?_, fun c mem returned => ?_, fun i mem ⟨t, there, fresh⟩ others finished => ?_,
    fun rest ends => ?_⟩
  · exact orderly.active_of_isGoing here going
  · obtain ⟨closed, queue⟩ := orderly.done (orderly.stopped.mp stopped)
    have served : p.serves .shutdown = true := by rw [orderly.serves_shutdown, stopped]
    have finished := orderly.serves sound .shutdown served
    exact ⟨closed, queue, fun i mem => finished i (lt_length_of_mem_accepted mem)⟩
  · exact ⟨honest.flush c mem returned, fun shutdown => alert.stopped c mem shutdown returned⟩
  · have waits := (waits_of_mem_accepted mem there fresh).after sound others
    exact waits.mem_ran (sound.after more) finished
  · obtain ⟨queue, inactive, stopped⟩ := orderly.atRest sound rest ends
    have finished := orderly.finished sound queue inactive
    refine ⟨fun i mem => finished i (lt_length_of_mem_accepted mem), fun c mem => ?_⟩
    have served : p.serves c.errand = true := by
      cases errand : c.errand with
      | flush => rw [orderly.serves_flush, queue, inactive]; rfl
      | shutdown => rw [orderly.serves_shutdown, stopped (honest.closed c mem errand)]
    refine ⟨fun asleep => ?_, served⟩
    rw [alert.asleep c mem asleep] at served
    cases served

/-- All that the worker does with a task whose body ends at once. -/
def serve (i : Nat) : List (Action Unit) :=
  [.take i, .start i, .enter i, .conclude i, .finish i, .leave i]

/-- One task is run, and another one is queued. -/
def oneQueued : List (Action Unit) :=
  [.submit (.gives ()) false, .submit (.gives ()) false] ++ serve 0

/-- The pool is closed, and the worker goes on. -/
def closing : List (Action Unit) := [.shutdown] ++ serve 1 ++ [.stop, .look 0]

/-- A task that is queued when the pool is closed still runs. -/
theorem serial_fifo_closing :
    (run .serial oneQueued).queue = [1] ∧ 1 ∈ ((run .serial oneQueued).after closing).ran := by
  refine ⟨by decide +kernel, ?_⟩
  have fresh : ((run .serial oneQueued).task? 1).map (·.cancelled?) = some none := by decide +kernel
  have ended : (((run .serial oneQueued).after closing).task? 1).map (·.status) =
      some .succeeded := by decide +kernel
  obtain ⟨t, there, going⟩ := Option.map_eq_some_iff.mp fresh
  obtain ⟨u, there', succeeded⟩ := Option.map_eq_some_iff.mp ended
  refine (serial_fifo oneQueued closing).2.2.2.2.1 1 (by decide +kernel) ⟨t, there, going⟩ ?_
    ⟨u, there', ?_⟩
  · simp [closing, serve, Action.EndsContext]
  · rw [succeeded]
    rfl

end Lox.Pool
