import Lox.Proofs.Pool.Callers

/-!
Contexts. An action does to a single task what it is for and nothing else. So before a task is
finished its context is over only if someone ended it: nothing that callers or workers do otherwise
ends the context of a task, and closing the pool does not.
-/

namespace Lox.Pool

variable {α : Type} {p q : Pool α} {i j : Nat} {t u : Task α}

/-! ### Actions and single tasks -/

/-- What an action makes of the task with the number. -/
inductive Action.Makes (i : Nat) (t : Task α) : Action α → Task α → Prop where
  | same {a : Action α} : Makes i t a t
  | cancel : Makes i t (.cancel i) (t.cancel .cancelled)
  | expire : Makes i t (.expire i) (t.cancel .expired)
  | release : Makes i t (.release i) { t with released := true }
  | tell {ending : Ending α} : Makes i t (.tell i ending) (t.tell ending)
  | take : t.phase = .waiting → Makes i t (.take i) { t with phase := .taken }
  | park : t.phase = .waiting → Makes i t (.park i) { t with phase := .parked }
  | withdraw {why : Cancellation} : t.phase = .waiting →
      Makes i t (.withdraw i) (t.withdraw why)
  | start : t.phase = .taken → Makes i t (.start i) { t.markStarted with phase := .started }
  | enter : t.phase = .started → Makes i t (.enter i) { t with phase := .inBody }
  | skip {why : Cancellation} : t.phase = .started →
      Makes i t (.skip i) { t with phase := .returned, result? := some (.error why.error) }
  | conclude {ending : Ending α} : t.phase = .inBody →
      Makes i t (.conclude i) { t with phase := .returned, result? := some ending.result }
  | finish {result : Except TaskError α} : t.phase = .returned →
      Makes i t (.finish i) { t.finish result with phase := .finished }
  | giveUp {result : Except TaskError α} : t.phase = .withdrawn →
      Makes i t (.finish i) { t.finish result with phase := .leaving }
  | leave {new : Phase} : t.phase = .finished → Makes i t (.leave i) { t with phase := new }
  | give {j : Nat} : t.phase = .finished → Makes i t (.hand i j) { t with phase := .leaving }
  | receive {j : Nat} : t.phase = .parked → Makes i t (.hand j i) { t with phase := .taken }
  | depart : t.phase = .leaving → Makes i t (.depart i) { t with phase := .gone }

section Makes

variable {a : Action α}

/-- A step that changes no task makes nothing of it. -/
theorem makes_same (same : q.tasks = p.tasks) (there : p.task? i = some t) :
    ∃ u, q.task? i = some u ∧ a.Makes i t u :=
  ⟨t, by rwa [task?, same], .same⟩

/-- What an action makes of one task says what it makes of all. -/
theorem makes_set {t' u' : Task α} (here : p.task? j = some t')
    (tasks : q.tasks = p.tasks.set j u') (makes : a.Makes j t' u') (there : p.task? i = some t) :
    ∃ u, q.task? i = some u ∧ a.Makes i t u := by
  unfold task? at here there ⊢
  rw [tasks]
  by_cases same : j = i
  · subst same
    cases there.symm.trans here
    exact ⟨u', List.getElem?_set_self (List.getElem?_eq_some_iff.mp here).1, makes⟩
  · exact ⟨t, (List.getElem?_set_ne same).trans there, .same⟩

/-! What the workers' actions ask of the task, and what they make of it. -/

/-- Only a task that waits is taken. -/
theorem exists_of_take? (h : p.take? i = some q) : ∃ t, p.task? i = some t ∧
    t.phase = .waiting ∧ q.tasks = p.tasks.set i { t with phase := .taken } := by
  unfold take? at h
  split at h
  all_goals
    split at h
    · obtain ⟨t, u, there, moved, rfl⟩ := alter_eq_some_iff.mp h
      obtain ⟨waiting, rfl⟩ := Task.move?_eq_some_iff.mp moved
      exact ⟨t, there, waiting, rfl⟩
    · cases h

/-- Only a task that waits is parked. -/
theorem exists_of_park? (h : p.park? i = some q) : ∃ t, p.task? i = some t ∧
    t.phase = .waiting ∧ q.tasks = p.tasks.set i { t with phase := .parked } := by
  unfold park? at h
  split at h
  · cases h
  · split at h
    · obtain ⟨t, u, there, changed, rfl⟩ := alter_eq_some_iff.mp h
      split at changed
      · obtain ⟨waiting, rfl⟩ := Task.move?_eq_some_iff.mp changed
        exact ⟨t, there, waiting, rfl⟩
      · cases changed
    · cases h

/-- Only a task that waits is withdrawn, and for a reason. -/
theorem exists_of_withdraw? (h : p.withdraw? i = some q) : ∃ t why, p.task? i = some t ∧
    t.phase = .waiting ∧ q.tasks = p.tasks.set i (t.withdraw why) := by
  unfold withdraw? at h
  split at h
  · cases h
  · obtain ⟨t, u, there, changed, rfl⟩ := alter_eq_some_iff.mp h
    split at changed
    · next waiting =>
      obtain ⟨why, -, rfl⟩ := Option.map_eq_some_iff.mp changed
      exact ⟨t, why, there, waiting, rfl⟩
    · cases changed

/-- Only a task that is finished leaves. -/
theorem exists_of_leave? (h : p.leave? i = some q) : ∃ t new, p.task? i = some t ∧
    t.phase = .finished ∧ q.tasks = p.tasks.set i { t with phase := new } := by
  have moved {r : Pool α} {new : Phase} (h : r.alter i (Task.move? .finished new) = some q)
      (same : r.tasks = p.tasks) : ∃ t new, p.task? i = some t ∧ t.phase = .finished ∧
        q.tasks = p.tasks.set i { t with phase := new } := by
    obtain ⟨t, u, there, moved, rfl⟩ := alter_eq_some_iff.mp h
    obtain ⟨finished, rfl⟩ := Task.move?_eq_some_iff.mp moved
    exact ⟨t, new, by rwa [task?, ← same], finished, by rw [← same]; rfl⟩
  unfold leave? at h
  split at h
  · exact moved h rfl
  · split at h
    · exact moved h rfl
    · cases h

/-- Only a task on its way out is gone. -/
theorem exists_of_depart? (h : p.depart? i = some q) : ∃ t, p.task? i = some t ∧
    t.phase = .leaving ∧ q.tasks = p.tasks.set i { t with phase := .gone } := by
  unfold depart? at h
  split at h
  · cases h
  · obtain ⟨t, u, there, moved, rfl⟩ := alter_eq_some_iff.mp h
    obtain ⟨leaving, rfl⟩ := Task.move?_eq_some_iff.mp moved
    exact ⟨t, there, leaving, rfl⟩

/-- A slot that is handed on goes to a task that was parked. -/
theorem makes_hand? {k : Nat} (h : p.hand? j k = some q) (there : p.task? i = some t) :
    ∃ u, q.task? i = some u ∧ Action.Makes i t (.hand j k) u := by
  obtain ⟨limit, positive, v, w, -, ⟨first, finished⟩, ⟨second, parked⟩, rfl⟩ := exists_of_hand? h
  have apart : j ≠ k := ne_of_phase_ne first second (by rw [finished, parked]; decide)
  have second' := (task?_setTask_of_ne (u := { v with phase := .leaving }) apart).trans second
  by_cases giver : j = i
  · subst giver
    cases there.symm.trans first
    exact ⟨_, (task?_setTask_of_ne apart.symm).trans (task?_setTask_self first), .give finished⟩
  by_cases taker : k = i
  · subst taker
    cases there.symm.trans second
    exact ⟨_, task?_setTask_self second', .receive parked⟩
  · exact ⟨t, (task?_setTask_of_ne taker).trans ((task?_setTask_of_ne giver).trans there), .same⟩

/-- An action does nothing to a task but what it is for. -/
theorem makes_of_step? (h : p.step? a = some q) (there : p.task? i = some t) :
    ∃ u, q.task? i = some u ∧ a.Makes i t u := by
  cases a with
  | submit body cancelled =>
    cases h
    exact ⟨t, task?_submit there, .same⟩
  | close | flush | shutdown =>
    cases h
    exact makes_same rfl there
  | look k =>
    -- a caller that looks leaves all tasks as they are
    obtain ⟨c, -, looked⟩ := Option.bind_eq_some_iff.mp h
    refine makes_same ?_ there
    dsimp only at looked
    grind
  | doze | stop =>
    change (if _ then _ else _) = _ at h
    split at h
    · cases h
      exact makes_same rfl there
    · cases h
  | cancel j =>
    obtain ⟨t', u', here, ⟨⟩, rfl⟩ := alter_eq_some_iff.mp h
    exact makes_set here rfl .cancel there
  | expire j =>
    obtain ⟨t', u', here, ⟨⟩, rfl⟩ := alter_eq_some_iff.mp h
    exact makes_set here rfl .expire there
  | release j =>
    obtain ⟨t', u', here, ⟨⟩, rfl⟩ := alter_eq_some_iff.mp h
    exact makes_set here rfl .release there
  | tell j ending =>
    obtain ⟨t', u', here, ⟨⟩, rfl⟩ := alter_eq_some_iff.mp h
    exact makes_set here rfl .tell there
  | start j =>
    obtain ⟨t', u', here, changed, rfl⟩ := alter_eq_some_iff.mp h
    obtain ⟨taken, rfl⟩ := Task.start?_eq_some_iff.mp changed
    exact makes_set here rfl (.start taken) there
  | enter j =>
    obtain ⟨t', u', here, changed, rfl⟩ := alter_eq_some_iff.mp h
    obtain ⟨⟨started, -⟩, rfl⟩ := Task.enter?_eq_some_iff.mp changed
    exact makes_set here rfl (.enter started) there
  | skip j =>
    obtain ⟨t', u', here, changed, rfl⟩ := alter_eq_some_iff.mp h
    obtain ⟨started, why, -, rfl⟩ := Task.skip?_eq_some_iff.mp changed
    exact makes_set here rfl (.skip started) there
  | conclude j =>
    obtain ⟨t', u', here, changed, rfl⟩ := alter_eq_some_iff.mp h
    obtain ⟨inBody, ending, -, rfl⟩ := Task.conclude?_eq_some_iff.mp changed
    exact makes_set here rfl (.conclude inBody) there
  | finish j =>
    obtain ⟨t', u', here, changed, rfl⟩ := alter_eq_some_iff.mp h
    obtain ⟨result, -, ⟨returned, rfl⟩ | ⟨withdrawn, rfl⟩⟩ := Task.finish?_eq_some_iff.mp changed
    · exact makes_set here rfl (.finish returned) there
    · exact makes_set here rfl (.giveUp withdrawn) there
  | take j =>
    obtain ⟨t', here, waiting, tasks⟩ := exists_of_take? h
    exact makes_set here tasks (.take waiting) there
  | park j =>
    obtain ⟨t', here, waiting, tasks⟩ := exists_of_park? h
    exact makes_set here tasks (.park waiting) there
  | withdraw j =>
    obtain ⟨t', why, here, waiting, tasks⟩ := exists_of_withdraw? h
    exact makes_set here tasks (.withdraw waiting) there
  | leave j =>
    obtain ⟨t', new, here, finished, tasks⟩ := exists_of_leave? h
    exact makes_set here tasks (.leave finished) there
  | depart j =>
    obtain ⟨t', here, leaving, tasks⟩ := exists_of_depart? h
    exact makes_set here tasks (.depart leaving) there
  | hand j k => exact makes_hand? h there

end Makes

/-! ### Contexts that are not ended -/

/-- The action ends the context of the task. -/
def Action.EndsContext (a : Action α) (i : Nat) : Prop := a = .cancel i ∨ a = .expire i

/-- An action that does not end the context of a task leaves it as it was, unless the task had its
result already. -/
theorem spares_step? {a : Action α} (h : p.step? a = some q) (other : ¬ a.EndsContext i)
    (there : p.task? i = some t) :
    ∃ u, q.task? i = some u ∧ (u.cancelled? = t.cancelled? ∨ t.phase.hasResult = true) := by
  obtain ⟨u, there', makes⟩ := makes_of_step? h there
  refine ⟨u, there', ?_⟩
  cases makes with
  | cancel => exact absurd (.inl rfl) other
  | expire => exact absurd (.inr rfl) other
  | finish returned => exact .inr (by rw [returned]; rfl)
  | giveUp withdrawn => exact .inr (by rw [withdrawn]; rfl)
  | _ => exact .inl rfl

/-- The task was accepted, and its context is not over unless its body was entered. -/
def Waits (p : Pool α) (i : Nat) : Prop :=
  ∃ t, p.task? i = some t ∧ t.phase ≠ .refused ∧ (t.cancelled? = none ∨ i ∈ p.ran)

/-- A task that is accepted waits, if its context is not over from the first. -/
theorem waits_of_mem_accepted (mem : i ∈ p.accepted) (there : p.task? i = some t)
    (fresh : t.cancelled? = none) : p.Waits i := by
  obtain ⟨phase, here, accepted⟩ := mem_accepted.mp mem
  cases (phase?_of_task? there).symm.trans here
  exact ⟨t, there, accepted, .inl fresh⟩

/-- A task waits on unless somebody ends its context. -/
theorem Waits.step {a : Action α} (waits : p.Waits i) (sound : p.Sound) (step : p.step? a = some q)
    (other : ¬ a.EndsContext i) : q.Waits i := by
  have h : p.Steps q := steps_of_step? step
  obtain ⟨t, there, accepted, fresh⟩ := waits
  obtain ⟨u, there', spared⟩ := spares_step? step other there
  obtain ⟨u', there'', changes⟩ := h.changes there
  cases there'.symm.trans there''
  refine ⟨u, there', accepted ∘ changes.refused_iff.mp, ?_⟩
  by_cases ran : i ∈ p.ran
  · exact .inr (h.ran_prefix.subset ran)
  · have going : t.cancelled? = none := fresh.resolve_right ran
    left
    rcases spared with same | known
    · rw [same, going]
    · -- Without the body the result would be the end of the context.
      obtain ⟨why, ended, -⟩ := ((sound.unentered there ran).result known).resolve_left accepted
      rw [going] at ended
      cases ended

/-- A task waits on as long as nobody ends its context. -/
theorem Waits.after (waits : p.Waits i) (sound : p.Sound) {more : List (Action α)}
    (others : ∀ a ∈ more, ¬ a.EndsContext i) : (p.after more).Waits i := by
  induction more generalizing p with
  | nil => exact waits
  | cons a rest ih =>
    obtain ⟨other, others⟩ := List.forall_mem_cons.mp others
    change ((p.act a).after rest).Waits i
    unfold act
    cases step : p.step? a with
    | none => exact ih waits sound others
    | some q => exact ih (waits.step sound step other) (sound.step (steps_of_step? step)) others

/-- If nobody ends the context of a task, the task is not finished without its body. -/
theorem Waits.mem_ran (waits : p.Waits i) (sound : p.Sound) (finished : p.Finished i) :
    i ∈ p.ran := by
  obtain ⟨t, there, accepted, fresh⟩ := waits
  refine fresh.elim (fun going => Decidable.byContradiction fun unran => ?_) id
  obtain ⟨phase, here, ended⟩ := sound.finished_iff.mp finished
  rw [phase?_of_task? there, Option.some_inj] at here
  subst here
  have known := Phase.hasResult_of_isOver ended
  obtain ⟨why, ended, -⟩ := ((sound.unentered there unran).result known).resolve_left accepted
  rw [going] at ended
  cases ended

/-! ### Contexts that are over -/

/-- The task is finished with the end of its context for its error, if it is finished. -/
def Skipped (p : Pool α) (i : Nat) : Prop :=
  ∀ t, p.task? i = some t → t.status.isFinal = true →
    t.status = .cancelled ∧ ∃ why : Cancellation, t.error? = some why.error

/-- A task that is accepted and was never run was skipped. -/
theorem Sound.skipped (sound : p.Sound) (accepted : i ∈ p.accepted) (unrun : i ∉ p.ran) :
    p.Skipped i := by
  intro t there final
  have ended : t.phase.isOver = true := (sound.tasks there).isFinal_iff ▸ final
  obtain ⟨phase, here, kept⟩ := mem_accepted.mp accepted
  cases (phase?_of_task? there).symm.trans here
  obtain ⟨result, shows⟩ := (sound.tasks there).ended ended
  obtain ⟨why, -, given⟩ :=
    ((sound.unentered there unrun).result (Phase.hasResult_of_isOver ended)).resolve_left kept
  cases shows.given.symm.trans given
  refine ⟨?_, why, shows.error⟩
  rw [shows.status]
  exact statusOf_eq_cancelled_iff.mpr ⟨why.error, rfl, isCancellation_error why⟩

/-- Once the context is over it stays so, and the body is not entered any more. -/
theorem cancelled?_after {why : Cancellation} (there : p.task? i = some t)
    (ended : t.cancelled? = some why) (unrun : i ∉ p.ran) (more : List (Action α)) :
    i ∉ (p.after more).ran ∧ ∃ u, (p.after more).task? i = some u ∧ u.cancelled? = some why := by
  refine after_induction
    (P := fun q => i ∉ q.ran ∧ ∃ u, q.task? i = some u ∧ u.cancelled? = some why)
    ⟨unrun, t, there, ended⟩ ?_ more
  rintro q r ⟨unrun, u, there, ended⟩ h
  obtain ⟨v, there', changes⟩ := h.changes there
  refine ⟨?_, v, there', changes.cancelled? ended⟩
  obtain ⟨same, -⟩ | ⟨k, w, there'', -, going, rfl⟩ := h.ran_cases
  · rwa [same]
  · intro mem
    rcases List.mem_append.mp mem with old | new
    · exact unrun old
    · cases List.mem_singleton.mp new
      cases there.symm.trans there''
      rw [ended] at going
      cases going

end Lox.Pool
