import Lox.Proofs.Pool.Context
import Lox.Proofs.Pool.Rest

/-!
The bounded pool keeps to its limit, and every slot that is taken is given back once. Slots are
counted by the tasks that are going on; tasks are counted until they are gone, so that who waits for
the count to be zero waits for all of them.
-/

namespace Lox.Pool

variable {α : Type} {p q : Pool α} {i j limit : Nat} {t u : Task α}

/-- One for a task that has a slot. -/
def Phase.slot (phase : Phase) : Nat := if phase.isGoing then 1 else 0

/-- One for a task that is not gone. -/
def Phase.count : Phase → Nat
  | gone | refused => 0
  | waiting | parked | withdrawn | taken | started | inBody | returned | finished | leaving => 1

/-- The counts and lists of a bounded pool are true. -/
structure Measured (p : Pool α) (limit : Nat) : Prop where
  discipline : ∃ positive, p.discipline = .bounded limit positive
  slots : p.slots = p.total Phase.slot
  pending : p.pending = p.total Phase.count
  within : p.slots ≤ limit
  onceTaken : p.taken.Nodup
  onceLeft : p.left.Nodup
  length : p.taken.length = p.left.length + p.slots
  going : ∀ {i phase}, p.phase? i = some phase → phase.isGoing = true → i ∈ p.taken
  taken : ∀ i ∈ p.taken, ∃ phase, p.phase? i = some phase ∧
    (phase.isGoing = true ∨ i ∈ p.left ∧ phase.hasLeft = true)
  left : ∀ i ∈ p.left, i ∈ p.taken ∧ ∃ phase, p.phase? i = some phase ∧ phase.hasLeft = true

/-- An empty pool has all its slots. -/
theorem measured_empty (positive : 0 < limit) :
    Measured ({ discipline := .bounded limit positive } : Pool α) limit where
  discipline := ⟨positive, rfl⟩
  slots := rfl
  pending := rfl
  within := Nat.zero_le _
  onceTaken := .nil
  onceLeft := .nil
  length := rfl
  going := nofun
  taken := nofun
  left := nofun

namespace Measured

/-- A task comes to another phase without taking a slot or giving one back. -/
theorem shift (measured : p.Measured limit) (there : p.task? i = some t)
    (tasks : q.tasks = p.tasks.set i u) (going' : u.phase.isGoing = t.phase.isGoing)
    (left : t.phase.hasLeft = true → u.phase.hasLeft = true)
    (discipline : q.discipline = p.discipline) (slots : q.slots = p.slots)
    (pending : q.pending + t.phase.count = p.pending + u.phase.count)
    (same : q.taken = p.taken ∧ q.left = p.left) : q.Measured limit := by
  -- the task keeps its place or stays without one, so nobody's place changes
  have kept {j : Nat} {phase : Phase} (here : p.phase? j = some phase) :
      ∃ new, q.phase? j = some new ∧ new.isGoing = phase.isGoing ∧
        (phase.hasLeft = true → new.hasLeft = true) := by
    rw [phase?_set there tasks]
    split
    · next same =>
      subst same
      rw [phase?_of_task? there] at here
      cases here
      exact ⟨u.phase, rfl, going', left⟩
    · exact ⟨phase, here, rfl, id⟩
  have slot := total_set Phase.slot there tasks
  have count := total_set Phase.count there tasks
  have same' : u.phase.slot = t.phase.slot := by rw [Phase.slot, going', Phase.slot]
  obtain ⟨takenSame, leftSame⟩ := same
  exact {
    discipline := discipline ▸ measured.discipline
    slots := by have := measured.slots; omega
    pending := by have := measured.pending; omega
    within := slots ▸ measured.within
    onceTaken := takenSame ▸ measured.onceTaken
    onceLeft := leftSame ▸ measured.onceLeft
    length := by rw [takenSame, leftSame, slots, measured.length]
    going := fun {j phase} here going => by
      rw [takenSame]
      rw [phase?_set there tasks] at here
      split at here
      · next same =>
        cases here
        exact same ▸ measured.going (phase?_of_task? there) (going'.symm.trans going)
      · exact measured.going here going
    taken := fun j mem => by
      rw [takenSame] at mem
      obtain ⟨phase, here, fate⟩ := measured.taken j mem
      obtain ⟨new, here', going, left⟩ := kept here
      rw [leftSame]
      exact ⟨new, here', fate.imp going.trans (And.imp_right left)⟩
    left := fun j mem => by
      rw [leftSame] at mem
      obtain ⟨taken, phase, here, gone⟩ := measured.left j mem
      obtain ⟨new, here', -, left⟩ := kept here
      exact ⟨takenSame ▸ taken, new, here', left gone⟩ }

/-- A task takes a free slot. -/
theorem acquire (measured : p.Measured limit) (there : p.task? i = some t)
    (outside : t.phase = .waiting ∨ t.phase = .parked)
    (tasks : q.tasks = p.tasks.set i { t with phase := .taken }) (room : p.slots < limit)
    (discipline : q.discipline = p.discipline) (slots : q.slots = p.slots + 1)
    (pending : q.pending = p.pending) (taken : q.taken = p.taken ++ [i]) (left : q.left = p.left) :
    q.Measured limit := by
  have here : p.phase? i = some t.phase := phase?_of_task? there
  have self : q.phase? i = some .taken := phase?_set_self there tasks rfl
  have others {j : Nat} (other : i ≠ j) : q.phase? j = p.phase? j := phase?_set_of_ne tasks other
  have going : t.phase.isGoing = false := by rcases outside with h | h <;> rw [h] <;> rfl
  have staying : t.phase.hasLeft = false := by rcases outside with h | h <;> rw [h] <;> rfl
  -- a task that waits has neither taken a place nor left one, so this is its first
  have new : i ∉ p.taken := fun mem => by
    obtain ⟨phase, here', fate⟩ := measured.taken i mem
    cases here.symm.trans here'
    rw [going, staying] at fate
    simp at fate
  have ne_of_mem {j : Nat} (mem : j ∈ p.taken) : i ≠ j := fun same => new (same ▸ mem)
  have slot := total_set Phase.slot there tasks
  have count := total_set Phase.count there tasks
  -- the only change to both sums is at the task itself
  have before : t.phase.slot = 0 := by rw [Phase.slot, going]; rfl
  have counted : t.phase.count = 1 := by rcases outside with h | h <;> rw [h] <;> rfl
  exact {
    discipline := discipline ▸ measured.discipline
    slots := by
      have := measured.slots
      change _ = _ + 1 at slot
      omega
    pending := by
      have := measured.pending
      change _ = _ + 1 at count
      omega
    within := by omega
    onceTaken := taken ▸ nodup_concat measured.onceTaken new
    onceLeft := left ▸ measured.onceLeft
    length := by
      have := measured.length
      rw [taken, left, slots, List.length_append, List.length_singleton]
      omega
    going := fun {j phase} here' going => by
      rw [taken, List.mem_append, List.mem_singleton]
      by_cases same : i = j
      · exact .inr same.symm
      · exact .inl (measured.going ((others same).symm.trans here') going)
    taken := fun j mem => by
      rw [taken, List.mem_append, List.mem_singleton] at mem
      rw [left]
      rcases mem with mem | rfl
      · rw [others (ne_of_mem mem)]
        exact measured.taken j mem
      · exact ⟨.taken, self, .inl rfl⟩
    left := fun j mem => by
      rw [left] at mem
      obtain ⟨old, fate⟩ := measured.left j mem
      rw [taken, others (ne_of_mem old)]
      exact ⟨List.mem_append_left _ old, fate⟩ }

/-- A task gives its slot back. -/
theorem giveBack (measured : p.Measured limit) (there : p.task? i = some t)
    (finished : t.phase = .finished) (tasks : q.tasks = p.tasks.set i { t with phase := .leaving })
    (discipline : q.discipline = p.discipline) (slots : q.slots = p.slots - 1)
    (pending : q.pending = p.pending) (taken : q.taken = p.taken) (left : q.left = p.left ++ [i]) :
    q.Measured limit := by
  have here : p.phase? i = some .finished := finished ▸ phase?_of_task? there
  have self : q.phase? i = some .leaving := phase?_set_self there tasks rfl
  have others {j : Nat} (other : i ≠ j) : q.phase? j = p.phase? j := phase?_set_of_ne tasks other
  have mine : i ∈ p.taken := measured.going here rfl
  -- the place was not given back before: the task that did would have gone on
  have new : i ∉ p.left := fun mem => by
    obtain ⟨-, phase, here', gone⟩ := measured.left i mem
    cases here.symm.trans here'
    cases gone
  have slot := total_set Phase.slot there tasks
  have count := total_set Phase.count there tasks
  rw [finished] at slot count
  change _ + 1 = _ + 0 at slot
  change _ + 1 = _ + 1 at count
  have := measured.slots
  exact {
    discipline := discipline ▸ measured.discipline
    slots := by omega
    pending := by
      have := measured.pending
      omega
    within := by
      have := measured.within
      omega
    onceTaken := taken ▸ measured.onceTaken
    onceLeft := left ▸ nodup_concat measured.onceLeft new
    length := by
      have := measured.length
      rw [taken, left, slots, List.length_append, List.length_singleton]
      omega
    going := fun {j phase} here' going => by
      rw [taken]
      by_cases same : i = j
      · exact same ▸ mine
      · exact measured.going ((others same).symm.trans here') going
    taken := fun j mem => by
      rw [taken] at mem
      rw [left]
      by_cases same : i = j
      · subst same
        exact ⟨.leaving, self, .inr ⟨List.mem_append_right _ List.mem_cons_self, rfl⟩⟩
      · obtain ⟨phase, here', fate⟩ := measured.taken j mem
        refine ⟨phase, (others same).trans here', fate.imp_right ?_⟩
        exact And.imp_left (List.mem_append_left _)
    left := fun j mem => by
      rw [left, List.mem_append, List.mem_singleton] at mem
      rw [taken]
      by_cases same : i = j
      · subst same
        exact ⟨mine, .leaving, self, rfl⟩
      · rw [others same]
        exact measured.left j (mem.resolve_right (Ne.symm same)) }

/-- A task that is going holds a slot. -/
theorem slots_pos (measured : p.Measured limit) (there : p.task? i = some t)
    (going : t.phase.isGoing = true) : 0 < p.slots := by
  have := le_total Phase.slot there
  rw [Phase.slot, if_pos going] at this
  rw [measured.slots]
  exact this

/-- A task that counts is pending. -/
theorem pending_pos (measured : p.Measured limit) (there : p.task? i = some t)
    (counted : t.phase.count = 1) : 0 < p.pending := by
  have := le_total Phase.count there
  rw [counted] at this
  rw [measured.pending]
  exact this

/-- Nothing that is counted is different. -/
theorem of_same (measured : p.Measured limit) (tasks : q.tasks = p.tasks)
    (discipline : q.discipline = p.discipline) (slots : q.slots = p.slots)
    (pending : q.pending = p.pending) (taken : q.taken = p.taken) (left : q.left = p.left) :
    q.Measured limit := by
  have phases : q.phase? = p.phase? := by
    funext i
    rw [phase?, task?, tasks]
    rfl
  have total (weight : Phase → Nat) : q.total weight = p.total weight := by
    rw [Pool.total, tasks, Pool.total]
  obtain ⟨h₁, h₂, h₃, h₄, h₅, h₆, h₇, h₈, h₉, h₁₀⟩ := measured
  constructor
  all_goals simp only [phases, total, discipline, slots, pending, taken, left]
  all_goals assumption

/-- A task that is submitted is pending and holds no slot. -/
theorem submit (measured : p.Measured limit) (body : Body α) (cancelled : Bool) :
    (p.submit body cancelled).Measured limit := by
  obtain ⟨positive, discipline⟩ := measured.discipline
  -- the new task has the next number, so the phases of the others stand
  have old {j : Nat} {phase : Phase} (here : p.phase? j = some phase) :
      (p.submit body cancelled).phase? j = some phase := by
    rw [phase?_submit, if_neg (Nat.ne_of_lt (lt_length_of_phase? here)), here]
  have going {j : Nat} {phase : Phase} (here : (p.submit body cancelled).phase? j = some phase)
      (going : phase.isGoing = true) : j ∈ p.taken := by
    rw [phase?_submit] at here
    split at here
    · cases here
      split at going <;> cases going
    · exact measured.going here going
  have slot := total_submit Phase.slot p body cancelled
  have count := total_submit Phase.count p body cancelled
  have taken (i : Nat) (mem : i ∈ p.taken) :
      ∃ phase, (p.submit body cancelled).phase? i = some phase ∧
        (phase.isGoing = true ∨ i ∈ p.left ∧ phase.hasLeft = true) := by
    obtain ⟨phase, here, fate⟩ := measured.taken i mem
    exact ⟨phase, old here, fate⟩
  have left (i : Nat) (mem : i ∈ p.left) : i ∈ p.taken ∧
      ∃ phase, (p.submit body cancelled).phase? i = some phase ∧ phase.hasLeft = true := by
    obtain ⟨taken, phase, here, gone⟩ := measured.left i mem
    exact ⟨taken, phase, old here, gone⟩
  cases closed : p.closed with
  | true =>
    rw [closed] at slot count
    rw [submit_of_closed closed] at *
    exact { measured with
      slots := measured.slots.trans slot.symm
      pending := measured.pending.trans count.symm
      going, taken, left }
  | false =>
    rw [closed] at slot count
    rw [submit_bounded closed discipline] at *
    exact { measured with
      slots := measured.slots.trans slot.symm
      pending := (congrArg (· + 1) measured.pending).trans count.symm
      going, taken, left }

theorem count_of_isGoing {phase : Phase} (going : phase.isGoing = true) : phase.count = 1 := by
  cases phase <;> first | rfl | cases going

/-- What goes on inside a body takes no slot and gives none back. -/
theorem inner (measured : p.Measured limit) (there : p.task? i = some t) (h : t.Inner u) :
    (p.setTask i u).Measured limit := by
  obtain ⟨going, left, count⟩ : u.phase.isGoing = t.phase.isGoing ∧
      (t.phase.hasLeft = true → u.phase.hasLeft = true) ∧ u.phase.count = t.phase.count := by
    obtain same | ⟨-, ⟨old, new⟩ | ⟨old, new⟩ | ⟨old, new⟩⟩ := h.phase
    · rw [same]
      exact ⟨rfl, id, rfl⟩
    · refine ⟨new.trans old.symm, fun left => ?_, ?_⟩
      · cases phase : t.phase <;> rw [phase] at old left <;> cases old <;> cases left
      · rw [count_of_isGoing old, count_of_isGoing new]
    all_goals
      rw [old, new]
      exact ⟨rfl, nofun, rfl⟩
  exact measured.shift there rfl going left rfl rfl (congrArg (p.pending + ·) count.symm) ⟨rfl, rfl⟩

/-- Every step keeps the slots and the pending tasks counted. -/
theorem step (measured : p.Measured limit) (h : p.Steps q) : q.Measured limit := by
  obtain ⟨positive, discipline⟩ := measured.discipline
  cases h with
  | submit body cancelled => exact measured.submit body cancelled
  | inner there h => exact measured.inner there h
  | close | flush | shutdown | serve => exact measured.of_same rfl rfl rfl rfl rfl rfl
  | rest _ _ _ serial | doze serial | stop serial | take serial | release serial =>
    rw [discipline] at serial
    cases serial
  | occupy bounded room there waiting =>
    cases bounded.symm.trans discipline
    exact measured.acquire there (.inl waiting) rfl room rfl rfl rfl rfl rfl
  | park _ _ there _ waiting =>
    exact measured.shift there rfl (by rw [waiting]; rfl) (by rw [waiting]; exact nofun) rfl rfl
      (by rw [waiting]; rfl) ⟨rfl, rfl⟩
  | withdraw _ there waiting =>
    exact measured.shift there rfl (by rw [waiting]; rfl) (by rw [waiting]; exact nofun) rfl rfl
      (by rw [waiting]; rfl) ⟨rfl, rfl⟩
  | enter there started =>
    exact measured.shift there rfl (by rw [started]; rfl) (by rw [started]; exact nofun) rfl rfl
      (by rw [started]; rfl) ⟨rfl, rfl⟩
  | vacate _ _ there finished => exact measured.giveBack there finished rfl rfl rfl rfl rfl rfl
  -- a place handed over is given back and taken: two steps that are known already
  | @hand _ _ i j t u _ there finished there' parked =>
    have apart := ne_of_phase_ne there there' (by rw [finished, parked]; decide)
    have used := measured.slots_pos there (by rw [finished]; rfl)
    have within := measured.within
    have freed := measured.giveBack
      (q := setTask { p with slots := p.slots - 1, left := p.left ++ [i] } i
        { t with phase := .leaving })
      there finished rfl rfl rfl rfl rfl rfl
    refine freed.acquire ((task?_setTask_of_ne apart).trans there') (.inr parked) rfl ?_ rfl ?_ rfl
      rfl rfl
    · change p.slots - 1 < limit
      omega
    · change p.slots = p.slots - 1 + 1
      omega
  | depart _ there leaving =>
    have used := measured.pending_pos there (by rw [leaving]; rfl)
    refine measured.shift there rfl (by rw [leaving]; rfl) (fun _ => rfl) rfl rfl ?_ ⟨rfl, rfl⟩
    rw [leaving]
    change p.pending - 1 + 1 = p.pending + 0
    omega

theorem not_serial (measured : p.Measured limit) : p.discipline ≠ .serial := by
  obtain ⟨positive, discipline⟩ := measured.discipline
  rw [discipline]
  exact nofun

/-- A caller is served when no task is pending. -/
theorem serves_iff (measured : p.Measured limit) (errand : Errand) :
    p.serves errand = true ↔ p.pending = 0 := by
  obtain ⟨positive, discipline⟩ := measured.discipline
  unfold Pool.serves
  rw [discipline]
  exact decide_eq_true_iff

/-- When nothing is counted any more, all tasks are finished. -/
theorem serves (measured : p.Measured limit) (sound : p.Sound) (errand : Errand)
    (served : p.serves errand = true) : ∀ i < p.tasks.length, p.Finished i := by
  intro i small
  rw [measured.serves_iff] at served
  have there : p.task? i = some p.tasks[i] := List.getElem?_eq_getElem small
  refine sound.finished_iff.mpr ⟨_, phase?_of_task? there, ?_⟩
  cases ended : p.tasks[i].phase.isOver with
  | true => rfl
  | false =>
    have counted : p.tasks[i].phase.count = 1 := by
      cases phase : p.tasks[i].phase <;> rw [phase] at ended <;> first | rfl | cases ended
    have := measured.pending_pos there counted
    omega

end Measured

/-- While a task is parked all slots are in use. -/
def Full (p : Pool α) (limit : Nat) : Prop := ∀ i, p.phase? i = some .parked → p.slots = limit

/-- Where all slots are held nobody is served before one is given back. -/
theorem Full.step (full : p.Full limit) (measured : p.Measured limit) (h : p.Steps q) :
    q.Full limit := by
  intro k here
  cases h with
  | submit body cancelled =>
    have old : p.slots = limit := by
      refine full k ?_
      rw [phase?_submit] at here
      split at here
      · split at here <;> cases here
      · exact here
    unfold Pool.submit
    split
    · exact old
    · split <;> exact old
  | close | flush | shutdown | serve => exact full k here
  | rest _ _ _ serial | doze serial | stop serial | take serial | release serial =>
    exact absurd serial measured.not_serial
  | inner there h =>
    refine full k (phase?_of_set there rfl here fun parked => ?_)
    rcases h.phase with same | ⟨next, -⟩
    · exact same.symm.trans parked
    · cases h with
      | cancel why =>
        rcases Task.phase_cancel _ why with same | ⟨parked, -⟩
        · exact same.symm.trans parked
        · exact parked
      | release | tell => exact parked
      | start | skip | conclude | finish | giveUp => cases parked
  -- the one step by which a task begins to wait for a place is only possible when there is none
  | park bounded crowded =>
    obtain ⟨positive, discipline⟩ := measured.discipline
    cases bounded.symm.trans discipline
    exact Nat.le_antisymm measured.within crowded
  | occupy bounded room there =>
    obtain ⟨positive, discipline⟩ := measured.discipline
    cases bounded.symm.trans discipline
    have := full k (phase?_of_set there rfl here nofun)
    omega
  | withdraw _ there | enter there | depart _ there =>
    exact full k (phase?_of_set there rfl here nofun)
  -- a place is given back only when nobody waits for it
  | vacate _ unparked there =>
    obtain ⟨t, there', parked⟩ := Option.map_eq_some_iff.mp (phase?_of_set there rfl here nofun)
    exact absurd parked (unparked t (List.mem_of_getElem? there'))
  | hand _ there finished there' parked =>
    have apart := ne_of_phase_ne there there' (by rw [finished, parked]; decide)
    rw [phase?_set_set there there' apart rfl] at here
    refine full k ?_
    grind

/-! ### Rest -/

namespace Measured

/-- At rest a task that goes on is held. -/
theorem held_atRest (measured : p.Measured limit) (sound : p.Sound) (rest : p.AtRest)
    (there : p.task? i = some t) (going : t.phase.isGoing = true) : t.Held := by
  obtain ⟨positive, discipline⟩ := measured.discipline
  obtain waiting | parked | finished | held | ⟨-, still⟩ := rest.phase sound there
  · rw [waiting] at going
    cases going
  · rw [parked] at going
    cases going
  · exfalso
    -- a task that has finished could leave, or could hand its place on, so it is not at rest
    by_cases unparked : p.tasks.all (·.phase ≠ .parked) = true
    · have step : p.step? (.leave i) =
          ({ p with slots := p.slots - 1, left := p.left ++ [i] } : Pool α).alter i
            (Task.move? .finished .leaving) := by
        change p.leave? i = _
        unfold leave?
        rw [discipline]
        exact if_pos unparked
      exact rest.move rfl step there finished
    · obtain ⟨u, mem, parked⟩ : ∃ u ∈ p.tasks, u.phase = .parked := by simpa using unparked
      obtain ⟨j, there'⟩ := List.mem_iff_getElem?.mp mem
      have apart : i ≠ j := ne_of_phase_ne there there' (by rw [finished, parked]; decide)
      have stuck := rest (.hand i j) rfl
      change p.hand? i j = none at stuck
      unfold hand? at stuck
      split at stuck
      · next serial => exact measured.not_serial serial
      · have taken := Option.bind_eq_none_iff.mp stuck _ (alter_move there finished)
        exact phase_ne_of_alter taken ((task?_setTask_of_ne apart).trans there') parked
  · exact held
  · rw [still] at going
    cases going

/-- At rest every task has asked for its slot. -/
theorem not_waiting_atRest (measured : p.Measured limit) (rest : p.AtRest)
    (there : p.task? i = some t) : t.phase ≠ .waiting := by
  intro waiting
  obtain ⟨positive, discipline⟩ := measured.discipline
  -- a task that waits could take a free place, or wait for one, or withdraw
  by_cases room : p.slots < limit
  · have step : p.step? (.take i) =
        ({ p with slots := p.slots + 1, taken := p.taken ++ [i] } : Pool α).alter i
          (Task.move? .waiting .taken) := by
      change p.take? i = _
      unfold take?
      rw [discipline]
      exact if_pos room
    exact rest.move rfl step there waiting
  · cases ended : t.cancelled? with
    | none =>
      have step : p.step? (.park i) =
          p.alter i fun t => if t.cancelled? = none then t.move? .waiting .parked else none := by
        change p.park? i = _
        unfold park?
        rw [discipline]
        exact if_pos (Nat.le_of_not_lt room)
      have stuck := rest.alter rfl step there
      rw [if_pos ended, Task.move?, if_pos waiting] at stuck
      cases stuck
    | some why =>
      have step : p.step? (.withdraw i) =
          p.alter i fun t => if t.phase = .waiting then t.cancelled?.map t.withdraw else none := by
        change p.withdraw? i = _
        unfold withdraw?
        rw [discipline]
      have stuck := rest.alter rfl step there
      rw [if_pos waiting, ended] at stuck
      cases stuck

/-- At rest no task is on its way out. -/
theorem not_leaving_atRest (measured : p.Measured limit) (rest : p.AtRest)
    (there : p.task? i = some t) : t.phase ≠ .leaving := by
  intro leaving
  obtain ⟨positive, discipline⟩ := measured.discipline
  have step : p.step? (.depart i) =
      ({ p with pending := p.pending - 1 } : Pool α).alter i (Task.move? .leaving .gone) := by
    change p.depart? i = _
    unfold depart?
    rw [discipline]
  exact rest.move rfl step there leaving

/-- At rest all slots are free and nothing is counted, unless a body is held. -/
theorem atRest (measured : p.Measured limit) (full : p.Full limit) (sound : p.Sound)
    (rest : p.AtRest) (ends : ∀ i t, p.task? i = some t → ¬ t.Held) :
    p.slots = 0 ∧ p.pending = 0 := by
  obtain ⟨positive, discipline⟩ := measured.discipline
  -- a place that is taken belongs to a task that could go on
  have free : p.slots = 0 := by
    refine Nat.eq_zero_of_not_pos fun pos => ?_
    rw [measured.slots] at pos
    obtain ⟨i, t, there, pos⟩ := exists_of_total_pos pos
    have going : t.phase.isGoing = true := by
      unfold Phase.slot at pos
      grind
    exact ends i t there (measured.held_atRest sound rest there going)
  refine ⟨free, Nat.eq_zero_of_not_pos fun pos => ?_⟩
  rw [measured.pending] at pos
  obtain ⟨i, t, there, pos⟩ := exists_of_total_pos pos
  -- the others that are counted are on their way in or out, and none of them may stop there
  cases phase : t.phase with
  | waiting => exact measured.not_waiting_atRest rest there phase
  | leaving => exact measured.not_leaving_atRest rest there phase
  | parked =>
    have := full i (by rw [phase?_of_task? there, phase])
    omega
  | withdrawn =>
    obtain h | h | h | ⟨h, -⟩ | ⟨h, -⟩ := rest.phase sound there
    all_goals
      rw [phase] at h
      cases h
  | taken | started | inBody | returned | finished =>
    exact ends i t there (measured.held_atRest sound rest there (by rw [phase]; rfl))
  | gone | refused =>
    rw [phase] at pos
    exact absurd pos (Nat.lt_irrefl 0)

end Measured

/-! ### Giving up -/

/-- A step takes at most one task, which was waiting or parked. -/
theorem Steps.taken_cases (h : p.Steps q) : q.taken = p.taken ∨ ∃ i t, p.task? i = some t ∧
    (t.phase = .waiting ∨ t.phase = .parked) ∧ q.taken = p.taken ++ [i] := by
  cases h with
  | submit body cancelled =>
    left
    unfold Pool.submit
    split
    · rfl
    · split <;> rfl
  | take _ _ _ there waiting | occupy _ _ there waiting =>
    exact .inr ⟨_, _, there, .inl waiting, rfl⟩
  | hand _ _ _ there parked => exact .inr ⟨_, _, there, .inr parked, rfl⟩
  | _ => exact .inl rfl

/-- The task has given up before it had a slot. -/
structure GaveUp (p : Pool α) (i : Nat) : Prop where
  untaken : i ∉ p.taken
  unrun : i ∉ p.ran
  out : ∃ t, p.task? i = some t ∧ (t.phase = .withdrawn ∨ t.phase.hasLeft = true)

/-- A task that gave up has given up for good. -/
theorem GaveUp.step (gaveUp : p.GaveUp i) (h : p.Steps q) : q.GaveUp i := by
  obtain ⟨untaken, unrun, t, there, out⟩ := gaveUp
  -- whoever takes a place or enters a body is not on the way out
  have ne_of_phase {k : Nat} {u : Task α} (there' : p.task? k = some u)
      (inside : u.phase ≠ .withdrawn ∧ u.phase.hasLeft = false) : i ≠ k := by
    rintro rfl
    cases there.symm.trans there'
    exact out.elim inside.1 fun left => by rw [inside.2] at left; cases left
  refine ⟨?_, ?_, ?_⟩
  · obtain same | ⟨k, u, there', outside, appended⟩ := h.taken_cases
    · rwa [same]
    · have other : i ≠ k := by
        refine ne_of_phase there' ?_
        rcases outside with h | h <;> rw [h] <;> decide
      rw [appended, List.mem_append, List.mem_singleton]
      exact not_or.mpr ⟨untaken, other⟩
  · obtain ⟨same, -⟩ | ⟨k, u, there', started, -, rfl⟩ := h.ran_cases
    · rwa [same]
    · have other : i ≠ k := ne_of_phase there' (by rw [started]; decide)
      change i ∉ p.ran ++ [k]
      rw [List.mem_append, List.mem_singleton]
      exact not_or.mpr ⟨unrun, other⟩
  · obtain ⟨u, there', changes⟩ := h.changes there
    refine ⟨u, there', ?_⟩
    rcases changes.phase with same | next
    · rwa [same]
    · right
      rcases out with withdrawn | left
      · rw [withdrawn] at next
        rw [List.mem_singleton.mp next]
        rfl
      · exact Phase.hasLeft_next _ next left

/-- A task that gave up has given up, whatever is done then. -/
theorem GaveUp.after (gaveUp : p.GaveUp i) (more : List (Action α)) : (p.after more).GaveUp i :=
  after_induction gaveUp GaveUp.step more

/-- The step in which a parked task gives up. -/
theorem gaveUp_of_parked (measured : p.Measured limit) (sound : p.Sound)
    (parked : p.phase? i = some .parked) {a : Action α} (ends : a.EndsContext i) :
    (p.act a).GaveUp i := by
  obtain ⟨t, there, parked⟩ := Option.map_eq_some_iff.mp parked
  have here : p.phase? i = some .parked := parked ▸ phase?_of_task? there
  have untaken : i ∉ p.taken := fun mem => by
    obtain ⟨phase, here', fate⟩ := measured.taken i mem
    cases here.symm.trans here'
    exact fate.elim nofun (nofun ∘ And.right)
  have unrun : i ∉ p.ran := fun mem => by
    obtain ⟨u, there', beyond⟩ := sound.beyond i mem
    cases there.symm.trans there'
    rw [parked] at beyond
    cases beyond
  -- without a place and without a cancellation before, so this one takes it out
  have gaveUp (why : Cancellation) : (p.setTask i (t.cancel why)).GaveUp i := by
    refine ⟨untaken, unrun, _, task?_setTask_self there, .inl ?_⟩
    rw [Task.cancel, (sound.tasks there).parked parked]
    exact congrArg Task.phase (if_pos parked)
  rcases ends with rfl | rfl
  · have act : p.act (.cancel i) = p.setTask i (t.cancel .cancelled) :=
      act_of_step? (alter_eq_some there rfl)
    rw [act]
    exact gaveUp .cancelled
  · have act : p.act (.expire i) = p.setTask i (t.cancel .expired) :=
      act_of_step? (alter_eq_some there rfl)
    rw [act]
    exact gaveUp .expired

/-- Only a task that was accepted gives up. -/
theorem GaveUp.mem_accepted (gaveUp : p.GaveUp i) : i ∈ p.accepted := by
  obtain ⟨-, -, t, there, out⟩ := gaveUp
  refine Pool.mem_accepted.mpr ⟨_, phase?_of_task? there, fun refused => ?_⟩
  rw [refused] at out
  exact out.elim nofun nofun

/-- At rest a task that gave up is finished. -/
theorem GaveUp.finished_atRest (gaveUp : p.GaveUp i) (sound : p.Sound) (rest : p.AtRest) :
    p.Finished i := by
  obtain ⟨-, -, t, there, out⟩ := gaveUp
  refine sound.finished_iff.mpr ⟨_, phase?_of_task? there, ?_⟩
  rcases out with withdrawn | left
  · obtain h | h | h | ⟨h, -⟩ | ⟨h, -⟩ := rest.phase sound there
    all_goals
      rw [withdrawn] at h
      cases h
  · cases phase : t.phase <;> rw [phase] at left <;> first | rfl | cases left

/-- There are no more tasks in a phase than these weigh together. -/
theorem countP_le_total (weight : Phase → Nat) {f : Phase → Bool}
    (heavy : ∀ phase, f phase = true → 1 ≤ weight phase) (p : Pool α) :
    (p.tasks.countP fun t => f t.phase) ≤ p.total weight := by
  unfold total
  induction p.tasks with
  | nil => exact Nat.le_refl 0
  | cons t rest ih =>
    rw [List.countP_cons, List.map_cons, List.sum_cons]
    split
    · next holds =>
      have := heavy t.phase holds
      omega
    · omega

/-- No more bodies run than there are slots. -/
theorem Measured.running_le (measured : p.Measured limit) :
    (p.tasks.countP fun t => t.phase = .inBody) ≤ limit := by
  refine (countP_le_total Phase.slot (f := fun phase => phase = .inBody) ?_ p).trans ?_
  · intro phase inBody
    rw [of_decide_eq_true inBody]
    exact Nat.le_refl 1
  · rw [← measured.slots]
    exact measured.within

/-- A task that was taken and has not left is going. -/
theorem Measured.not_mem_left_iff (measured : p.Measured limit) (mem : i ∈ p.taken) :
    i ∉ p.left ↔ ∃ phase, p.phase? i = some phase ∧ phase.isGoing = true := by
  constructor
  · intro unleft
    obtain ⟨phase, here, fate⟩ := measured.taken i mem
    exact ⟨phase, here, fate.resolve_right fun left => unleft left.1⟩
  · rintro ⟨phase, here, going⟩ left
    obtain ⟨-, phase', here', gone⟩ := measured.left i left
    cases here.symm.trans here'
    cases phase <;> cases going <;> cases gone

/-- A context that is over keeps a task from running, and from staying unfinished at rest. -/
theorem Measured.finished_of_over (measured : p.Measured limit) (sound : p.Sound) (rest : p.AtRest)
    (there : p.task? i = some t) (ended : t.cancelled? ≠ none) (unrun : i ∉ p.ran) :
    p.Finished i := by
  refine sound.finished_iff.mpr ⟨_, phase?_of_task? there, ?_⟩
  obtain waiting | parked | finished | ⟨inBody, -⟩ | ⟨finished, -⟩ := rest.phase sound there
  · exact absurd waiting (measured.not_waiting_atRest rest there)
  · exact absurd ((sound.tasks there).parked parked) ended
  · rw [finished]
    rfl
  · exact absurd inBody (sound.unentered there unrun).outside
  · exact finished

/-! ### Runs -/

/-- All that holds of a bounded pool between any two steps. -/
structure Bounded (p : Pool α) (limit : Nat) : Prop where
  sound : p.Sound
  measured : p.Measured limit
  full : p.Full limit
  honest : p.Honest

/-- Every step keeps a bounded pool in order. -/
theorem Bounded.step (bounded : p.Bounded limit) (h : p.Steps q) : q.Bounded limit where
  sound := bounded.sound.step h
  measured := bounded.measured.step h
  full := bounded.full.step bounded.measured h
  honest := bounded.honest.step bounded.sound (bounded.measured.serves bounded.sound) h

/-- All actions keep a bounded pool in order. -/
theorem Bounded.after (bounded : p.Bounded limit) (actions : List (Action α)) :
    (p.after actions).Bounded limit :=
  after_induction bounded Bounded.step actions

/-- A bounded pool is in order, whatever was done with it. -/
theorem bounded_run (positive : 0 < limit) (actions : List (Action α)) :
    (run (.bounded limit positive) actions).Bounded limit :=
  Bounded.after ⟨sound_empty _, measured_empty _, nofun, honest_empty _⟩ actions

/-- Whatever callers and tasks of a bounded pool do, and in whatever order: no more bodies run at a
time than the limit says, and one if it says less; every slot is taken and given back once, so that
it is in use only while its task is going on, whatever the ending of the body; a task that gives up
while it is parked never takes a slot, and a task whose context is over before its body is never
run, and ends with the end of its context; who waits for the pool waits for all tasks, and a pool
that was waited for in closing it runs nothing any more; and the pool comes to rest only with all
tasks finished and all slots given back, or in a body that does not end. -/
theorem bounded_drains (n : Int) (actions more : List (Action α)) :
    let p : Pool α := run (.ofLimit n) actions
    let q := p.after more
    ((p.tasks.countP fun t => t.phase = .inBody : Nat) : Int) ≤ max n 1 ∧
    (p.taken.Nodup ∧ p.left.Nodup ∧ p.left ⊆ p.taken ∧ p.taken.length = p.left.length + p.slots ∧
      ∀ i ∈ p.taken, i ∉ p.left ↔ ∃ phase, p.phase? i = some phase ∧ phase.isGoing = true) ∧
    (∀ i, p.phase? i = some .parked → ∀ a : Action α, a.EndsContext i →
      let r := (p.act a).after more
      i ∉ r.taken ∧ i ∉ r.ran ∧ r.Skipped i ∧ (r.AtRest → r.Finished i)) ∧
    (∀ i ∈ p.accepted, i ∉ p.ran → (∃ t, p.task? i = some t ∧ t.cancelled? ≠ none) →
      i ∉ q.ran ∧ q.Skipped i ∧ (q.AtRest → q.Finished i)) ∧
    (∀ c ∈ p.callers, c.state = .returned →
      (∀ i < c.since, p.Finished i) ∧
      (c.errand = .shutdown → p.closed = true ∧ (∀ i ∈ p.accepted, p.Finished i) ∧ q.ran = p.ran)) ∧
    (p.AtRest → (∀ i t, p.task? i = some t → ¬ t.Held) →
      (∀ i ∈ p.accepted, p.Finished i) ∧ p.slots = 0 ∧ p.taken ⊆ p.left ∧
        ∀ c ∈ p.callers, p.serves c.errand = true) := by
  intro p q
  obtain ⟨sound, measured, full, honest⟩ : p.Bounded _ := bounded_run _ actions
  -- the invariant holds after more actions as well, and most parts are about these
  have later (more : List (Action α)) : (p.after more).Bounded _ :=
    Bounded.after ⟨sound, measured, full, honest⟩ more
  refine ⟨?_, ⟨measured.onceTaken, measured.onceLeft, fun i mem => (measured.left i mem).1,
    measured.length, fun i => measured.not_mem_left_iff⟩, fun i parked a ends => ?_,
    fun i mem unrun ⟨t, there, ended⟩ => ?_, fun c mem returned => ?_, fun rest ends => ?_⟩
  · have := measured.running_le
    omega
  · have gaveUp := (gaveUp_of_parked measured sound parked ends).after more
    have sound' : ((p.act a).after more).Sound := (later (a :: more)).sound
    exact ⟨gaveUp.untaken, gaveUp.unrun, sound'.skipped gaveUp.mem_accepted gaveUp.unrun,
      gaveUp.finished_atRest sound'⟩
  · obtain ⟨why, ended⟩ := Option.ne_none_iff_exists'.mp ended
    obtain ⟨unrun', u, there', ended'⟩ := cancelled?_after there ended unrun more
    have accepted := (prefixes_after p more).1.subset mem
    refine ⟨unrun', (later more).sound.skipped accepted unrun', fun rest => ?_⟩
    refine (later more).measured.finished_of_over (later more).sound rest there' ?_ unrun'
    rw [ended']
    exact nofun
  · refine ⟨honest.flush c mem returned, fun shutdown => ?_⟩
    have ended := honest.shutdown c mem shutdown returned
    exact ⟨ended.closed, fun i mem => ended.finished i (lt_length_of_mem_accepted mem),
      ended.after sound more⟩
  · obtain ⟨free, done⟩ := measured.atRest full sound rest ends
    have served (errand : Errand) : p.serves errand = true := (measured.serves_iff errand).mpr done
    refine ⟨fun i mem => measured.serves sound .flush (served _) i (lt_length_of_mem_accepted mem),
      free, fun i mem => ?_, fun c _ => served c.errand⟩
    -- a place not given back belongs to a task that is counted, and there are none
    by_contra unleft
    obtain ⟨phase, here, going⟩ := (measured.not_mem_left_iff mem).mp unleft
    obtain ⟨t, there, rfl⟩ := Option.map_eq_some_iff.mp here
    have := measured.slots_pos there going
    omega

/-- A task is in its body, and the next one waits for the slot. -/
def oneParked : List (Action Unit) :=
  [.submit .unknown false, .submit .unknown false, .take 0, .start 0, .enter 0, .park 1]

/-- There is a slot even if the limit says that there is none; who gives up waiting does not take
it. -/
theorem bounded_drains_parked :
    (run (.ofLimit 0) oneParked).phase? 1 = some .parked ∧
      1 ∉ (((run (.ofLimit 0) oneParked).act (.cancel 1)).after [.finish 1, .depart 1]).taken := by
  have parked : (run (.ofLimit 0) oneParked).phase? 1 = some .parked := by decide +kernel
  refine ⟨parked, ?_⟩
  exact ((bounded_drains 0 oneParked [.finish 1, .depart 1]).2.2.1 1 parked (.cancel 1)
    (.inl rfl)).1

end Lox.Pool
