import Lox.Fixture
import Lox.Proofs.Pool.Settled

/-!
Fixtures on a pool that others use as well. The one who runs them submits one after the other, and
then waits for one handle after the other; each task puts the result of its fixture where it
belongs, and an error that a handle shows takes that place.

A run is a list of moves, so that every order of what the workers, the others and the one who runs
the fixtures do is one such list.
-/

namespace Lox

open Fixture (Result)

/-- Fixtures that are run together, and the settings for all of them. -/
structure Batch where
  fixtures : List Fixture
  config : Config
  /-- What natives do in the session of each fixture, by its number. A clock tells another time in
  each of them. -/
  replies : Nat → Natives

namespace Batch

/-- What the fixture with the number gives when it is run alone. -/
def result (b : Batch) (k : Nat) (f : Fixture) : Result := f.run b.config (b.replies k)

/-- What is known of a fixture whose task has an error: nothing but that error. -/
def failed (f : Fixture) (e : Pool.TaskError) : Result := { fixture := f, error := some (.task e) }

/-- How far the batch is. -/
structure State where
  pool : Pool Result
  /-- The tasks of the fixtures that were submitted, in the order of the fixtures. -/
  handles : List Nat := []
  /-- The results of the fixtures, as far as they are known. -/
  slots : List (Option Result)
  /-- How many handles were waited for. -/
  collected : Nat := 0

/-- What is done for the batch or with its pool. -/
inductive Move where
  /-- The next fixture is submitted. The context may be over from the first. -/
  | submit (cancelled : Bool)
  /-- Anything else that anyone does with the pool, the workers included. -/
  | pool (a : Pool.Action Result)
  /-- The next handle is finished, and is looked at. -/
  | collect

/-- It is up to nobody but the workers and the one who runs the batch. -/
def Move.isOwn : Move → Bool
  | submit _ | collect => true
  | pool a => a.isWork

variable (b : Batch)

def start (p : Pool Result) : State :=
  { pool := p, slots := b.fixtures.map fun _ => none }

def submit? (s : State) (cancelled : Bool) : Option State :=
  b.fixtures[s.handles.length]?.map fun f =>
    { s with
      pool := s.pool.submit (.gives (b.result s.handles.length f)) cancelled
      handles := s.handles ++ [s.pool.tasks.length] }

/-- At the end of the body of a fixture's task the result is in its place. -/
def written (s : State) : Pool.Action Result → List (Option Result)
  | .conclude i => s.slots.mapIdx fun k slot =>
      if s.handles[k]? = some i then b.fixtures[k]?.map (b.result k) else slot
  | _ => s.slots

/-- An error takes the place of the result. -/
def missed (s : State) (f : Fixture) : Option Pool.TaskError → List (Option Result)
  | some e => s.slots.set s.collected (some (failed f e))
  | none => s.slots

/-- The handles are waited for when all fixtures are submitted. -/
def collect? (s : State) : Option State :=
  if s.handles.length = b.fixtures.length then
    b.fixtures[s.collected]?.bind fun f => s.handles[s.collected]?.bind fun i =>
      (s.pool.task? i).bind fun t =>
        if t.status.isFinal then
          some { s with slots := missed s f t.error?, collected := s.collected + 1 }
        else none
  else none

/-- The state after a move, if the move is possible. -/
def step? (s : State) : Move → Option State
  | .submit cancelled => b.submit? s cancelled
  | .pool a => (s.pool.step? a).map fun q => { s with pool := q, slots := b.written s a }
  | .collect => b.collect? s

/-- A move that is not possible changes nothing. -/
def act (s : State) (m : Move) : State := (b.step? s m).getD s

def after (s : State) (moves : List Move) : State := moves.foldl b.act s

/-- The batch on a pool of the discipline that others have used before. -/
def run (d : Pool.Discipline) (before : List (Pool.Action Result)) (moves : List Move) : State :=
  b.after (b.start (Pool.run d before)) moves

/-- The one who runs the batch is through. -/
def Returned (s : State) : Prop := s.collected = b.fixtures.length

/-- Nothing can be done for the batch, by the workers or by the one who runs it. -/
def AtRest (s : State) : Prop := ∀ m : Move, m.isOwn = true → b.step? s m = none

/-- A move leaves the fixture with the number alone: the pool is open and the context is not over
when the fixture is submitted, and nobody ends the context of its task. -/
def Move.Spares (k : Nat) (s : State) : Move → Prop
  | submit cancelled => s.handles.length = k → cancelled = false ∧ s.pool.closed = false
  | pool a => ∀ i, s.handles[k]? = some i → ¬ a.EndsContext i
  | collect => True

/-- All moves leave the fixture with the number alone. -/
def Spares (k : Nat) : State → List Move → Prop
  | _, [] => True
  | s, m :: rest => m.Spares k s ∧ Spares k (b.act s m) rest

/-- How many moves are left for the workers and the one who runs the batch, at most, if nobody else
does anything. -/
def work (s : State) : Nat :=
  10 * (b.fixtures.length - s.handles.length) + (b.fixtures.length - s.collected) + s.pool.work

/-! ### What a move does -/

/-- All that a move can do. -/
inductive Steps (b : Batch) (s : State) : State → Prop where
  | submit {f : Fixture} {cancelled : Bool} : b.fixtures[s.handles.length]? = some f →
      Steps b s { s with
        pool := s.pool.submit (.gives (b.result s.handles.length f)) cancelled
        handles := s.handles ++ [s.pool.tasks.length] }
  | pool {a : Pool.Action Result} {q : Pool Result} : s.pool.step? a = some q →
      Steps b s { s with pool := q, slots := b.written s a }
  | collect {f : Fixture} {i : Nat} {t : Pool.Task Result} :
      s.handles.length = b.fixtures.length → b.fixtures[s.collected]? = some f →
      s.handles[s.collected]? = some i → s.pool.task? i = some t → t.status.isFinal = true →
      Steps b s { s with slots := missed s f t.error?, collected := s.collected + 1 }

variable {b} {s s' : State} {m : Move}

/-- A slot is written by the task of its own fixture, when that task has ended. -/
theorem exists_of_collect? (h : b.collect? s = some s') :
    ∃ f i t, s.handles.length = b.fixtures.length ∧ b.fixtures[s.collected]? = some f ∧
      s.handles[s.collected]? = some i ∧ s.pool.task? i = some t ∧ t.status.isFinal = true ∧
      s' = { s with slots := missed s f t.error?, collected := s.collected + 1 } := by
  unfold collect? at h
  split at h
  · next all =>
    obtain ⟨f, next, h⟩ := Option.bind_eq_some_iff.mp h
    obtain ⟨i, handle, h⟩ := Option.bind_eq_some_iff.mp h
    obtain ⟨t, there, h⟩ := Option.bind_eq_some_iff.mp h
    split at h
    · next final =>
      cases h
      exact ⟨f, i, t, all, next, handle, there, final, rfl⟩
    · cases h
  · cases h

/-- Every move that is possible is one of the steps. -/
theorem steps_of_step? (h : b.step? s m = some s') : b.Steps s s' := by
  cases m with
  | submit cancelled =>
    obtain ⟨f, next, rfl⟩ := Option.map_eq_some_iff.mp h
    exact .submit next
  | pool a =>
    obtain ⟨q, step, rfl⟩ := Option.map_eq_some_iff.mp h
    exact .pool step
  | collect =>
    obtain ⟨f, i, t, all, next, handle, there, final, rfl⟩ := exists_of_collect? h
    exact .collect all next handle there final

/-- What every step keeps holds after all moves. -/
theorem after_induction {P : State → Prop} (start : P s)
    (step : ∀ {s s' : State}, P s → b.Steps s s' → P s') (moves : List Move) :
    P (b.after s moves) := by
  induction moves generalizing s with
  | nil => exact start
  | cons m rest ih =>
    refine ih (s := b.act s m) ?_
    unfold act
    cases h : b.step? s m with
    | none => exact start
    | some s' => exact step start (steps_of_step? h)

/-! ### Slots -/

@[simp] theorem length_written (a : Pool.Action Result) :
    (b.written s a).length = s.slots.length := by
  unfold written
  split
  · exact List.length_mapIdx
  · rfl

section Written

variable {a : Pool.Action Result} {f : Fixture} {k i : Nat}

/-- What is in a slot stays there unless the body of its fixture's task comes to its end. -/
theorem getElem?_written_of_ne (handle : s.handles[k]? = some i) (other : a ≠ .conclude i) :
    (b.written s a)[k]? = s.slots[k]? := by
  unfold written
  split
  · next j =>
    have apart : ¬ s.handles[k]? = some j := by
      rw [handle, Option.some_inj]
      rintro rfl
      exact other rfl
    simp [apart]
  · rfl

/-- The slot of a fixture holds what the fixture gives, run with its own natives. -/
theorem getElem?_written_self (handle : s.handles[k]? = some i) (next : b.fixtures[k]? = some f)
    (small : k < s.slots.length) :
    (b.written s (.conclude i))[k]? = some (some (b.result k f)) := by
  unfold written
  rw [List.getElem?_mapIdx, List.getElem?_eq_getElem small, Option.map_some, if_pos handle, next]
  rfl

end Written

/-! ### What every move keeps -/

/-- The slot with the number, its fixture and its task fit together. -/
structure Kept (b : Batch) (s : State) (k i : Nat) (f : Fixture) : Prop where
  promises : s.pool.Promises i (b.result k f)
  gave : ∀ t, s.pool.task? i = some t → t.Gave (b.result k f) →
    s.slots[k]? = some (some (b.result k f))
  looked : k < s.collected → ∃ t, s.pool.task? i = some t ∧ t.status.isFinal = true ∧
    ∀ e, t.error? = some e → s.slots[k]? = some (some (failed f e))

structure Orderly (b : Batch) (d : Pool.Discipline) (s : State) : Prop where
  reached : ∃ actions, s.pool = Pool.run d actions
  slots : s.slots.length = b.fixtures.length
  handles : s.handles.length ≤ b.fixtures.length
  collected : s.collected ≤ s.handles.length
  kept : ∀ {k i f}, s.handles[k]? = some i → b.fixtures[k]? = some f → b.Kept s k i f

variable {d : Pool.Discipline}

theorem Orderly.sound (orderly : b.Orderly d s) : s.pool.Sound := by
  obtain ⟨actions, reached⟩ := orderly.reached
  exact reached ▸ Pool.sound_run d actions

/-- One more step of the pool is one more action of a run. -/
theorem exists_run_act {p q : Pool Result} {a : Pool.Action Result}
    (reached : ∃ actions, p = Pool.run d actions) (step : p.step? a = some q) :
    ∃ actions, q = Pool.run d actions := by
  obtain ⟨actions, rfl⟩ := reached
  refine ⟨actions ++ [a], ?_⟩
  rw [← Pool.run_append]
  exact (Pool.act_of_step? step).symm

section Kept

variable {k i : Nat} {f : Fixture} {a : Pool.Action Result} {q : Pool Result}

/-- Only a task whose body is entered can come to the end of its body. -/
theorem phase_of_conclude {p : Pool Result} {t : Pool.Task Result}
    (step : p.step? (.conclude i) = some q) (there : p.task? i = some t) :
    t.phase = .inBody := by
  obtain ⟨t', u, there', changed, -⟩ := Pool.alter_eq_some_iff.mp step
  cases there.symm.trans there'
  exact (Pool.Task.conclude?_eq_some_iff.mp changed).1

/-- A handle that was looked at stays as it is, and so does what came of that. -/
theorem Kept.pool (kept : b.Kept s k i f) (sound : s.pool.Sound)
    (handle : s.handles[k]? = some i) (next : b.fixtures[k]? = some f)
    (small : k < s.slots.length) (step : s.pool.step? a = some q) :
    b.Kept { s with pool := q, slots := b.written s a } k i f := by
  have h : s.pool.Steps q := Pool.steps_of_step? step
  refine ⟨kept.promises.step h, fun u there' after => ?_, fun seen => ?_⟩
  -- a slot is written when its task concludes, and in no other step of the pool
  · by_cases concludes : a = .conclude i
    · subst concludes
      exact getElem?_written_self handle next small
    · obtain ⟨t, there, -⟩ := kept.promises
      have before : t.Gave (b.result k f) := Classical.byContradiction fun before =>
        concludes (Pool.concludes_of_step? step there there' before after)
      exact (getElem?_written_of_ne handle concludes).trans (kept.gave t there before)
  · obtain ⟨t, there, final, missed⟩ := kept.looked seen
    obtain ⟨u, there', changes⟩ := h.changes there
    have ended : t.phase.isOver = true := (sound.tasks there).isFinal_iff ▸ final
    obtain ⟨status, error, -⟩ := changes.shown ended
    refine ⟨u, there', by rwa [status], fun e shown => ?_⟩
    refine (getElem?_written_of_ne handle ?_).trans (missed e (error ▸ shown))
    -- a task that has ended does not conclude again
    rintro rfl
    rw [phase_of_conclude step there] at ended
    cases ended

theorem Kept.submit (kept : b.Kept s k i f) {body : Pool.Body Result} {cancelled : Bool}
    (handles : List Nat) :
    b.Kept { s with pool := s.pool.submit body cancelled, handles } k i f := by
  obtain ⟨t, there, -⟩ := kept.promises
  have there' : (s.pool.submit body cancelled).task? i = some t := Pool.task?_submit there
  refine ⟨kept.promises.step (.submit body cancelled), fun u here => ?_, fun seen => ?_⟩
  · cases there'.symm.trans here
    exact kept.gave t there
  · obtain ⟨u, here, final, missed⟩ := kept.looked seen
    cases there.symm.trans here
    exact ⟨t, there', final, missed⟩

/-- A fixture that was just submitted has no result yet. -/
theorem kept_submit (sound : s.pool.Sound) {cancelled : Bool} (handles : List Nat)
    (unseen : s.collected ≤ k) :
    b.Kept { s with pool := s.pool.submit (.gives (b.result k f)) cancelled, handles } k
      s.pool.tasks.length f := by
  refine ⟨Pool.promises_submit sound, fun t there gave => ?_,
    fun seen => absurd seen (Nat.not_lt.mpr unseen)⟩
  cases Pool.task?_submit_length.symm.trans there
  unfold Pool.Task.Gave Pool.newTask at gave
  cases closed : s.pool.closed with
  | true =>
    rw [closed] at gave
    cases gave.2
  | false =>
    rw [closed] at gave
    cases gave.1

/-- Whoever waits for another handle leaves the slot alone; whoever waits for this one finds the
result there, or puts the error in its place. -/
theorem Kept.collect (kept : b.Kept s k i f) (sound : s.pool.Sound)
    (handle : s.handles[k]? = some i) (next : b.fixtures[k]? = some f) (small : k < s.slots.length)
    {f' : Fixture} {i' : Nat} {t : Pool.Task Result}
    (next' : b.fixtures[s.collected]? = some f') (handle' : s.handles[s.collected]? = some i')
    (there : s.pool.task? i' = some t) (final : t.status.isFinal = true) :
    b.Kept { s with slots := missed s f' t.error?, collected := s.collected + 1 } k i f := by
  -- only the slot that is looked at may change
  by_cases here : s.collected = k
  · subst here
    cases next.symm.trans next'
    cases handle.symm.trans handle'
    refine ⟨kept.promises, fun u there' gave => ?_, fun _ => ⟨t, there, final, fun e shown => ?_⟩⟩
    · cases there.symm.trans there'
      have ended : t.phase.isOver = true := (sound.tasks there).isFinal_iff ▸ final
      obtain ⟨result, shows⟩ := (sound.tasks there).ended ended
      cases gave.2.symm.trans shows.given
      rw [shows.error]
      exact kept.gave t there gave
    · rw [shown]
      exact List.getElem?_set_self small
  · have same : (missed s f' t.error?)[k]? = s.slots[k]? := by
      cases t.error? with
      | none => rfl
      | some e => exact List.getElem?_set_ne here
    refine ⟨kept.promises, fun u there' gave => same.trans (kept.gave u there' gave),
      fun seen => ?_⟩
    obtain ⟨u, there', final', missed⟩ :=
      kept.looked (Nat.lt_of_le_of_ne (Nat.le_of_lt_succ seen) (Ne.symm here))
    exact ⟨u, there', final', fun e shown => same.trans (missed e shown)⟩

end Kept

theorem length_missed {f : Fixture} {e : Option Pool.TaskError} :
    (missed s f e).length = s.slots.length := by
  cases e with
  | none => rfl
  | some e => exact List.length_set

/-- Before anything is submitted all slots are empty. -/
theorem orderly_start (actions : List (Pool.Action Result)) :
    b.Orderly d (b.start (Pool.run d actions)) :=
  ⟨⟨actions, rfl⟩, List.length_map _, Nat.zero_le _, Nat.le_refl _, nofun⟩

/-- One step of the batch keeps slots, handles and tasks in line. -/
theorem Orderly.step (orderly : b.Orderly d s) (h : b.Steps s s') : b.Orderly d s' := by
  have sound := orderly.sound
  have small {k i : Nat} (handle : s.handles[k]? = some i) : k < s.slots.length := by
    have := (List.getElem?_eq_some_iff.mp handle).1
    have := orderly.handles
    have := orderly.slots
    omega
  cases h with
  | @submit f cancelled next =>
    have more : s.handles.length < b.fixtures.length := (List.getElem?_eq_some_iff.mp next).1
    refine ⟨exists_run_act (a := .submit _ cancelled) orderly.reached rfl, orderly.slots, ?_, ?_,
      fun {k i f'} handle next' => ?_⟩
    · rw [List.length_append]
      exact more
    · exact Nat.le_trans orderly.collected (List.length_append ▸ Nat.le_add_right ..)
    · rw [List.getElem?_append] at handle
      split at handle
      · exact (orderly.kept handle next').submit _
      -- the new task is the one with the last handle
      · next last =>
        obtain ⟨rfl, rfl⟩ : k = s.handles.length ∧ s.pool.tasks.length = i := by
          rw [List.getElem?_singleton] at handle
          grind
        cases next.symm.trans next'
        exact kept_submit sound _ orderly.collected
  | pool step =>
    refine ⟨exists_run_act orderly.reached step, (length_written _).trans orderly.slots,
      orderly.handles, orderly.collected, fun handle next => ?_⟩
    exact (orderly.kept handle next).pool sound handle next (small handle) step
  | collect _ next handle there final =>
    refine ⟨orderly.reached, length_missed.trans orderly.slots, orderly.handles,
      (List.getElem?_eq_some_iff.mp handle).1, fun handle' next' => ?_⟩
    exact (orderly.kept handle' next').collect sound handle' next' (small handle') next handle there
      final

/-- A whole run keeps them in line. -/
theorem Orderly.after (orderly : b.Orderly d s) (moves : List Move) :
    b.Orderly d (b.after s moves) :=
  after_induction orderly Orderly.step moves

end Batch

end Lox
