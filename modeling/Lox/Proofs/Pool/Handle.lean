import Lox.Proofs.Pool.Phase

/-!
The handles of tasks. A handle is pending, then running, then finished, or finished at once; when it
is finished its status, its error and the one announcement are those of a single result, and they
stay.
-/

namespace Lox.Pool

variable {α : Type}

/-! ### Statuses -/

/-- A handle may come from one status to the other. -/
def Status.mayBecome : Status → Status → Bool
  | pending, _ => true
  | running, later => later ≠ pending
  | final, later => later = final

/-- The status of a handle that is not finished in the phase. -/
def Phase.status : Phase → Status
  | .started | .inBody | .returned => .running
  | _ => .pending

/-- As long as a task is at work its handle shows no end. -/
theorem Phase.isFinal_status (phase : Phase) : phase.status.isFinal = false := by
  cases phase <;> rfl

/-- What the handle shows in a phase may become what it shows in the next. -/
theorem Phase.mayBecome_next {old : Phase} : ∀ new ∈ old.next,
    old.status.mayBecome new.status = true ∨ new.isOver = true := by
  cases old <;> decide

theorem Status.mayBecome_refl (s : Status) : s.mayBecome s = true := by
  cases s <;> rfl

/-- What may become of a status may become of it in two steps. -/
theorem Status.mayBecome_trans {s t u : Status} (h : s.mayBecome t = true)
    (h' : t.mayBecome u = true) : s.mayBecome u = true := by
  cases s <;> cases t <;> simp_all [mayBecome]

/-- Nothing becomes of a status that is final. -/
theorem Status.eq_of_mayBecome {s t : Status} (final : s.isFinal = true)
    (h : s.mayBecome t = true) : t = s := by
  cases s <;> simp_all [mayBecome, isFinal]

/-- Any status that is not final may become any that is. -/
theorem Status.mayBecome_of_isFinal {s t : Status} (going : s.isFinal = false)
    (final : t.isFinal = true) : s.mayBecome t = true := by
  cases s <;> cases t <;> simp_all [mayBecome, isFinal]

/-- A result is the end of a task. -/
theorem isFinal_statusOf (result : Except TaskError α) : (statusOf result).isFinal = true := by
  cases result with
  | ok value => rfl
  | error e =>
    change e.status.isFinal = true
    unfold TaskError.status
    split <;> rfl

/-- There is no error where the task succeeded, and only there. -/
theorem errorOf_eq_none_iff {result : Except TaskError α} :
    errorOf result = none ↔ statusOf result = .succeeded := by
  cases result with
  | ok value => simp [errorOf, statusOf]
  | error e =>
    have failed : e.status ≠ .succeeded := by
      unfold TaskError.status
      split <;> simp
    simp [errorOf, statusOf, failed]

/-- A task is cancelled if its error tells of the end of its context. -/
theorem statusOf_eq_cancelled_iff {result : Except TaskError α} :
    statusOf result = .cancelled ↔ ∃ e, errorOf result = some e ∧ e.isCancellation = true := by
  cases result with
  | ok value => simp [errorOf, statusOf]
  | error e =>
    cases h : e.isCancellation <;> simp [errorOf, statusOf, TaskError.status, h]

theorem isCancellation_error (why : Cancellation) : why.error.isCancellation = true := by
  cases why <;> rfl

/-! ### Tasks -/

namespace Task

variable {t u : Task α}

/-- The handle shows the result, and it was announced once. -/
structure Shows (t : Task α) (result : Except TaskError α) : Prop where
  given : t.result? = some result
  status : t.status = statusOf result
  error : t.error? = errorOf result
  announced : t.announced = 1

/-- Phase, handle and context of the task fit together. -/
structure Sound (t : Task α) : Prop where
  going : t.phase.isOver = false →
    t.status = t.phase.status ∧ t.error? = none ∧ t.announced = 0
  ended : t.phase.isOver = true → ∃ result, t.Shows result
  returned : t.phase = .returned → t.result? ≠ none
  parked : t.phase = .parked → t.cancelled? = none
  withdrawn : t.phase = .withdrawn →
    ∃ why, t.cancelled? = some why ∧ t.result? = some (.error why.error)

/-- A handle shows the end when the task is over. -/
theorem Sound.isFinal_iff (sound : t.Sound) : t.status.isFinal = t.phase.isOver := by
  cases h : t.phase.isOver with
  | false => rw [(sound.going h).1, Phase.isFinal_status]
  | true =>
    obtain ⟨result, shows⟩ := sound.ended h
    rw [shows.status, isFinal_statusOf]

/-- A handle that is not finished shows the result from then on. -/
theorem Sound.shows_finish (sound : t.Sound) (going : t.phase.isOver = false)
    {result : Except TaskError α} (given : t.result? = some result) (phase : Phase) :
    Shows { t.finish result with phase } result := by
  obtain ⟨-, -, announced⟩ := sound.going going
  have unfinished : ¬ t.status.isFinal = true := by
    rw [sound.isFinal_iff, going]
    exact Bool.false_ne_true
  unfold finish
  rw [if_neg unfinished]
  exact ⟨given, rfl, rfl, congrArg (· + 1) announced⟩

/-- A finished task is sound if its handle shows a result. -/
theorem sound_of_shows {result : Except TaskError α} (shows : t.Shows result)
    (ended : t.phase.isOver = true) : t.Sound := by
  refine ⟨fun going => ?_, fun _ => ⟨result, shows⟩, fun h => ?_, fun h => ?_, fun h => ?_⟩
  · rw [ended] at going
    cases going
  all_goals
    rw [h] at ended
    cases ended

/-- A context may end at any time. -/
theorem Sound.cancel (sound : t.Sound) (why : Cancellation) : (t.cancel why).Sound := by
  unfold Task.cancel
  split
  · exact sound
  · next going =>
    dsimp only
    split
    · next parked =>
      obtain ⟨status, error, announced⟩ := sound.going (by rw [parked]; rfl)
      rw [parked] at status
      exact ⟨fun _ => ⟨status, error, announced⟩, nofun, nofun,
        nofun, fun _ => ⟨why, rfl, rfl⟩⟩
    · next elsewhere =>
      refine ⟨sound.going, fun ended => ?_, sound.returned, fun h => absurd h elsewhere,
        fun h => ?_⟩
      · obtain ⟨result, shows⟩ := sound.ended ended
        exact ⟨result, shows.given, shows.status, shows.error, shows.announced⟩
      · obtain ⟨why', ended, -⟩ := sound.withdrawn h
        rw [going] at ended
        cases ended

/-- Nothing that the conditions speak of is different. -/
theorem Sound.of_same (sound : t.Sound) (phase : u.phase = t.phase)
    (ended : u.cancelled? = t.cancelled?)
    (result : u.result? = t.result?) (status : u.status = t.status) (error : u.error? = t.error?)
    (announced : u.announced = t.announced) : u.Sound := by
  refine ⟨fun h => ?_, fun h => ?_, fun h => ?_, fun h => ?_, fun h => ?_⟩
  · rw [phase, status, error, announced]
    exact sound.going (phase ▸ h)
  · obtain ⟨r, shows⟩ := sound.ended (phase ▸ h)
    exact ⟨r, result.trans shows.given, status.trans shows.status, error.trans shows.error,
      announced.trans shows.announced⟩
  · rw [result]
    exact sound.returned (phase ▸ h)
  · rw [ended]
    exact sound.parked (phase ▸ h)
  · rw [ended, result]
    exact sound.withdrawn (phase ▸ h)

/-- What goes on inside a body leaves the handle sound. -/
theorem Sound.inner (sound : t.Sound) (h : t.Inner u) : u.Sound := by
  cases h with
  | cancel why => exact sound.cancel why
  | release => exact sound.of_same rfl rfl rfl rfl rfl rfl
  | tell => exact sound.of_same rfl rfl rfl rfl rfl rfl
  | start taken =>
    obtain ⟨status, error, announced⟩ := sound.going (by rw [taken]; rfl)
    rw [taken] at status
    refine ⟨fun _ => ⟨?_, error, announced⟩, nofun, nofun,
      nofun, nofun⟩
    exact if_pos status
  | skip started ended =>
    obtain ⟨status, error, announced⟩ := sound.going (by rw [started]; rfl)
    rw [started] at status
    exact ⟨fun _ => ⟨status, error, announced⟩, nofun, nofun,
      nofun, nofun⟩
  | conclude inBody ends =>
    obtain ⟨status, error, announced⟩ := sound.going (by rw [inBody]; rfl)
    rw [inBody] at status
    exact ⟨fun _ => ⟨status, error, announced⟩, nofun, nofun,
      nofun, nofun⟩
  -- from here on the handle shows the result: what it shows is set once
  | finish returned given =>
    exact sound_of_shows (sound.shows_finish (by rw [returned]; rfl) given _) rfl
  | giveUp withdrawn given =>
    exact sound_of_shows (sound.shows_finish (by rw [withdrawn]; rfl) given _) rfl

/-- Every change of a task leaves its handle sound. -/
theorem Sound.changes (sound : t.Sound) (h : t.Changes u) : u.Sound := by
  -- before the end nothing is shown yet, so a phase may follow another
  have goes {new : Phase} (going : t.phase.isOver = false) (ended : new.isOver = false)
      (status : new.status = t.phase.status) (returned : new ≠ .returned)
      (parked : new = .parked → t.cancelled? = none) (withdrawn : new ≠ .withdrawn) :
      Sound { t with phase := new } := by
    obtain ⟨status', error, announced⟩ := sound.going going
    refine ⟨fun _ => ⟨status'.trans status.symm, error, announced⟩, fun h => ?_,
      fun h => absurd h returned, parked, fun h => absurd h withdrawn⟩
    rw [ended] at h
    cases h
  -- after the end what is shown stays, whatever the phase
  have ends {new : Phase} (old : t.phase.isOver = true) (ended : new.isOver = true) :
      Sound { t with phase := new } := by
    obtain ⟨result, shows⟩ := sound.ended old
    exact sound_of_shows ⟨shows.given, shows.status, shows.error, shows.announced⟩ ended
  cases h with
  | same => exact sound
  | inner h => exact sound.inner h
  | take h =>
    rcases h with waiting | parked
    · exact goes (by rw [waiting]; rfl) rfl (by rw [waiting]; rfl) nofun nofun nofun
    · exact goes (by rw [parked]; rfl) rfl (by rw [parked]; rfl) nofun nofun nofun
  | park waiting going =>
    exact goes (by rw [waiting]; rfl) rfl (by rw [waiting]; rfl) nofun (fun _ => going) nofun
  | withdraw waiting ended =>
    obtain ⟨status, error, announced⟩ := sound.going (by rw [waiting]; rfl)
    rw [waiting] at status
    exact ⟨fun _ => ⟨status, error, announced⟩, nofun, nofun,
      nofun, fun _ => ⟨_, ended, rfl⟩⟩
  | enter started =>
    exact goes (by rw [started]; rfl) rfl (by rw [started]; rfl) nofun nofun nofun
  | leave finished => exact ends (by rw [finished]; rfl) rfl
  | release finished => exact ends (by rw [finished]; rfl) rfl
  | depart leaving => exact ends (by rw [leaving]; rfl) rfl

/-! ### What stays -/

section Keep

variable {why : Cancellation}

/-- A task keeps its body. -/
theorem Changes.body (h : t.Changes u) : u.body = t.body := by
  cases h with
  | inner h =>
    cases h with
    | cancel => unfold Task.cancel; grind [Task.withdraw]
    | finish | giveUp => unfold Task.finish; split <;> rfl
    | _ => rfl
  | _ => rfl

/-- A context that is over stays so, for the same reason. -/
theorem Changes.cancelled? (h : t.Changes u) (ended : t.cancelled? = some why) :
    u.cancelled? = some why := by
  cases h with
  | inner h =>
    cases h with
    | cancel =>
      unfold Task.cancel
      rw [ended]
      exact ended
    | finish | giveUp =>
      unfold Task.finish
      split
      · exact ended
      · exact congrArg (Option.or · _) ended
    | _ => exact ended
  | _ => exact ended

/-- A body that was let go is not held again. -/
theorem Changes.released (h : t.Changes u) (released : t.released = true) :
    u.released = true := by
  cases h with
  | inner h =>
    cases h with
    | cancel => unfold Task.cancel; grind [Task.withdraw]
    | finish | giveUp => unfold Task.finish; split <;> exact released
    | release => rfl
    | _ => exact released
  | _ => exact released

/-- How a body ended is told once. -/
theorem Changes.told (h : t.Changes u) {ending : Ending α} (told : t.told = some ending) :
    u.told = some ending := by
  cases h with
  | inner h =>
    cases h with
    | cancel => unfold Task.cancel; grind [Task.withdraw]
    | finish | giveUp => unfold Task.finish; split <;> exact told
    | tell => exact congrArg (Option.or · _) told
    | _ => exact told
  | _ => exact told

/-- A body that is at its end stays there, with the same ending. -/
theorem Changes.ending? (h : t.Changes u) {ending : Ending α} (ends : t.ending? = some ending) :
    u.ending? = some ending := by
  unfold Task.ending? at ends ⊢
  rw [h.body]
  cases body : t.body with
  | gives | fails | crashes =>
    rw [body] at ends
    exact ends
  | waits value =>
    rw [body] at ends
    dsimp only at ends ⊢
    split at ends
    · next released => rwa [if_pos (h.released released)]
    · cases ends
  | waitsForCancel =>
    rw [body] at ends
    obtain ⟨why, ended, rfl⟩ := Option.map_eq_some_iff.mp ends
    exact Option.map_eq_some_iff.mpr ⟨why, h.cancelled? ended, rfl⟩
  | unknown =>
    rw [body] at ends
    exact h.told ends

/-- What a task results in stays. -/
theorem Changes.result? (h : t.Changes u) (known : t.phase.hasResult = true) :
    u.result? = t.result? := by
  cases h with
  | inner h =>
    cases h with
    | cancel => unfold Task.cancel; grind [Task.withdraw, Phase.hasResult]
    | finish | giveUp => unfold Task.finish; split <;> rfl
    | release | tell | start => rfl
    | skip other | conclude other => rw [other] at known; cases known
  | withdraw other => rw [other] at known; cases known
  | _ => rfl

/-- A body that is at its end stays in its last moment, or is concluded as it ends. -/
theorem Changes.concluded (h : t.Changes u) (inBody : t.phase = .inBody) {ending : Ending α}
    (ends : t.ending? = some ending) :
    u.phase = .inBody ∨ u.phase = .returned ∧ u.result? = some ending.result := by
  cases h with
  | same => exact .inl inBody
  | inner h =>
    cases h with
    | cancel why =>
      rcases phase_cancel t why with same | ⟨parked, -⟩
      · exact .inl (same.trans inBody)
      · rw [inBody] at parked
        cases parked
    | release | tell => exact .inl inBody
    | conclude _ ends' =>
      rw [ends] at ends'
      cases ends'
      exact .inr ⟨rfl, rfl⟩
    | start other | skip other | finish other | giveUp other =>
      rw [inBody] at other
      cases other
  | take other => rw [inBody] at other; rcases other with other | other <;> cases other
  | park other | withdraw other | enter other | leave other | release other | depart other =>
    rw [inBody] at other
    cases other

/-- What a finished handle shows stays. -/
theorem Changes.shown (h : t.Changes u) (ended : t.phase.isOver = true) :
    u.status = t.status ∧ u.error? = t.error? ∧ u.announced = t.announced := by
  cases h with
  | inner h =>
    cases h with
    | cancel => unfold Task.cancel; grind [Task.withdraw]
    | release | tell | skip | conclude => exact ⟨rfl, rfl, rfl⟩
    | start other | finish other | giveUp other => rw [other] at ended; cases ended
  | _ => exact ⟨rfl, rfl, rfl⟩

end Keep

/-- How a handle and its context may be later. -/
structure Later (t u : Task α) : Prop where
  status : t.status.mayBecome u.status = true
  shown : t.status.isFinal = true → u.error? = t.error? ∧ u.announced = t.announced
  cancelled? : ∀ {why}, t.cancelled? = some why → u.cancelled? = some why

/-- A task is no earlier than itself. -/
theorem Later.refl (t : Task α) : t.Later t :=
  ⟨t.status.mayBecome_refl, fun _ => ⟨rfl, rfl⟩, id⟩

/-- What comes later than something later is later. -/
theorem Later.trans {v : Task α} (h : t.Later u) (h' : u.Later v) : t.Later v := by
  refine ⟨Status.mayBecome_trans h.status h'.status, fun final => ?_, h'.cancelled? ∘ h.cancelled?⟩
  obtain ⟨error, announced⟩ := h.shown final
  have final' : u.status.isFinal = true := by rwa [Status.eq_of_mayBecome final h.status]
  obtain ⟨error', announced'⟩ := h'.shown final'
  exact ⟨error'.trans error, announced'.trans announced⟩

/-- A change leads to something later. -/
theorem Changes.later (h : t.Changes u) (sound : t.Sound) : t.Later u := by
  have sound' : u.Sound := sound.changes h
  -- what is shown at the end is shown for good; before it the status follows the phase
  cases ended : t.phase.isOver with
  | true =>
    obtain ⟨status, error, announced⟩ := h.shown ended
    exact ⟨status ▸ t.status.mayBecome_refl, fun _ => ⟨error, announced⟩, h.cancelled?⟩
  | false =>
    have going : t.status = t.phase.status := (sound.going ended).1
    refine ⟨?_, fun final => ?_, h.cancelled?⟩
    · cases ended' : u.phase.isOver with
      | true =>
        exact Status.mayBecome_of_isFinal (sound.isFinal_iff.trans ended)
          (sound'.isFinal_iff.trans ended')
      | false =>
        rw [going, (sound'.going ended').1]
        rcases h.phase with same | next
        · rw [same]
          exact t.phase.status.mayBecome_refl
        · refine (Phase.mayBecome_next _ next).resolve_right fun ended => ?_
          rw [ended] at ended'
          cases ended'
    · rw [sound.isFinal_iff, ended] at final
      cases final

/-- The task ends in this way: its body is at that end, or that is what it results in. -/
def EndsAs (t : Task α) (ending : Ending α) : Prop :=
  t.phase = .inBody ∧ t.ending? = some ending ∨
    t.phase.hasResult = true ∧ t.result? = some ending.result

/-- A task that has ended has ended in that way. -/
theorem EndsAs.changes {ending : Ending α} (ends : t.EndsAs ending) (h : t.Changes u) :
    u.EndsAs ending := by
  rcases ends with ⟨inBody, ends⟩ | ⟨known, result⟩
  · rcases h.concluded inBody ends with same | ⟨returned, result⟩
    · exact .inl ⟨same, h.ending? ends⟩
    · exact .inr ⟨by rw [returned]; rfl, result⟩
  · exact .inr ⟨h.hasResult known, (h.result? known).trans result⟩

end Task

end Lox.Pool
