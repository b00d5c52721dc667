import Lox.Proofs.Native.Given
import Lox.Proofs.Run.Internal
import Lox.Run.Member

/-!
Natives at work. A native is run along its reply, one call after the other, in every form that
evaluation takes; so what two forms have in common they keep when they run a native.
-/

namespace Lox.Run

variable {σ τ α β : Type}

/-- A problem keeps all of the stop that it was made from. -/
theorem stop_of_problem? {stop : Stop} {p : Problem} (h : stop.problem? = some p) :
    p.stop = stop := by
  cases stop <;> cases h <;> rfl

/-- Every problem can be told of. -/
theorem Problem.problem?_stop (p : Problem) : p.stop.problem? = some p := by
  obtain ⟨token, fault⟩ := p
  cases token <;> rfl

theorem attempt_apply (act : EStateM Stop σ α) (s : σ) :
    attempt act s = match act s with
      | .ok a t => .ok (.ok a) t
      | .error stop t =>
        match stop.problem? with
        | some p => .ok (.error p) t
        | none => .error stop t := by
  unfold attempt
  cases act s <;> rfl

/-- What comes after a part that meets a problem is told of it. -/
theorem attempt_bind_of_error {act : EStateM Stop σ α} {s t : σ} {p : Problem}
    (stops : act s = .error p.stop t) (next : Except Problem α → EStateM Stop σ β) :
    (attempt act >>= next) s = next (.error p) t := by
  rw [bind_apply, attempt_apply, stops]
  dsimp only
  rw [Problem.problem?_stop]

section Relation

variable {R : EStateM Stop σ Value → EStateM Stop τ Value → Prop}
  {invoke : Callable → List Value → EStateM Stop σ Value}
  {invoke' : Callable → List Value → EStateM Stop τ Value} {P : Mishap → Prop}

/-- Two runs of a native are related if what it calls is, unless it goes on after a problem of which
that cannot be said. -/
theorem rel_perform (answer : ∀ v, R (pure v) (pure v))
    (stops : ∀ stop, R (throw stop) (throw stop))
    (call : ∀ f args {next : Except Problem Value → EStateM Stop σ Value}
      {next' : Except Problem Value → EStateM Stop τ Value}, (∀ r, R (next r) (next' r)) →
      (∀ p : Problem, P p.mishap → next (.error p) = throw p.stop ∧ next' (.error p) = throw p.stop) →
      R (attempt (invoke f args) >>= next) (attempt (invoke' f args) >>= next'))
    (given : List Value) (met : List Problem) (reply : Reply)
    (passes : reply.PassesOn P met.length) :
    R (perform invoke given met reply) (perform invoke' given met reply) := by
  -- on the reply, which both sides share
  induction reply generalizing given met with
  | answer d => exact answer _
  | fail message => exact stops _
  | pass i =>
    unfold perform
    cases met[i]? with
    | some p => exact stops _
    | none => exact answer _
  | call callee args resume ih =>
    obtain ⟨resumes, rescues⟩ := passes
    -- whatever the call came to, both go on by the same part of the reply
    have resumed (v : Value) : R (perform invoke (given ++ [v]) met (resume (.ok v.appearance)))
        (perform invoke' (given ++ [v]) met (resume (.ok v.appearance))) :=
      ih _ _ _ (resumes _)
    have rescued (p : Problem) :
        R (perform invoke given (met ++ [p]) (resume (.error p.mishap)))
          (perform invoke' given (met ++ [p]) (resume (.error p.mishap))) :=
      ih _ _ _ (by rw [List.length_append]; exact (rescues _).2)
    unfold perform request
    cases (callee.value given).callable? with
    | none => exact rescued _
    | some f =>
      refine call f _ (fun r => ?_) fun p passed => ?_
      · cases r with
        | ok v => exact resumed v
        | error p => exact rescued p
      · dsimp only
        rw [(rescues p.mishap).1 passed]
        unfold perform
        -- the problem met last is the one that is passed on
        rw [List.getElem?_append_right (Nat.le_refl _), Nat.sub_self]
        exact ⟨rfl, rfl⟩

end Relation

end Lox.Run
