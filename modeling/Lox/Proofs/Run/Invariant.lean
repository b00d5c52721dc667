import Lox.Proofs.Native.Perform

/-!
Invariants of runs. An invariant comes with the way in which states grow, so that what is known of a
value at one moment can be carried on to later ones.
-/

namespace Lox

/-- What holds in every state, and what is never taken back. -/
structure Invariant (σ : Type) where
  holds : σ → Prop
  grows : σ → σ → Prop
  refl : ∀ s, grows s s
  trans : ∀ {s t u}, grows s t → grows t u → grows s u

namespace Invariant

variable {σ α β : Type} {I : Invariant σ} {stops : Stop → Prop} {s : σ}

/-- From a state on, the part of a run keeps the invariant. What it gives satisfies `post`, and if
it stops, the stop satisfies `stops`. -/
structure Safe (I : Invariant σ) (stops : Stop → Prop) (s : σ) (act : EStateM Stop σ α)
    (post : α → σ → Prop) : Prop where
  ok : ∀ a t, act s = .ok a t → I.grows s t ∧ I.holds t ∧ post a t
  error : ∀ stop t, act s = .error stop t → I.grows s t ∧ I.holds t ∧ stops stop

section Safe

variable {act : EStateM Stop σ α} {post : α → σ → Prop}

/-- A part that comes to its end is safe if its end is as it has to be. -/
theorem safe_of_ok {a : α} {t : σ} (run : act s = .ok a t) (grows : I.grows s t)
    (holds : I.holds t) (h : post a t) : I.Safe stops s act post := by
  constructor
  · intro b u run'
    rw [run] at run'
    cases run'
    exact ⟨grows, holds, h⟩
  · intro stop u run'
    rw [run] at run'
    cases run'

theorem safe_pure (holds : I.holds s) {a : α} (h : post a s) : I.Safe stops s (pure a) post :=
  safe_of_ok rfl (I.refl s) holds h

theorem safe_throw (holds : I.holds s) {stop : Stop} (h : stops stop) :
    I.Safe stops s (throw stop) post := by
  constructor
  · intro a t run
    cases run
  · intro stop t run
    cases run
    exact ⟨I.refl s, holds, h⟩

/-- To look at the state is safe if what follows is safe from that state. -/
theorem safe_get {next : σ → EStateM Stop σ α} (h : I.Safe stops s (next s) post) :
    I.Safe stops s (get >>= next) post :=
  ⟨h.ok, h.error⟩

/-- A part that stops for few reasons is one that stops for more. -/
theorem Safe.weaken {stops' : Stop → Prop} (h : I.Safe stops s act post)
    (imp : ∀ stop, stops stop → stops' stop) : I.Safe stops' s act post := by
  refine ⟨h.ok, fun stop t run => ?_⟩
  obtain ⟨grows, holds, allowed⟩ := h.error stop t run
  exact ⟨grows, holds, imp stop allowed⟩

/-- What is known of the end may be weakened. -/
theorem Safe.imp {post' : α → σ → Prop} (h : I.Safe stops s act post)
    (imp : ∀ a t, post a t → post' a t) : I.Safe stops s act post' := by
  refine ⟨fun a t run => ?_, h.error⟩
  obtain ⟨grows, holds, given⟩ := h.ok a t run
  exact ⟨grows, holds, imp a t given⟩

/-- Safe parts are safe one after the other. -/
theorem Safe.bind {next : α → EStateM Stop σ β} {post' : β → σ → Prop}
    (h : I.Safe stops s act post)
    (hnext : ∀ a t, I.grows s t → I.holds t → post a t → I.Safe stops t (next a) post') :
    I.Safe stops s (act >>= next) post' := by
  cases run : act s with
  | ok a t =>
    obtain ⟨grows, holds, given⟩ := h.ok a t run
    have step : (act >>= next) s = next a t := by
      rw [Run.bind_apply, run]
    -- the invariant holds between the parts
    have after := hnext a t grows holds given
    refine ⟨fun b u done => ?_, fun stop u done => ?_⟩
    · rw [step] at done
      obtain ⟨grows', rest⟩ := after.ok b u done
      exact ⟨I.trans grows grows', rest⟩
    · rw [step] at done
      obtain ⟨grows', rest⟩ := after.error stop u done
      exact ⟨I.trans grows grows', rest⟩
  | error stop t =>
    have step : (act >>= next) s = .error stop t := by
      rw [Run.bind_apply, run]
    refine ⟨fun b u done => ?_, fun stop' u done => ?_⟩
    · rw [step] at done
      cases done
    · rw [step] at done
      cases done
      exact h.error stop t run

theorem Safe.discard (h : I.Safe stops s act post) :
    I.Safe stops s (Functor.discard act) fun _ _ => True := by
  have same := Run.discard_apply act s
  have bound : I.Safe stops s (act >>= fun _ => pure ()) fun _ _ => True :=
    h.bind fun _ _ _ holds _ => safe_pure holds trivial
  exact ⟨fun a t run => bound.ok a t (same ▸ run), fun stop t run => bound.error stop t (same ▸ run)⟩

/-- A part that goes on after a problem keeps what it keeps, and stops for want of fuel only. -/
theorem Safe.attempt (h : I.Safe stops s act post) :
    I.Safe stops s (Run.attempt act) fun r t =>
      (∀ a, r = .ok a → post a t) ∧ ∀ p, r = .error p → stops p.stop := by
  cases run : act s with
  | ok a t =>
    obtain ⟨grows, holds, given⟩ := h.ok a t run
    have step : Run.attempt act s = .ok (.ok a) t := by
      rw [Run.attempt_apply, run]
    refine safe_of_ok step grows holds ⟨?_, fun _ h => (nomatch h)⟩
    rintro _ ⟨⟩
    exact given
  | error stop t =>
    obtain ⟨grows, holds, allowed⟩ := h.error stop t run
    -- out of fuel is no problem, and is not caught
    cases found : stop.problem? with
    | some p =>
      have step : Run.attempt act s = .ok (.error p) t := by
        rw [Run.attempt_apply, run]
        dsimp only
        rw [found]
      refine safe_of_ok step grows holds ⟨fun _ h => (nomatch h), ?_⟩
      rintro _ ⟨⟩
      rwa [Run.stop_of_problem? found]
    | none =>
      have step : Run.attempt act s = .error stop t := by
        rw [Run.attempt_apply, run]
        dsimp only
        rw [found]
      constructor
      · intro a u run'
        rw [step] at run'
        cases run'
      · intro stop' u run'
        rw [step] at run'
        cases run'
        exact ⟨grows, holds, allowed⟩

end Safe

/-- What holds of a value at some moment, whatever a host does with it: it holds of plain values,
and goes on to hold. -/
structure Lasting (I : Invariant σ) (good : σ → Value → Prop) : Prop where
  plain : ∀ s v, v.isPlain = true → good s v
  mono : ∀ {s t v}, I.grows s t → good s v → good t v

/-- A native is given good values, and gives and hands on no others; the problems that it passes on
are those it met. -/
theorem safe_perform {good : σ → Value → Prop} (lasting : I.Lasting good)
    (fails : ∀ message, stops (.unplaced (.native message)))
    (refuses : ∀ kind, stops (.unplaced (.notCallable kind)))
    {invoke : Callable → List Value → EStateM Stop σ Value}
    (call : ∀ {t : σ} {f : Callable} {args : List Value}, I.holds t → good t f.value →
      (∀ v ∈ args, good t v) → I.Safe stops t (invoke f args) fun v u => good u v)
    (holds : I.holds s) {given : List Value} (hgiven : ∀ v ∈ given, good s v) {met : List Problem}
    (hmet : ∀ p ∈ met, stops p.stop) (reply : Reply) :
    I.Safe stops s (Run.perform invoke given met reply) fun v t => good t v := by
  -- The reply is a tree; what was given stays good while the state grows along a branch of it.
  induction reply generalizing s given met with
  | answer d => exact safe_pure holds (d.holds (lasting.plain s) hgiven)
  | fail message => exact safe_throw holds (fails message)
  | pass i =>
    unfold Run.perform
    cases found : met[i]? with
    | some p => exact safe_throw holds (hmet p (List.mem_of_getElem? found))
    | none => exact safe_pure holds (lasting.plain s _ rfl)
  | call callee args resume ih =>
    have asked : I.Safe stops s (Run.request invoke (callee.value given) (args.map (·.value given)))
        fun r t => (∀ v, r = .ok v → good t v) ∧ ∀ p, r = .error p → stops p.stop := by
      unfold Run.request
      cases found : (callee.value given).callable? with
      | none =>
        refine safe_pure holds ⟨?_, ?_⟩
        · rintro _ ⟨⟩
        · rintro _ ⟨⟩
          exact refuses _
      | some f =>
        refine (call holds ?_ (Datum.holds_map (lasting.plain s) hgiven args)).attempt
        rw [← Value.callable?_eq_some found]
        exact callee.holds (lasting.plain s) hgiven
    unfold Run.perform
    refine asked.bind fun r t grows holds' answered => ?_
    have kept (v : Value) (mem : v ∈ given) : good t v := lasting.mono grows (hgiven v mem)
    cases r with
    | ok v =>
      refine ih _ holds' (List.forall_mem_append.mpr ⟨kept, ?_⟩) hmet
      exact List.forall_mem_singleton.mpr (answered.1 v rfl)
    | error p =>
      refine ih _ holds' kept (List.forall_mem_append.mpr ⟨hmet, ?_⟩)
      exact List.forall_mem_singleton.mpr (answered.2 p rfl)

end Invariant

/-- The stop is at a token of `S`; one that no call has placed yet is to be expected if `free`. -/
def Stop.From (S : Token → Prop) (free : Prop) : Stop → Prop
  | .raised token _ => S token
  | .unplaced _ => free
  | .outOfFuel => True

/-- Where stops without a place are allowed, all are allowed that were before. -/
theorem Stop.From.loosen {S : Token → Prop} {free : Prop} {stop : Stop} (h : stop.From S free) :
    stop.From S True := by
  cases stop with
  | unplaced => trivial
  | _ => exact h

/-- A call in the program places what no other call has placed. -/
theorem Stop.From.placed {S : Token → Prop} {free free' : Prop} {stop : Stop}
    (h : stop.From S free) {token : Token} (known : S token) :
    (Run.Stop.placed token stop).From S free' := by
  cases stop with
  | raised => exact h
  | unplaced => exact known
  | outOfFuel => trivial

end Lox
