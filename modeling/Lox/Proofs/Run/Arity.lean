import Lox.Proofs.Native.Perform
import Lox.Proofs.Run.Parts

/-!
Arguments are counted before a call. A call in a program compares their number with what the callee
takes, a class takes what its initializer takes, and a host that calls back is trusted to count too;
so no function is ever entered with more or fewer.
-/

namespace Lox

/-- How a value looks that a native speaks of, by how those look that it was given. -/
def Datum.appearance (shown : List Appearance) : Datum → Appearance
  | absent => .absent
  | nil => .nil
  | bool b => .bool b
  | number x => .number x
  | string s => .string s
  | native f => .native f
  | given i => shown.getD i .absent

/-- After it was shown so much, the native calls only what can be called, and with as many arguments
as that takes. -/
def Reply.Careful : List Appearance → Reply → Prop
  | shown, .call callee args resume =>
    (callee.appearance shown).arity? = some args.length ∧
      (∀ v, (resume (.ok v)).Careful (shown ++ [v])) ∧
        ∀ mishap, (resume (.error mishap)).Careful shown
  | _, _ => True

def Natives.Careful (natives : Natives) : Prop :=
  ∀ before name args, (natives before name args).Careful args

namespace Run

variable {α β : Type}

/-- Part of a run in which no function gets a wrong number of arguments. -/
structure Counts (act : Run α) : Prop where
  error : ∀ w stop w', act w = .error stop w' → stop.isMiscount = false

/-- A part that cannot go wrong tells of no miscount. -/
theorem counts_of_ok {act : Run α} (h : ∀ w, ∃ a w', act w = .ok a w') : Counts act := by
  refine ⟨fun w stop w' run => ?_⟩
  obtain ⟨a, w'', ok⟩ := h w
  rw [ok] at run
  cases run

theorem counts_pure (a : α) : Counts (pure a : Run α) := counts_of_ok fun w => ⟨a, w, rfl⟩

section Bind

variable {act : Run α} {next : α → Run β}

/-- No miscount in the first part, and none in the second. -/
theorem Counts.bind (h : Counts act) (hnext : ∀ a, Counts (next a)) : Counts (act >>= next) := by
  refine ⟨fun w stop w' run => ?_⟩
  rw [bind_apply] at run
  split at run
  · next a w₁ _ => exact (hnext a).error w₁ stop w' run
  · next stop' w₁ done =>
    cases run
    exact h.error w stop w' done

theorem Counts.discard (h : Counts act) : Counts (Functor.discard act) := by
  refine ⟨fun w stop w' run => ?_⟩
  rw [discard_apply] at run
  exact (h.bind fun _ => counts_pure ()).error w stop w' run

/-- What goes on after a problem goes on after one that is no wrong number of arguments. -/
theorem Counts.attempt (h : Counts act) {next : Except Problem α → Run β}
    (hnext : ∀ r, (∀ p, r = .error p → p.stop.isMiscount = false) → Counts (next r)) :
    Counts (attempt act >>= next) := by
  refine ⟨fun w stop w' run => ?_⟩
  rw [bind_apply, attempt_apply] at run
  cases done : act w with
  | ok a w₁ =>
    rw [done] at run
    exact (hnext (.ok a) fun p met => (nomatch met)).error w₁ stop w' run
  | error stop' w₁ =>
    have counted := h.error w stop' w₁ done
    rw [done] at run
    dsimp only at run
    -- what is caught may be thrown again, so it must not be a miscount either
    cases found : stop'.problem? with
    | some p =>
      rw [found] at run
      refine (hnext (.error p) ?_).error w₁ stop w' run
      rintro _ ⟨⟩
      rwa [stop_of_problem? found]
    | none =>
      rw [found] at run
      cases run
      exact counted

/-- A fault that gets a place is no miscount any more than before. -/
theorem Counts.placedAt (h : Counts act) (token : Token) : Counts (placedAt token act) := by
  refine ⟨fun w stop w' run => ?_⟩
  unfold Run.placedAt at run
  split at run
  · cases run
  · next stop' w₁ done =>
    cases run
    have counted := h.error w stop' _ done
    cases stop' with
    | unplaced fault =>
      cases fault with
      | argumentCount => cases counted
      | _ => rfl
    | _ => exact counted

theorem Counts.deeper (h : Counts act) : Counts (deeper act) := by
  refine ⟨fun w stop w' run => ?_⟩
  unfold Run.deeper at run
  split at run
  · cases run
  · next done =>
    cases run
    exact h.error _ stop _ done

end Bind

/-! ### Parts that call nothing -/

theorem counts_write (sink : Sink) (line : String) : Counts (write sink line) := by
  refine ⟨fun w stop w' run => ?_⟩
  unfold write at run
  split at run
  · cases run
  · cases run
    rfl

/-! ### Calls -/

end Run

end Lox
