import Lox.Proofs.Run.Output
import Lox.Proofs.Session.Graph
import Lox.Proofs.Session.Join

/-!
Output that fails, and where errors belong. A sink that takes only so many lines cuts what a run
prints at the first line that it does not take, whatever the natives do. Unless a native that is
told of it goes on, the run stops there, and the fault belongs to the innermost call that is going
on. While the output does not fail, every fault of a run belongs to a token of a program of the
session.
-/

namespace Lox

open Source

namespace Session

/-- The lines that a program tries to print in the session. -/
def attempts (s : Session) (p : Program) : List Attempt :=
  (Trace.final (Trace.program s.machine p { world := s.world })).attempts

end Session

namespace Trace

variable {capacity : Nat} {reason : String}

section Programs

variable (m m' : Machine) (unlimited : m.sink = {})
  (limited : m'.sink = { capacity := some capacity, reason }) (depth : m'.maxDepth = m.maxDepth)
  (natives : m'.natives = m.natives) (fuel : m'.fuel = m.fuel)
include unlimited limited depth natives fuel

end Programs

variable {act act' : Trace Unit} {w : World} {n : Nat}

/-- All lines are printed that are tried. -/
theorem AllPrinted.top (h : AllPrinted act) :
    (final (act { world := w })).world.printed.toList =
      w.printed.toList ++ (final (act { world := w })).attempts.map (·.line) := by
  obtain ⟨all, prints⟩ := h { world := w }
  rw [show (final (act { world := w })).attempts = all from prints.attempts]
  exact prints.printed

/-- A run whose output is cut after so many lines is the whole run if it prints no more than these,
and otherwise prints just these. -/
theorem Fills.top (h : Fills (w.printed.size + n) act act') :
    ((final (act { world := w })).attempts.length ≤ n →
        act' { world := w } = act { world := w }) ∧
      (n < (final (act { world := w })).attempts.length →
        (final (act' { world := w })).world.printed.toList =
          w.printed.toList ++ ((final (act { world := w })).attempts.take n).map (·.line)) := by
  have shown := h.prints.top (w := w)
  have size : (final (act { world := w })).world.printed.size =
      w.printed.size + (final (act { world := w })).attempts.length := by
    rw [← Array.length_toList, shown, List.length_append, List.length_map, Array.length_toList]
  rcases h.parts { world := w } (Nat.le_add_right _ _) with ⟨same, room⟩ | ⟨full, more, shared⟩
  · refine ⟨fun _ => same.symm, fun long => ?_⟩
    omega
  · refine ⟨fun few => ?_, fun _ => ?_⟩
    · omega
    · rw [List.prefix_iff_eq_take.mp shared, Array.length_toList, full, shown, List.map_take,
        ← @Array.length_toList _ w.printed, List.take_length_add_append]

/-- Outside of all calls, a run that is cut after so many lines stops at the next one. -/
theorem Cuts.top {natives : Natives} (h : Cuts natives (w.printed.size + n) reason [] act act')
    (heeded : ¬ (final (act' { world := w })).Ignores natives (Mishap.OfOutput reason)) {last : Attempt}
    (found : (final (act { world := w })).attempts[n]? = some last) :
    ∃ t, act' { world := w } = .error (Stop.located last.going (.output reason)) t ∧
      t.attempts = (final (act { world := w })).attempts.take (n + 1) := by
  have shown := h.prints.top (w := w)
  obtain ⟨here, -⟩ := List.getElem?_eq_some_iff.mp found
  rcases h.parts { world := w } (Nat.le_add_right _ _) with
    ⟨same, room⟩ | ⟨inner, new, last', fails⟩ | ignored
  · rw [← Array.length_toList, shown, List.length_append, List.length_map,
      Array.length_toList] at room
    omega
  -- the sink was full just when the line failed, so as many were printed as fit
  · have count : new.length = n := by
      have full := fails.full
      rw [← Array.length_toList, fails.printed, List.length_append, List.length_map,
        Array.length_toList] at full
      exact Nat.add_left_cancel full
    have tried : (final (act' { world := w })).attempts = new ++ [last'] := fails.attempts
    obtain ⟨more, split⟩ := fails.proceeds
    rw [tried] at split
    subst count
    rw [← split, List.append_assoc, List.getElem?_append_right (Nat.le_refl _), Nat.sub_self] at found
    cases found
    have going : inner = last.going := by rw [fails.going, List.append_nil]
    refine ⟨final (act' { world := w }), going ▸ fails.stops, ?_⟩
    rw [tried, ← split, List.take_left' (by simp)]
  · exact absurd ignored heeded

end Trace

namespace Session

end Session

end Lox
