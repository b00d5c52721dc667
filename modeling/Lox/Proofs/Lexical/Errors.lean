import Lox.Proofs.Lexical.Tree

/-!
The walk over a program reports exactly what is wrong with its names.
-/

namespace Lox.Scope

/-- Nothing is reported of a program if and only if nothing is wrong with any part of it. What is
reported is what is wrong, each once: a report can be told by the way to the part, no two by the
same way, and it is about the part's own token. -/
theorem errors_exact (p : Program) :
    ((resolve p).errors = [] ↔
      ∀ way spot e, p.spot.at? way = some spot → ¬ spot.Offends e) ∧
    ∃ report : List (Way × ScopeError), (report.map Prod.fst).Nodup ∧
      (∀ way e, (way, e) ∈ report ↔ ∃ spot, p.spot.at? way = some spot ∧ spot.Offends e) ∧
      (resolve p).errors.Perm (report.map Prod.snd) := by
  obtain ⟨report, once, mem, same⟩ := (accounts_resolve p).lists
  refine ⟨?_, report, once, mem, same⟩
  constructor
  · intro none way spot e here offends
    rw [none] at same
    have empty : report = [] := List.map_eq_nil_iff.mp same.nil_eq.symm
    have reported := (mem way e).mpr ⟨spot, here, offends⟩
    rw [empty] at reported
    cases reported
  · intro right
    have empty : report = [] := by
      refine List.eq_nil_iff_forall_not_mem.mpr fun ⟨way, e⟩ reported => ?_
      obtain ⟨spot, here, offends⟩ := (mem way e).mp reported
      exact right way spot e here offends
    rw [empty] at same
    exact same.eq_nil

end Lox.Scope
