import Lox.Text.Table

/-!
Sets of characters given by ranges of code points.
-/

namespace Lox.Text

structure CharSet where
  ranges : Array (Nat × Nat)

namespace CharSet

/-- Reads a table of ranges. -/
def ofLines (lines : List String) : CharSet :=
  ⟨(lines.flatMap wordsOf).toArray.map hexRange⟩

def contains (s : CharSet) (c : Char) : Bool :=
  s.ranges.any fun (first, last) => first ≤ c.toNat && c.toNat ≤ last

end CharSet

end Lox.Text
