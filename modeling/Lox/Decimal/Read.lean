import Lox.Decimal.Shortest

/-!
Reading a decimal: the nearest number to what it says.
-/

namespace Lox.Decimal

/-- The value of a sequence of decimal digits. -/
def ofDigits (cs : List Char) : Nat :=
  cs.foldl (fun n c => 10 * n + (c.toNat - '0'.toNat)) 0

/-- The number nearest to a decimal. -/
def toFloat (negative : Bool) (d : Decimal) : Float :=
  if 0 ≤ d.power then nearest negative (d.digits * tenTo d.power.toNat) 1
  else nearest negative d.digits (tenTo (-d.power).toNat)

/-- The decimal that digits around an optional point spell. -/
def ofSpelling (cs : List Char) : Decimal :=
  let whole := cs.takeWhile (· ≠ '.')
  let fraction := (cs.dropWhile (· ≠ '.')).drop 1
  ⟨ofDigits (whole ++ fraction), -fraction.length⟩

/-- The number that digits around an optional point spell; none when it is beyond all finite
numbers. -/
def read? (cs : List Char) : Option Float :=
  let x := (ofSpelling cs).toFloat false
  if x.isInf then none else some x

end Lox.Decimal
