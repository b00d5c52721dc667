import Lox.Decimal.Binary64

/-!
The decimal with the fewest digits that reads back as a given number, and of those the nearest.
-/

namespace Lox

/-- The number `digits * 10 ^ power`. -/
structure Decimal where
  digits : Nat
  power : Int

namespace Decimal

/-- The rounding interval of a magnitude, as multiples of `1 / den`. -/
structure Interval where
  low : Nat
  value : Nat
  high : Nat
  den : Nat
  /-- Whether the two ends round to the value as well. -/
  closed : Bool

/-- What rounds to `mantissa * 2 ^ power`. Below a power of two the neighbour is only half as far
away; an even mantissa wins both ties. -/
def Interval.of (mantissa : Nat) (power : Int) : Interval :=
  let below := if mantissa = twoTo 52 ∧ power > leastPower then 1 else 2
  let unit := if power ≥ 2 then twoTo (power - 2).toNat else 1
  { low := (4 * mantissa - below) * unit
    value := 4 * mantissa * unit
    high := (4 * mantissa + 2) * unit
    den := if power ≥ 2 then 1 else twoTo (2 - power).toNat
    closed := mantissa % 2 = 0 }

/-- `num / den` lies in the interval. -/
def Interval.holds (i : Interval) (num den : Nat) : Bool :=
  let x := num * i.den
  let low := i.low * den
  let high := i.high * den
  if i.closed then low ≤ x && x ≤ high else low < x && x < high

/-- The multiple of `10 ^ power` in the interval that is nearest to its value. Only the two
neighbours of the value have to be tried. -/
def Interval.multiple? (i : Interval) (power : Int) : Option Nat :=
  let num := if power ≥ 0 then tenTo power.toNat else 1
  let den := if power ≥ 0 then 1 else tenTo (-power).toNat
  let below := i.value * den / (i.den * num)
  let isIn (d : Nat) : Bool := d ≠ 0 && i.holds (d * num) den
  match isIn below, isIn (below + 1) with
  | true, true => some (roundHalfEven (i.value * den) (i.den * num))
  | true, false => some below
  | false, true => some (below + 1)
  | false, false => none

/-- The first of the powers `power`, `power - 1`, … that has a multiple in the interval. -/
def Interval.coarsest (i : Interval) : Nat → Int → Decimal
  | 0, power => ⟨0, power⟩
  | n + 1, power =>
    match i.multiple? power with
    | some digits => ⟨digits, power⟩
    | none => coarsest i n (power - 1)

/-- An exponent of ten that is not below the magnitude of `mantissa * 2 ^ power`: a power of two is
at most that many times 0.30103. -/
def ceilingPower (mantissa : Nat) (power : Int) : Int :=
  (mantissa.log2 + 1 + power) * 30103 / 100000 + 1

/-- The shortest decimal of a magnitude. Seventeen digits tell any two numbers apart, so twenty
powers from the top are enough. -/
def shortest (mantissa : Nat) (power : Int) : Decimal :=
  if mantissa = 0 then ⟨0, 0⟩
  else (Interval.of mantissa power).coarsest 20 (ceilingPower mantissa power)

end Decimal

end Lox
