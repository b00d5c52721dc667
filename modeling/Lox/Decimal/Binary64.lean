/-!
Binary floating point of 64 bits as integers: every finite magnitude is `mantissa * 2 ^ power`, and
every positive rational has a nearest magnitude, an even mantissa winning a tie.
-/

namespace Lox.Decimal

def twoTo (n : Nat) : Nat := Nat.pow 2 n

def tenTo (n : Nat) : Nat := Nat.pow 10 n

/-- What the bits of a number say. -/
inductive Shape where
  | nan
  | infinite (negative : Bool)
  /-- The magnitude `mantissa * 2 ^ power`. -/
  | finite (negative : Bool) (mantissa : Nat) (power : Int)

/-- The power of the smallest positive magnitude. -/
def leastPower : Int := -1074

/-- The bits of positive infinity. -/
def infinityBits : Nat := 2047 * twoTo 52

def shape (x : Float) : Shape :=
  let bits := x.toBits.toNat
  let negative := twoTo 63 ≤ bits
  let fraction := bits % twoTo 52
  let exponent := bits / twoTo 52 % twoTo 11
  if exponent = 2047 then
    if fraction = 0 then .infinite negative else .nan
  else if exponent = 0 then .finite negative fraction leastPower
  else .finite negative (twoTo 52 + fraction) (leastPower + (exponent - 1 : Nat))

/-- `num / den` to the nearest integer, a half going to the even one. -/
def roundHalfEven (num den : Nat) : Nat :=
  let floor := num / den
  let twice := 2 * (num % den)
  if twice < den ∨ (twice = den ∧ floor % 2 = 0) then floor else floor + 1

/-- `num / (den * 2 ^ power)` as a fraction of natural numbers. -/
def scaleDown (num den : Nat) (power : Int) : Nat × Nat :=
  if 0 ≤ power then (num, den * twoTo power.toNat) else (num * twoTo (-power).toNat, den)

/-- The power for which `num / den` has a mantissa of 53 bits, or the least one. -/
def powerOf (num den : Nat) : Int :=
  let guess : Int := num.log2 - den.log2 - 52
  let (n, d) := scaleDown num den guess
  max leastPower (if n / d < twoTo 52 then guess - 1 else guess)

/-- The bits of the magnitude nearest to `num / den`. A mantissa rounded up to the next power of
two carries into the exponent by itself, and what is too large becomes infinity. -/
def nearestBits (num den : Nat) : Nat :=
  if num = 0 then 0
  else
    let power := powerOf num den
    let (n, d) := scaleDown num den power
    min infinityBits ((power - leastPower).toNat * twoTo 52 + roundHalfEven n d)

/-- The number nearest to `num / den`. -/
def nearest (negative : Bool) (num den : Nat) : Float :=
  .ofBits (.ofNat ((if negative then twoTo 63 else 0) + nearestBits num den))

end Lox.Decimal
