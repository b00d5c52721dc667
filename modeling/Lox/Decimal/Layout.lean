import Lox.Decimal.Shortest

/-!
How numbers are written: the shortest digits, laid out with a point or with an exponent.
-/

namespace Lox.Decimal

def digitChars (d : Decimal) : List Char := Nat.toDigits 10 d.digits

/-- The exponent when one digit stands before the point. -/
def exponent (d : Decimal) : Int := d.digitChars.length - 1 + d.power

/-- All digits, with a point where it falls. -/
def positional (d : Decimal) : String :=
  let digits := d.digitChars
  if d.digits = 0 then "0"
  else if 0 ≤ d.power then
    String.ofList (digits ++ List.replicate d.power.toNat '0')
  else
    let places := (-d.power).toNat
    if places < digits.length then
      let whole := digits.length - places
      String.ofList (digits.take whole ++ '.' :: digits.drop whole)
    else
      String.ofList ('0' :: '.' :: List.replicate (places - digits.length) '0' ++ digits)

/-- One digit before the point, then an exponent with a sign and at least `width` digits. -/
def scientific (width : Nat) (d : Decimal) : String :=
  let point := match d.digitChars with
    | first :: rest@(_ :: _) => first :: '.' :: rest
    | digits => digits
  let sign := if d.exponent < 0 then '-' else '+'
  let digits := Nat.toDigits 10 d.exponent.natAbs
  String.ofList (point ++ 'e' :: sign :: List.replicate (width - digits.length) '0' ++ digits)

/-- The decisions of a number format. -/
structure Layout where
  /-- Exponents below this one are written in scientific notation. -/
  least : Int
  /-- Exponents from this one on are written in scientific notation. -/
  limit : Int
  /-- The least number of exponent digits. -/
  width : Nat
  nan : String
  infinity : String
  negativeInfinity : String

/-- The text of a finite decimal. -/
def Layout.text (l : Layout) (d : Decimal) : String :=
  if d.digits ≠ 0 ∧ (d.exponent < l.least ∨ l.limit ≤ d.exponent) then d.scientific l.width
  else d.positional

/-- The text of a number; a negative zero keeps its sign. -/
def Layout.number (l : Layout) (x : Float) : String :=
  match shape x with
  | .nan => l.nan
  | .infinite negative => if negative then l.negativeInfinity else l.infinity
  | .finite negative mantissa power =>
    (if negative then "-" else "") ++ l.text (shortest mantissa power)

/-- Never an exponent: no finite number reaches one of these bounds. -/
def plain : Layout :=
  { least := -1000, limit := 1000, width := 2
    nan := "nan", infinity := "inf", negativeInfinity := "-inf" }

end Lox.Decimal
