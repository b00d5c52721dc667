import Lox.Decimal.Read

/-!
Numbers in documents.
-/

namespace Lox.Document

/-- The value of a digit in bases up to sixteen. -/
def digit? (base : Nat) (c : Char) : Option Nat :=
  let value :=
    if '0' ≤ c ∧ c ≤ '9' then some (c.toNat - '0'.toNat)
    else if 'a' ≤ c ∧ c ≤ 'f' then some (c.toNat - 'a'.toNat + 10)
    else if 'A' ≤ c ∧ c ≤ 'F' then some (c.toNat - 'A'.toNat + 10)
    else none
  value.filter (· < base)

def isDigit (c : Char) : Bool := (digit? 10 c).isSome

def digitsFrom (base acc : Nat) : List Char → Option Nat
  | [] => some acc
  | c :: rest => (digit? base c).bind fun d => digitsFrom base (acc * base + d) rest

/-- The number that digits of a base spell; there has to be one. -/
def digits? (base : Nat) : List Char → Option Nat
  | [] => none
  | cs => digitsFrom base 0 cs

/-- Digits with the mark of their base; a leading zero marks base eight where `octal` says so. -/
def natural? (octal : Bool) : List Char → Option Nat
  | '0' :: 'x' :: rest => digits? 16 rest
  | '0' :: 'o' :: rest => digits? 8 rest
  | '0' :: 'b' :: rest => digits? 2 rest
  | '0' :: rest@(_ :: _) => if octal then digits? 8 rest else none
  | cs => digits? 10 cs

/-- The numbers that a field can hold. -/
def inRange (n : Int) : Bool := -9223372036854775808 ≤ n && n ≤ 9223372036854775807

/-- Takes the sign off a number: whether it is negative, and the rest. -/
def cutSign : List Char → Bool × List Char
  | '-' :: rest => (true, rest)
  | '+' :: rest => (false, rest)
  | cs => (false, cs)

/-- An integer with an optional sign. -/
def integer? (octal : Bool) (cs : List Char) : Option Int :=
  let (negative, cs) := cutSign cs
  ((natural? octal cs).map fun n => if negative then -(n : Int) else n).filter inRange

/-! ### Decimals -/

/-- Digits around an optional point, at least one of them. -/
def isDecimal (cs : List Char) : Bool :=
  match cs.dropWhile isDigit with
  | [] => !cs.isEmpty
  | '.' :: fraction => fraction.all isDigit && cs.length ≠ 1
  | _ => false

/-- The power of ten that an exponent with its mark stands for. -/
def exponent? : List Char → Option Int
  | [] => some 0
  | _ :: cs =>
    let (negative, cs) := cutSign cs
    (digits? 10 cs).map fun n => if negative then -(n : Int) else n

/-- How many digits a number has. -/
def digitCount (n : Nat) : Nat := (Nat.toDigits 10 n).length

/-- The number nearest to a decimal times a power of ten, unless it is too large. Powers are only
worked out where they matter. -/
def scaled? (negative : Bool) (d : Decimal) (e : Int) : Option Float :=
  let top := digitCount d.digits + d.power + e
  if d.digits = 0 || top < -400 then some 0
  else if 400 < top then none
  else
    let x := Decimal.toFloat negative { d with power := d.power + e }
    if x.isInf then none else some x

/-- The number that a decimal with an optional sign and an optional exponent spells. -/
def decimalOfWord? (cs : List Char) : Option Float :=
  let (negative, cs) := cutSign cs
  let mantissa := cs.takeWhile (· ≠ 'e')
  if isDecimal mantissa then
    (exponent? (cs.dropWhile (· ≠ 'e'))).bind (scaled? negative (Decimal.ofSpelling mantissa))
  else none

/-- A number without its fraction, where it is at most one more than a field can hold, which comes
out as the least that a field can hold. So does all that is below. -/
def truncated? (x : Float) : Option Int :=
  if x < 9223372036854775808 then some x.toInt64.toInt
  else if x ≤ 9223372036854775808 then some (-9223372036854775808)
  else none

/-! ### Words -/

/-- Words for what is beyond all numbers. -/
def lowerBounds : List String := ["-.inf", "-.Inf", "-.INF"]

/-- A word as it is read: case does not matter, nor do underscores after a digit or a sign. -/
def plainWord (cs : List Char) : List Char :=
  (if cs.head? = some '.' then cs else cs.filter (· ≠ '_')).map Char.toLower

/-- Whether a word starts like a number. -/
def startsNumber (cs : List Char) : Bool :=
  cs.head?.any fun c => isDigit c || c = '+' || c = '-' || c = '.'

/-- Digits after a mark of base two or eight that comes before the sign. -/
def afterMark? (cs : List Char) : Option Int :=
  match cs with
  | '0' :: 'b' :: rest => signed? 2 (rest.filter (· ≠ '_'))
  | '0' :: 'o' :: rest => signed? 8 (rest.filter (· ≠ '_'))
  | _ => none
where
  signed? (base : Nat) (cs : List Char) : Option Int :=
    let (negative, cs) := cutSign cs
    ((digits? base cs).map fun n => if negative then -(n : Int) else n).filter inRange

/-- The integer that a word spells. Without a sign it may be twice as large as a field can hold. -/
def wholeOfWord? (cs : List Char) : Option Int :=
  match integer? true (plainWord cs) with
  | some n => some n
  | none =>
    match ((natural? true (plainWord cs)).filter (· < Decimal.twoTo 64)).map Int.ofNat with
    | some n => some n
    | none => afterMark? cs

/-- The integer that a word stands for in a field; a decimal counts without its fraction. -/
def integerOfWord? (cs : List Char) : Option Int :=
  if !startsNumber cs then none
  else if lowerBounds.contains (String.ofList cs) then some (-9223372036854775808)
  else
    match wholeOfWord? cs with
    | some n => some n |>.filter inRange
    | none => (decimalOfWord? (plainWord cs)).bind truncated?

def isIntegerWord (cs : List Char) : Bool := startsNumber cs && (wholeOfWord? cs).isSome

/-- Words for what is no number that digits can spell. -/
def unspelled : List String :=
  lowerBounds ++ [".inf", ".Inf", ".INF", "+.inf", "+.Inf", "+.INF", ".nan", ".NaN", ".NAN"]

def isNumberWord (cs : List Char) : Bool :=
  isIntegerWord cs || unspelled.contains (String.ofList cs)
    || (startsNumber cs && (decimalOfWord? (plainWord cs)).isSome)

end Lox.Document
