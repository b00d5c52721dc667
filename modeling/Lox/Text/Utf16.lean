/-!
Texts of units of two bytes.
-/

namespace Lox.Text

/-- The units of a sequence of bytes, high byte first where `big` says so; a byte cannot be left
over. -/
def units? (big : Bool) : List UInt8 → Option (List Nat)
  | [] => some []
  | [_] => none
  | a :: b :: rest =>
    let unit := if big then a.toNat * 256 + b.toNat else b.toNat * 256 + a.toNat
    (units? big rest).map (unit :: ·)

def isHighSurrogate (n : Nat) : Bool := 0xD800 ≤ n && n < 0xDC00
def isLowSurrogate (n : Nat) : Bool := 0xDC00 ≤ n && n < 0xE000

/-- The characters of some units; surrogates come in pairs only. -/
def ofUnits? : List Nat → Option (List Char)
  | [] => some []
  | a :: b :: rest =>
    if isHighSurrogate a then
      if isLowSurrogate b then
        (ofUnits? rest).map (Char.ofNat (0x10000 + (a - 0xD800) * 0x400 + (b - 0xDC00)) :: ·)
      else none
    else if isLowSurrogate a then none
    else (ofUnits? (b :: rest)).map (Char.ofNat a :: ·)
  | [a] =>
    if isHighSurrogate a || isLowSurrogate a then none else some [Char.ofNat a]

end Lox.Text
