/-!
Bytes as text. A byte that belongs to no well-formed sequence becomes one replacement character,
so every sequence of bytes has a reading.
-/

namespace Lox.Text

/-- Stands for a byte that cannot be read. -/
def replacement : Char := '\uFFFD'

/-- A byte that may only follow another. -/
def isTrail (b : UInt8) : Bool := 0x80 ≤ b && b ≤ 0xBF

/-- The six bits that a trailing byte carries. -/
def trailBits (b : UInt8) : Nat := b.toNat % 64

/-- The character of code `n`, unless it is too small for its number of bytes or no character. -/
def scalar? (least n : Nat) : Option Char :=
  if least ≤ n ∧ n.isValidChar then some (Char.ofNat n) else none

/-- The sequence that `b` starts, read into `rest`: its character and how many trailing bytes it
takes. The shortest form is the only one accepted, and surrogates are no characters. -/
def sequence? (b : UInt8) (rest : List UInt8) : Option (Char × Nat) :=
  if b < 0x80 then some (Char.ofNat b.toNat, 0)
  else if b < 0xC0 then none
  else match rest with
    | b₁ :: more =>
      if !isTrail b₁ then none
      else if b < 0xE0 then
        (scalar? 0x80 (b.toNat % 32 * 64 + trailBits b₁)).map (·, 1)
      else match more with
        | b₂ :: more =>
          if !isTrail b₂ then none
          else if b < 0xF0 then
            (scalar? 0x800 ((b.toNat % 16 * 64 + trailBits b₁) * 64 + trailBits b₂)).map (·, 2)
          else match more with
            | b₃ :: _ =>
              if !isTrail b₃ || 0xF8 ≤ b then none
              else (scalar? 0x10000
                (((b.toNat % 8 * 64 + trailBits b₁) * 64 + trailBits b₂) * 64
                  + trailBits b₃)).map (·, 3)
            | [] => none
        | [] => none
    | [] => none

/-- The characters of a sequence of bytes. -/
def decode : List UInt8 → List Char
  | [] => []
  | b :: rest =>
    match sequence? b rest with
    | some (c, n) => c :: decode (rest.drop n)
    | none => replacement :: decode rest
termination_by bytes => bytes.length
decreasing_by all_goals (simp only [List.length_cons, List.length_drop]; omega)

/-- Whether every byte belongs to a well-formed sequence. -/
def isWellFormed : List UInt8 → Bool
  | [] => true
  | b :: rest =>
    match sequence? b rest with
    | some (_, n) => isWellFormed (rest.drop n)
    | none => false
termination_by bytes => bytes.length
decreasing_by simp only [List.length_cons, List.length_drop]; omega

/-- The text that a file's bytes hold. -/
def ofBytes (bytes : ByteArray) : String :=
  String.ofList (decode bytes.toList)

end Lox.Text
