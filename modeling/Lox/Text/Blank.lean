/-!
Blank characters, and text without the blanks around it.
-/

namespace Lox.Text

/-- The characters that Unicode counts as white space. -/
def blanks : List (Nat × Nat) :=
  [(0x09, 0x0D), (0x20, 0x20), (0x85, 0x85), (0xA0, 0xA0), (0x1680, 0x1680), (0x2000, 0x200A),
   (0x2028, 0x2029), (0x202F, 0x202F), (0x205F, 0x205F), (0x3000, 0x3000)]

def isBlank (c : Char) : Bool := blanks.any fun (lo, hi) => lo ≤ c.toNat && c.toNat ≤ hi

/-- What is left of a text when its ends are cut back to where they do not satisfy `p`. -/
def trimBy (p : Char → Bool) (cs : List Char) : List Char :=
  ((cs.dropWhile p).reverse.dropWhile p).reverse

def trim (s : String) : String := String.ofList (trimBy isBlank s.toList)

/-- Nothing in it but blanks. -/
def isAllBlank (s : String) : Bool := s.toList.all isBlank

end Lox.Text
