import Lox.Text.Table

/-!
Quoted text in documents.
-/

namespace Lox.Document

/-- Text after its opening quote, and what follows the closing one. -/
abbrev Quotation := Option (List Char × List Char)

def cons (c : Char) (q : Quotation) : Quotation := q.map fun (inner, rest) => (c :: inner, rest)

def isHexDigit (c : Char) : Bool :=
  ('0' ≤ c && c ≤ '9') || ('a' ≤ c && c ≤ 'f') || ('A' ≤ c && c ≤ 'F')

/-- The character that `width` hexadecimal digits name. -/
def hexChar? (width : Nat) (cs : List Char) : Option Char :=
  let digits := cs.take width
  let code := digits.foldl (fun n c => 16 * n + Text.hexDigit c) 0
  if digits.length = width ∧ digits.all isHexDigit ∧ code.isValidChar then some (Char.ofNat code)
  else none

end Lox.Document
