import Lox.Proofs.Source.Cut
import Lox.Text.Normal
import Lox.Proofs.Text.Table

/-!
What the tables say of words. A character of a word does not come apart into a character of ASCII
that words do not have, nor into digits.
-/

namespace Lox.Source

open Text

/-- A character beyond ASCII. -/
def isFar (n : Nat) : Bool :=
  Nat.ble 128 n && (Nat.blt n 0xD800 || (Nat.ble 0xE000 n && Nat.blt n 0x110000))

/-- Characters outside of words that come apart into one of ASCII which is not of words either. -/
def exceptions : List Nat := [0x37E, 0x1FEF, 0x2260, 0x226E, 0x226F]

/-- What comes apart is beyond ASCII, and so is its second part. Its first part is beyond ASCII and
no exception, or what a word starts with, unless it comes from an exception. -/
def isRegular (d : Decomposition) : Bool :=
  isFar d.whole && d.second.all isFar &&
    ((isFar d.first && !exceptions.contains d.first) || isWordStart (Char.ofNat d.first) ||
      (exceptions.contains d.whole && !isDigit (Char.ofNat d.first)))

theorem regular_decompositions : ∀ d ∈ decompositions, isRegular d = true := by
  have words {lines : List String} (h : EveryWord (fun w => isRegular (.read w)) lines) :
      ∀ d ∈ readDecompositions lines, isRegular d = true := by
    intro d hd
    obtain ⟨word, hword, rfl⟩ := Array.mem_map.mp hd
    exact h word (List.mem_toArray.mp hword)
  exact words (everyWord_of_spelled (by repeat constructor) (by decide +kernel))

/-- No exception lies in the range. -/
def isClear (range : Nat × Nat) : Bool :=
  exceptions.all fun n => !(range.1 ≤ n && n ≤ range.2)

theorem clear_ofLines {lines : List String} (h : EveryWord (fun w => isClear (hexRange w)) lines)
    {c : Char} (hc : c.toNat ∈ exceptions) : (CharSet.ofLines lines).contains c = false := by
  rw [← Bool.not_eq_true, CharSet.contains, CharSet.ofLines, Array.any_eq_true']
  rintro ⟨range, hrange, inside⟩
  obtain ⟨word, hword, rfl⟩ := Array.mem_map.mp hrange
  have clear := List.all_eq_true.mp (h word (List.mem_toArray.mp hword)) _ hc
  rw [Bool.not_eq_true'] at clear
  exact Bool.noConfusion (clear.symm.trans inside)

theorem clear_letters {c : Char} (h : c.toNat ∈ exceptions) : letters.contains c = false :=
  clear_ofLines (everyWord_of_spelled (by repeat constructor) (by decide +kernel)) h

theorem clear_nonspacingMarks {c : Char} (h : c.toNat ∈ exceptions) :
    nonspacingMarks.contains c = false :=
  clear_ofLines (everyWord_of_spelled (by repeat constructor) (by decide +kernel)) h

end Lox.Source
