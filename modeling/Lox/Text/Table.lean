/-!
Tables of code points, written as words of hexadecimal numbers. A table is lines of text rather than
an array literal so that it can be compared with the standard line by line.
-/

namespace Lox.Text

/-- The words of a line: its longest stretches without a blank. -/
def wordsOf (line : String) : List (List Char) :=
  match line.toList.foldr step ([], []) with
  | ([], words) => words
  | (word, words) => word :: words
where
  step (c : Char) : List Char × List (List Char) → List Char × List (List Char)
    | (word, words) =>
      if c = ' ' then ([], if word.isEmpty then words else word :: words)
      else (c :: word, words)

/-- The value of a hexadecimal digit; other characters count as zero. -/
def hexDigit (c : Char) : Nat :=
  if '0' ≤ c ∧ c ≤ '9' then c.toNat - '0'.toNat
  else if 'A' ≤ c ∧ c ≤ 'F' then c.toNat - 'A'.toNat + 10
  else if 'a' ≤ c ∧ c ≤ 'f' then c.toNat - 'a'.toNat + 10
  else 0

def hexNumber (cs : List Char) : Nat :=
  cs.foldl (fun n c => 16 * n + hexDigit c) 0

def decimalNumber (cs : List Char) : Nat :=
  cs.foldl (fun n c => 10 * n + hexDigit c) 0

/-- What stands before and after the first `mark`; without one, nothing stands after. -/
def cutAt (mark : Char) (cs : List Char) : List Char × List Char :=
  (cs.takeWhile (· ≠ mark), (cs.dropWhile (· ≠ mark)).drop 1)

/-- `first-last`, or one number for a range of one. -/
def hexRange (word : List Char) : Nat × Nat :=
  match cutAt '-' word with
  | (first, []) => (hexNumber first, hexNumber first)
  | (first, last) => (hexNumber first, hexNumber last)

/-- One step of canonical decomposition. -/
structure Decomposition where
  whole : Nat
  first : Nat
  second : Option Nat
  /-- The two parts make the whole again. -/
  composes : Bool

/-- `first-last=class`, class in decimal. -/
def readClasses (lines : List String) : Array (Nat × Nat × Nat) :=
  (lines.flatMap wordsOf).toArray.map fun word =>
    let (range, cls) := cutAt '=' word
    let (first, last) := hexRange range
    (first, last, decimalNumber cls)

/-- `whole=first+second`, `whole>first+second` or `whole>first`. -/
def Decomposition.read (word : List Char) : Decomposition :=
  let composes := word.contains '='
  let (whole, parts) := cutAt (if composes then '=' else '>') word
  let (first, second) := cutAt '+' parts
  { whole := hexNumber whole
    first := hexNumber first
    second := if second.isEmpty then none else some (hexNumber second)
    composes }

def readDecompositions (lines : List String) : Array Decomposition :=
  (lines.flatMap wordsOf).toArray.map Decomposition.read

end Lox.Text
