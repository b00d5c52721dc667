import Lox.Text.Canonical
import Lox.Text.Expansion

/-!
The composed normal form of a text: canonically equivalent texts have one. What is settled already
is kept as it is; from where it is not, a text is worked on segment by segment. A segment is taken
apart, its marks are put in order of their class, and what composes is put together again. A run of
more than thirty non-starters is interrupted by a joiner, so that no run has to be held as a whole.
-/

namespace Lox.Text

/-- What a table says of a character. -/
def classIn? (table : Array (Nat × Nat × Nat)) (c : Char) : Option Nat :=
  (table.find? fun (first, last, _) => first ≤ c.toNat && c.toNat ≤ last).map (·.2.2)

/-- The combining class; zero for a starter. -/
def combiningClass (c : Char) : Nat := (classIn? combiningClasses c).getD 0

/-! ### Hangul

A syllable stands for a leading consonant, a vowel and perhaps a trailing consonant. -/

namespace Hangul

def firstSyllable : Nat := 0xAC00
def firstLead : Nat := 0x1100
def firstVowel : Nat := 0x1161
/-- One before the first trailing consonant: index zero means that there is none. -/
def noTrail : Nat := 0x11A7
def leads : Nat := 19
def vowels : Nat := 21
def trails : Nat := 28

def parts? (c : Char) : Option (List Char) :=
  let n := c.toNat - firstSyllable
  if firstSyllable ≤ c.toNat ∧ n < leads * vowels * trails then
    let lead := Char.ofNat (firstLead + n / (vowels * trails))
    let vowel := Char.ofNat (firstVowel + n % (vowels * trails) / trails)
    if n % trails = 0 then some [lead, vowel]
    else some [lead, vowel, Char.ofNat (noTrail + n % trails)]
  else none

def isVowel (c : Char) : Bool := firstVowel ≤ c.toNat && c.toNat < firstVowel + vowels
def isTrail (c : Char) : Bool := noTrail < c.toNat && c.toNat < noTrail + trails

/-- The block of single letters, old ones included. -/
def isLetter (c : Char) : Bool := 0x1100 ≤ c.toNat && c.toNat ≤ 0x11FF

/-- A lead and a vowel, or an open syllable and a trailing consonant, make a syllable. -/
def compose? (a b : Char) : Option Char :=
  if firstLead ≤ a.toNat ∧ a.toNat < firstLead + leads ∧ isVowel b then
    let n := (a.toNat - firstLead) * vowels + (b.toNat - firstVowel)
    some (Char.ofNat (firstSyllable + n * trails))
  else
    let n := a.toNat - firstSyllable
    if firstSyllable ≤ a.toNat ∧ n < leads * vowels * trails ∧ n % trails = 0 ∧ isTrail b then
      some (Char.ofNat (a.toNat + (b.toNat - noTrail)))
    else none

end Hangul

/-! ### Taking apart -/

/-- The first step of taking a character apart. -/
def decomposition? (c : Char) : Option Decomposition :=
  decompositions.find? (·.whole = c.toNat)

/-- `c` taken apart at most `n` steps deep, second parts being final. -/
def takeApart (step? : Char → Option Decomposition) : Nat → Char → List Char
  | 0, c => [c]
  | n + 1, c =>
    match step? c with
    | none => [c]
    | some d => takeApart step? n (Char.ofNat d.first) ++ (d.second.map Char.ofNat).toList

/-- The full canonical decomposition. No character needs more than four steps. -/
def decompose (c : Char) : List Char :=
  match Hangul.parts? c with
  | some parts => parts
  | none => takeApart decomposition? 4 c

/-! ### Putting together -/

/-- The pairs that compose. -/
def compositions : Array Decomposition := decompositions.filter (·.composes)

/-- The second parts of pairs that compose. -/
def secondParts : List Nat := (compositions.toList.filterMap (·.second)).eraseDups

/-- A place in a plane: pairs are looked up without regard to the plane. -/
def inPlane (n : Nat) : Nat := n % 0x10000

/-- The character that a pair makes, Hangul apart. -/
def composite? (a b : Char) : Option Char :=
  (compositions.find? fun d =>
    inPlane d.first = inPlane a.toNat && d.second.map inPlane = some (inPlane b.toNat)).map
      (Char.ofNat ·.whole)

/-- Whether a character can make a composite with what stands before it. -/
def composesBack (c : Char) : Bool :=
  Hangul.isVowel c || Hangul.isTrail c || secondParts.contains c.toNat

/-- Whether a character stands in composed text as it is, whatever is before it. -/
def isSettled (c : Char) : Bool :=
  !composesBack c && (decomposition? c).all (·.composes)

def isNonStarter (c : Char) : Bool := combiningClass c ≠ 0 || composesBack c

/-- How many non-starters a character begins with. -/
def leadingMarks (c : Char) : Nat :=
  (classIn? expandedLeads c).getD ((decompose c).takeWhile isNonStarter).length

/-- How many non-starters a character ends with. -/
def trailingMarks (c : Char) : Nat :=
  (classIn? expandedTrails c).getD ((decompose c).reverse.takeWhile isNonStarter).length

/-- The run of non-starters after a character, when there are `run` before it. -/
def runAfter (run : Nat) (c : Char) : Nat :=
  if leadingMarks c = 0 then trailingMarks c else run + leadingMarks c

/-- The longest run of non-starters left as it is. -/
def longestRun : Nat := 30

/-- Combining grapheme joiner: a starter that composes with nothing. -/
def joiner : Char := '\u034F'

/-! ### Segments -/

/-- Puts a mark after all marks of its class and below; a starter comes last. The marks are in
reverse order. -/
def insertMark (c : Char) : List Char → List Char
  | [] => [c]
  | last :: rest =>
    if combiningClass c ≠ 0 ∧ combiningClass c < combiningClass last then
      last :: insertMark c rest
    else c :: last :: rest

/-- Takes a character apart and puts its parts where they belong. -/
def insertAll (c : Char) (taken : List Char) : List Char :=
  (decompose c).foldl (fun taken part => insertMark part taken) taken

/-- A segment from its second character on: what is taken, in reverse, and what is left. It ends
before the next starter, or with a joiner before the run of non-starters gets too long. -/
def segmentFrom (run : Nat) (taken : List Char) : List Char → List Char × List Char
  | [] => (taken, [])
  | c :: rest =>
    if longestRun < run + leadingMarks c then (joiner :: taken, c :: rest)
    else if leadingMarks c = 0 then (taken, c :: rest)
    else segmentFrom (run + leadingMarks c) (insertAll c taken) rest

theorem length_segmentFrom (run : Nat) (taken cs : List Char) :
    (segmentFrom run taken cs).2.length ≤ cs.length := by
  induction cs generalizing run taken with
  | nil => simp [segmentFrom]
  | cons c rest ih =>
    rw [segmentFrom]
    split
    · exact Nat.le_refl _
    · split
      · exact Nat.le_refl _
      · exact Nat.le_trans (ih _ _) (Nat.le_succ _)

/-- Composes what follows `base`. `before` is what is done with, `after` what did not compose since
`base`, both in reverse. A character that composes backward takes the last starter for its base; it
is blocked by a character between them of its own class or above. From the first Hangul letter on,
only Hangul composes. -/
def composeFrom (hangul : Bool) (before : List Char) (base : Char) (after : List Char) :
    List Char → List Char
  | [] => before.reverse ++ base :: after.reverse
  | c :: rest =>
    let hangul := hangul || Hangul.isLetter c
    if hangul || composesBack c then
      match after with
      | [] =>
        match if hangul then Hangul.compose? base c else composite? base c with
        | some whole => composeFrom hangul before whole [] rest
        | none => composeFrom hangul before base [c] rest
      | last :: inner =>
        if combiningClass last = 0 then
          match if hangul then Hangul.compose? last c else composite? last c with
          | some whole => composeFrom hangul (inner ++ base :: before) whole [] rest
          | none => composeFrom hangul (inner ++ base :: before) last [c] rest
        else if combiningClass c ≤ combiningClass last then
          composeFrom hangul before base (c :: after) rest
        else
          match if hangul then Hangul.compose? base c else composite? base c with
          | some whole => composeFrom hangul before whole after rest
          | none => composeFrom hangul before base (c :: after) rest
    else composeFrom hangul before base (c :: after) rest

/-- Composes a segment. -/
def compose : List Char → List Char
  | [] => []
  | c :: rest => composeFrom false [] c [] rest

/-- How many characters at the start of a text can stay: all up to the segment in which something
has to change. `i` is the number of characters seen, `start` of those before the last segment,
`cls` the class of the last one. -/
def settledFrom (run cls start i : Nat) : List Char → Nat
  | [] => i
  | c :: rest =>
    if c.toNat < 128 then settledFrom 0 0 i (i + 1) rest
    else if longestRun < run + leadingMarks c then start
    else
      let starts := leadingMarks c = 0
      if ¬ starts ∧ combiningClass c < cls then start
      else
        let start := if starts then i else start
        if isSettled c then settledFrom (runAfter run c) (combiningClass c) start (i + 1) rest
        else start

/-- Keeps what is settled, works on the next segment, and goes on after it. -/
def settle (cs : List Char) : List Char :=
  let n := settledFrom 0 0 0 0 cs
  match h : cs.drop n with
  | [] => cs
  | c :: rest =>
    have : (segmentFrom (runAfter 0 c) (insertAll c []) rest).2.length < cs.length := by
      have hlen := congrArg List.length h
      have hseg := length_segmentFrom (runAfter 0 c) (insertAll c []) rest
      simp only [List.length_drop, List.length_cons] at hlen
      omega
    let segment := segmentFrom (runAfter 0 c) (insertAll c []) rest
    cs.take n ++ compose segment.1.reverse ++ settle segment.2
termination_by cs.length

/-- The composed normal form; a text of ASCII characters is its own. -/
def normalize (cs : List Char) : List Char :=
  if cs.all (·.toNat < 128) then cs else settle cs

end Lox.Text
