import Lox.Proofs.Source.Partition

/-!
Unexpected characters do no harm around them. With blanks in their place a text has the same tokens
and, of its errors, all others.
-/

namespace Lox.Source

/-! ### Where they stand -/

/-- The character that is reported as unexpected. -/
def Fault.stray? : Fault → Option Char
  | .unexpectedCharacter c => some c
  | .unterminatedString | .invalidNumber _ => none

/-- An unexpected character with its position. -/
def Mark.stray? (m : Mark) : Option (Nat × Char) :=
  (m.finding.error?.bind (·.fault.stray?)).map (m.span.start, ·)

/-- The unexpected characters among the marks, each with its position. -/
def straysOf (marks : List Mark) : List (Nat × Char) := marks.filterMap Mark.stray?

/-- The unexpected characters of a text. -/
def strays (text : String) : List (Nat × Char) := straysOf (marksFrom 0 1 (cut text.toList))

/-- The text, which starts at a position, with blanks in some places. -/
def blanked (places : List Nat) (start : Nat) (text : List Char) : List Char :=
  text.mapIdx fun i c => if start + i ∈ places then ' ' else c

/-- The text with a blank in the place of each unexpected character. -/
def clear (text : String) : String :=
  String.ofList (blanked ((strays text).map (·.1)) 0 text.toList)

/-- Blanking two parts of a text is blanking each at its place. -/
theorem blanked_append (places : List Nat) (start : Nat) (first second : List Char) :
    blanked places start (first ++ second) =
      blanked places start first ++ blanked places (start + first.length) second := by
  simp only [blanked, List.mapIdx_append, Nat.add_comm first.length, Nat.add_assoc]

/-- Only places inside the text matter. -/
theorem blanked_congr {places places' : List Nat} {start : Nat} {text : List Char}
    (h : ∀ i, start ≤ i → i < start + text.length → (i ∈ places ↔ i ∈ places')) :
    blanked places start text = blanked places' start text := by
  refine List.ext_getElem (by simp [blanked]) fun i hi _ => ?_
  simp only [blanked, List.length_mapIdx] at hi
  simp only [blanked, List.getElem_mapIdx, h (start + i) (Nat.le_add_right _ _) (by omega)]

/-- Without places there is nothing to blank. -/
theorem blanked_nil (start : Nat) (text : List Char) : blanked [] start text = text :=
  List.ext_getElem (by simp [blanked]) fun i _ _ => by simp [blanked]

/-! ### Pieces -/

def Piece.stray? : Piece → Option Char
  | .bad fault _ => fault.stray?
  | _ => none

/-- A blank for an unexpected character, and any other piece itself. -/
def Piece.spaced (p : Piece) : Piece := if p.stray?.isSome then .blank ' ' else p

/-- An unexpected character is a piece of its own, and no line end. -/
def Piece.Alone (p : Piece) : Prop := ∀ c ∈ p.stray?, p.text = [c] ∧ c ≠ '\n'

/-- A stray character is a piece of its own. -/
theorem First.alone {c : Char} {text : List Char} {first : Piece × List Char}
    (h : First c text first) : first.1.Alone := by
  cases h with
  | unexpected blank =>
    rintro _ ⟨⟩
    refine ⟨rfl, ?_⟩
    rintro rfl
    cases blank
  | _ => nofun

theorem alone_of_mem_cut {text : List Char} : ∀ p ∈ cut text, p.Alone := by
  induction text using cut.induct with
  | case1 =>
    rw [cut_nil]
    simp
  | case2 c rest first ih =>
    rw [cut_cons]
    exact List.forall_mem_cons.mpr ⟨(first_cutFirst c rest).alone, ih⟩

/-- With blanks for its stray characters a text goes on as before, up to the first of them. -/
theorem follows_spaced (pieces : List Piece) :
    Follows (texts pieces) (texts (pieces.map Piece.spaced)) := by
  induction pieces with
  | nil => exact .none
  | cons p rest ih =>
    rw [List.map_cons, Piece.spaced]
    split
    · exact .blank rfl
    · exact ih.append_left p.text

/-- A piece other than an unexpected character ends in front of the blanks as it did. -/
theorem First.ends_spaced {c : Char} {text : List Char} {first : Piece × List Char}
    (h : First c text first) :
    first.1.Ends first.2 (texts ((cut first.2).map Piece.spaced)) := by
  have follows := follows_spaced (cut first.2)
  rw [texts_cut] at follows
  cases h with
  | @comment _ after _ _ _ ends =>
    cases after with
    | nil =>
      rw [cut_nil]
      nofun
    | cons d after =>
      obtain rfl : d = '\n' := ends d rfl
      rw [cut_blank rfl]
      rintro _ ⟨⟩
      rfl
  | unterminated =>
    rw [cut_nil]
    rfl
  | _ => exact follows

/-- The text without its stray characters is cut at the same places, with blanks in between. -/
theorem cut_spaced (text : List Char) :
    cut (texts ((cut text).map Piece.spaced)) = (cut text).map Piece.spaced := by
  induction text using cut.induct with
  | case1 =>
    rw [cut_nil]
    exact cut_nil
  | case2 c rest first ih =>
    have here : First c rest first := first_cutFirst c rest
    rw [cut_cons, List.map_cons, texts_cons]
    by_cases stray : (cutFirst c rest).1.stray?.isSome = true
    · rw [Piece.spaced, if_pos stray]
      exact (cut_blank rfl).trans (congrArg _ ih)
    · rw [Piece.spaced, if_neg stray]
      exact (cut_of_ends here.ends_spaced).trans (congrArg _ ih)

/-! ### Positions -/

/-- The strays of a text are that of its first piece and those of the rest. -/
theorem straysOf_cons (start line : Nat) (p : Piece) (rest : List Piece) :
    straysOf (marksFrom start line (p :: rest)) = (p.stray?.map (start, ·)).toList ++
      straysOf (marksFrom (start + p.text.length) (line + lineEnds p.text) rest) := by
  cases p with
  | bad fault text => cases fault <;> rfl
  | _ => rfl

/-- Strays stand at or after the start. -/
theorem le_of_mem_places {start line : Nat} {pieces : List Piece} {i : Nat}
    (h : i ∈ (straysOf (marksFrom start line pieces)).map (·.1)) : start ≤ i := by
  induction pieces generalizing start line with
  | nil => cases h
  | cons p rest ih =>
    rw [straysOf_cons, List.map_append, List.mem_append] at h
    obtain h | h := h
    · obtain ⟨s, hs, rfl⟩ := List.mem_map.mp h
      obtain ⟨c, -, rfl⟩ := Option.map_eq_some_iff.mp (Option.mem_toList.mp hs)
      exact Nat.le_refl start
    · exact Nat.le_of_add_right_le (ih h)

/-- The pieces with blanks among them have the text with blanks in it. -/
theorem texts_spaced (start line : Nat) {pieces : List Piece} (alone : ∀ p ∈ pieces, p.Alone) :
    texts (pieces.map Piece.spaced) =
      blanked ((straysOf (marksFrom start line pieces)).map (·.1)) start (texts pieces) := by
  induction pieces generalizing start line with
  | nil => rfl
  | cons p rest ih =>
    obtain ⟨first, alone⟩ := List.forall_mem_cons.mp alone
    have further := ih (start + p.text.length) (line + lineEnds p.text) alone
    have later (i : Nat) := @le_of_mem_places (start + p.text.length) (line + lineEnds p.text) rest i
    rw [List.map_cons, texts_cons, texts_cons, blanked_append, further, straysOf_cons,
      List.map_append]
    generalize (straysOf (marksFrom (start + p.text.length) _ rest)).map (·.1) = places at later ⊢
    cases stray : p.stray? with
    | none =>
      have same : p.spaced = p := by rw [Piece.spaced, stray]; rfl
      have here : blanked places start p.text = p.text := by
        refine (blanked_congr fun i _ inside => ?_).trans (blanked_nil start p.text)
        exact iff_of_false (fun mem => absurd (later i mem) (Nat.not_le.mpr inside)) nofun
      rw [same]
      exact congrArg (· ++ _) here.symm
    | some c =>
      obtain ⟨text, -⟩ := first c stray
      have same : p.spaced = .blank ' ' := by rw [Piece.spaced, stray]; rfl
      have here : blanked (start :: places) start [c] = [' '] := by simp [blanked]
      have behind : blanked (start :: places) (start + 1) (texts rest) =
          blanked places (start + 1) (texts rest) := by
        refine blanked_congr fun i low _ => ?_
        rw [List.mem_cons, or_iff_right (by omega)]
      rw [same, text]
      show [' '] ++ _ = blanked (start :: places) start [c] ++ _
      rw [here]
      exact congrArg ([' '] ++ ·) behind.symm

/-! ### Tokens and errors -/

/-- A blank takes as few lines as the character it stands for. -/
theorem Piece.Alone.lineEnds_spaced {p : Piece} (h : p.Alone) :
    lineEnds p.spaced.text = lineEnds p.text := by
  unfold Piece.spaced
  split
  · next stray =>
    obtain ⟨c, hc⟩ := Option.isSome_iff_exists.mp stray
    obtain ⟨text, other⟩ := h c hc
    rw [text, lineEnds, lineEnds, List.count_singleton, if_neg (by simpa using other)]
    rfl
  · rfl

/-- Blanking strays takes no token away and adds none. -/
theorem token?_spaced (p : Piece) (line : Nat) : p.spaced.token? line = p.token? line := by
  cases p with
  | bad fault text => cases fault <;> rfl
  | _ => rfl

/-- Blanking strays takes their errors away and no others. -/
theorem error?_spaced (p : Piece) (line : Nat) :
    p.spaced.error? line = (p.error? line).filter (·.fault.stray?.isNone) := by
  cases p with
  | bad fault text => cases fault <;> rfl
  | _ => rfl

/-- Without its strays the text has the same tokens. -/
theorem tokensFrom_spaced {line : Nat} {pieces : List Piece} (alone : ∀ p ∈ pieces, p.Alone) :
    tokensFrom line (pieces.map Piece.spaced) = tokensFrom line pieces := by
  induction pieces generalizing line with
  | nil => rfl
  | cons p rest ih =>
    obtain ⟨first, alone⟩ := List.forall_mem_cons.mp alone
    rw [List.map_cons, tokensFrom, tokensFrom, first.lineEnds_spaced, token?_spaced, ih alone]

/-- Without its strays the text has the errors that are not theirs. -/
theorem errorsFrom_spaced {line : Nat} {pieces : List Piece} (alone : ∀ p ∈ pieces, p.Alone) :
    errorsFrom line (pieces.map Piece.spaced) =
      (errorsFrom line pieces).filter (·.fault.stray?.isNone) := by
  induction pieces generalizing line with
  | nil => rfl
  | cons p rest ih =>
    obtain ⟨first, alone⟩ := List.forall_mem_cons.mp alone
    rw [List.map_cons, errorsFrom, errorsFrom, first.lineEnds_spaced, error?_spaced, ih alone]
    cases p.error? (line + lineEnds p.text) with
    | none => rfl
    | some e =>
      rw [List.filter_cons, Option.filter_some]
      by_cases other : e.fault.stray?.isNone = true
      · rw [if_pos other, if_pos other]
      · rw [if_neg other, if_neg other]

/-- Clearing a text is blanking its strays piece by piece. -/
theorem toList_clear (text : String) :
    (clear text).toList = texts ((cut text.toList).map Piece.spaced) := by
  rw [clear, String.toList_ofList, texts_spaced 0 1 alone_of_mem_cut, texts_cut, strays]

/-! ### The marks tell where -/

/-- Strays are reported with the characters that stand there. -/
theorem chars_straysOf (marks : List Mark) : (straysOf marks).map (·.2) =
    (marks.filterMap (·.finding.error?)).filterMap (·.fault.stray?) := by
  rw [straysOf, List.map_filterMap, List.filterMap_filterMap]
  refine congrArg (marks.filterMap ·) (funext fun m => ?_)
  unfold Mark.stray?
  cases m.finding.error?.bind (·.fault.stray?) <;> rfl

variable {text : List Char} {marks : List Mark} {start : Nat}

/-- Strays are reported in the order of their places. -/
theorem Continues.pairwise_straysOf (h : Continues text start marks) :
    (straysOf marks).Pairwise (·.1 < ·.1) := by
  have ordered := (List.pairwise_map.mp h.ordered).imp_of_mem (S := (·.span.start < ·.span.start))
    fun {m m'} hm _ le => Nat.lt_of_lt_of_le (h.inside m hm).2.1 le
  refine ordered.filterMap _ fun m m' before s hs s' hs' => ?_
  obtain ⟨c, -, rfl⟩ := Option.map_eq_some_iff.mp hs
  obtain ⟨c', -, rfl⟩ := Option.map_eq_some_iff.mp hs'
  exact before

/-- An unexpected character stands in the text where its mark says. -/
theorem Continues.getElem?_straysOf (h : Continues text start marks) :
    ∀ s ∈ straysOf marks, text[s.1]? = some s.2 := by
  intro s hs
  obtain ⟨m, hm, hs⟩ := List.mem_filterMap.mp hs
  obtain ⟨c, hc, rfl⟩ := Option.map_eq_some_iff.mp hs
  obtain ⟨e, he, hc⟩ := Option.bind_eq_some_iff.mp hc
  obtain ⟨span, finding⟩ := m
  have held : span.of text = [c] := by
    have tells := (h.fits _ hm).tells
    cases finding with
    | token t => cases he
    | error e' =>
      cases he
      obtain ⟨line, fault⟩ := e
      cases fault with
      | unexpectedCharacter d =>
        cases hc
        exact tells
      | _ => cases hc
  have inside := (h.inside _ hm).2.1
  have first := congrArg List.head? held
  rw [Span.of, List.head?_drop, List.getElem?_take_of_lt inside] at first
  exact first

/-- Scanning a text with blanks in the place of the characters that were reported as unexpected
gives the tokens it gave, and the errors without the reports of these characters. -/
theorem scan_clear (text : String) :
    (strays text).map (·.2) = (scan text).errors.filterMap (·.fault.stray?) ∧
    (strays text).Pairwise (·.1 < ·.1) ∧
    (∀ s ∈ strays text, text.toList[s.1]? = some s.2) ∧
    (scan (clear text)).tokens = (scan text).tokens ∧
    (scan (clear text)).errors = (scan text).errors.filter (·.fault.stray?.isNone) := by
  have cuts := continues_cut text.toList [] [] .none
  refine ⟨?_, cuts.pairwise_straysOf, cuts.getElem?_straysOf, ?_, ?_⟩
  · rw [scan, errorsFrom_eq_marks 0]
    exact chars_straysOf _
  · rw [scan, scan, toList_clear, cut_spaced]
    exact tokensFrom_spaced alone_of_mem_cut
  · rw [scan, scan, toList_clear, cut_spaced]
    exact errorsFrom_spaced alone_of_mem_cut

end Lox.Source
