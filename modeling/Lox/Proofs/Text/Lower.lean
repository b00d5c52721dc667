import Lox.Proofs.Text.Table
import Lox.Text.Lower

/-!
What lower case leaves as it is.
-/

namespace Lox.Text

/-- A character of plain English that is no capital letter. -/
def isSmall (c : Char) : Bool := c.toNat < 65 || 90 < c.toNat && c.toNat < 128

/-- No such character is in the run. -/
def CaseRun.isElsewhere (r : CaseRun) : Bool :=
  decide (65 ≤ r.first ∧ r.last ≤ 90 ∨ 128 ≤ r.first)

theorem isElsewhere_caseRuns : ∀ r ∈ caseRuns, r.isElsewhere = true := by
  have words {lines : List String} (h : EveryWord (fun w => (CaseRun.read w).isElsewhere) lines) :
      ∀ r ∈ readCaseRuns lines, r.isElsewhere = true := by
    intro r hr
    obtain ⟨word, hword, rfl⟩ := Array.mem_map.mp hr
    exact h word (List.mem_toArray.mp hword)
  exact words (everyWord_of_spelled (by repeat constructor) (by decide +kernel))

theorem lowerChar_eq_self {c : Char} (small : isSmall c = true) : lowerChar c = c := by
  have none : caseRuns.find? (·.contains c.toNat) = none := by
    rw [Array.find?_eq_none]
    intro r hr inside
    have elsewhere := of_decide_eq_true (isElsewhere_caseRuns r hr)
    simp only [CaseRun.contains, Bool.and_eq_true, decide_eq_true_eq] at inside
    simp only [isSmall, Bool.or_eq_true, Bool.and_eq_true, decide_eq_true_eq] at small
    omega
  rw [lowerChar, none]
  rfl

/-- A text without capital letters, of plain English, is in lower case. -/
theorem lower_eq_self {s : String} (small : s.toList.all isSmall = true) : lower s = s := by
  have same : s.toList.map lowerChar = s.toList :=
    calc s.toList.map lowerChar
      _ = s.toList.map fun c => c :=
        List.map_congr_left fun c hc => lowerChar_eq_self (List.all_eq_true.mp small c hc)
      _ = s.toList := List.map_id' _
  rw [lower, ← String.toList_inj, String.toList_map, same]

end Lox.Text
