import Lox.Decimal.Layout
import Lox.Proofs.Decimal.Bits
import Lox.Proofs.Source.Cut
import Lox.Syntax.Sexpr

/-!
Trees write a number that was read from a text without an exponent: digits, perhaps with a point
between them.
-/

namespace Lox.Decimal

open Source (IsNumeral isDigit)

theorem isDigit_of_mem_digitChars {d : Decimal} {c : Char} (h : c ∈ d.digitChars) :
    isDigit c = true := by
  have digit := Nat.isDigit_of_mem_toDigits (by decide) (by decide) h
  simpa [Char.isDigit, isDigit, Char.le_def] using digit

theorem isDigit_of_mem_replicate {n : Nat} {c : Char} (h : c ∈ List.replicate n '0') :
    isDigit c = true := by
  rw [List.eq_of_mem_replicate h]
  decide

/-- Without an exponent a decimal has the spelling of a number. -/
theorem isNumeral_positional (d : Decimal) : IsNumeral d.positional.toList := by
  have nonempty : d.digitChars ≠ [] := Nat.toDigits_ne_nil
  unfold positional
  dsimp only
  split
  · exact ⟨['0'], [], rfl, by simp, List.all_eq_true.mp rfl, .inl rfl⟩
  split
  · refine ⟨_, [], by rw [String.toList_ofList, List.append_nil], by simp [nonempty], ?_, .inl rfl⟩
    intro c hc
    rcases List.mem_append.mp hc with hc | hc
    · exact isDigit_of_mem_digitChars hc
    · exact isDigit_of_mem_replicate hc
  split
  · next negative places =>
    refine ⟨_, _, String.toList_ofList, ?_, ?_, .inr ⟨_, rfl, ?_, ?_⟩⟩
    · rw [ne_eq, List.take_eq_nil_iff]
      simp only [nonempty, or_false]
      omega
    · exact fun c hc => isDigit_of_mem_digitChars (List.mem_of_mem_take hc)
    · rw [ne_eq, List.drop_eq_nil_iff]
      omega
    · exact fun c hc => isDigit_of_mem_digitChars (List.mem_of_mem_drop hc)
  · refine ⟨['0'], _, String.toList_ofList, by simp, List.all_eq_true.mp rfl, .inr ⟨_, rfl, ?_, ?_⟩⟩
    · simp [nonempty]
    · intro c hc
      rcases List.mem_append.mp hc with hc | hc
      · exact isDigit_of_mem_replicate hc
      · exact isDigit_of_mem_digitChars hc

/-! ### The exponent of a shortest decimal -/

/-- Rounding adds one at most. -/
theorem roundHalfEven_le (num den : Nat) : roundHalfEven num den ≤ num / den + 1 := by
  unfold roundHalfEven
  dsimp only
  split
  · omega
  · exact Nat.le_refl _

theorem Interval.le_of_multiple? {i : Interval} {power : Int} {digits : Nat}
    (h : i.multiple? power = some digits) : digits ≤ i.value * tenTo (-power).toNat + 1 := by
  unfold Interval.multiple? at h
  dsimp only at h
  have unit : (if power ≥ 0 then 1 else tenTo (-power).toNat) = tenTo (-power).toNat := by
    split
    · next nonneg =>
      have zero : (-power).toNat = 0 := by omega
      rw [zero]
      rfl
    · rfl
  rw [unit] at h
  have below (d : Nat) : i.value * tenTo (-power).toNat / d ≤ i.value * tenTo (-power).toNat :=
    Nat.div_le_self ..
  split at h
  all_goals cases h
  · exact Nat.le_trans (roundHalfEven_le ..) (Nat.add_le_add_right (below _) 1)
  · exact Nat.le_succ_of_le (below _)
  · exact Nat.add_le_add_right (below _) 1

/-- The search ends at one of the powers it tries, with a multiple that is not above the value by
more than one unit. -/
theorem Interval.coarsest_bounds (i : Interval) (n : Nat) (power : Int) :
    power - n ≤ (i.coarsest n power).power ∧ (i.coarsest n power).power ≤ power ∧
      (i.coarsest n power).digits ≤
        i.value * tenTo (-(i.coarsest n power).power).toNat + 1 := by
  induction n generalizing power with
  | zero => exact ⟨by simp [coarsest], by simp [coarsest], Nat.zero_le _⟩
  | succ n ih =>
    unfold coarsest
    split
    · next digits found =>
      exact ⟨by dsimp only; omega, by dsimp only; omega, le_of_multiple? found⟩
    · obtain ⟨low, high, bound⟩ := ih (power - 1)
      exact ⟨by omega, by omega, bound⟩

/-- No number is above two to the power of 1024. -/
theorem Interval.value_le {mantissa : Nat} {power : Int} (h : IsMagnitude mantissa power) :
    (Interval.of mantissa power).value ≤ 2 ^ (2 * 512) := by
  have magnitude := h.power_le
  have unit : (if power ≥ 2 then twoTo (power - 2).toNat else 1) ≤ 2 ^ 969 := by
    split
    · exact Nat.pow_le_pow_right (by decide) (by omega)
    · exact Nat.two_pow_pos 969
  have scaled : 4 * mantissa ≤ 2 ^ 55 := by
    have := h.mantissa_lt
    omega
  calc (Interval.of mantissa power).value
      = 4 * mantissa * (if power ≥ 2 then twoTo (power - 2).toNat else 1) := rfl
    _ ≤ 2 ^ 55 * 2 ^ 969 := Nat.mul_le_mul scaled unit
    _ = 2 ^ (2 * 512) := by rw [← Nat.pow_add]

/-- No number needs a larger power of ten above it than the 309th, nor a smaller one than the
-323rd. -/
theorem ceilingPower_bounds {mantissa : Nat} {power : Int} (h : IsMagnitude mantissa power)
    (ne : mantissa ≠ 0) :
    -323 ≤ ceilingPower mantissa power ∧ ceilingPower mantissa power ≤ 309 := by
  have log : mantissa.log2 < 53 := (Nat.log2_lt ne).mpr h.mantissa_lt
  have low : (-1074 : Int) ≤ power := h.power_ge
  have high := h.power_le
  unfold ceilingPower
  omega

/-- No magnitude has an exponent that calls for scientific notation. -/
theorem exponent_shortest {mantissa : Nat} {power : Int} (h : IsMagnitude mantissa power) :
    -1000 ≤ (shortest mantissa power).exponent ∧ (shortest mantissa power).exponent < 1000 := by
  unfold shortest
  split
  · decide
  · next ne =>
    obtain ⟨least, most⟩ := ceilingPower_bounds h ne
    obtain ⟨low, high, bound⟩ :=
      (Interval.of mantissa power).coarsest_bounds 20 (ceilingPower mantissa power)
    generalize (Interval.of mantissa power).coarsest 20 (ceilingPower mantissa power) = d at *
    have count : d.digitChars.length ≤ 513 + (-d.power).toNat := by
      refine (Nat.length_toDigits_le_iff (by decide) (by omega)).mpr ?_
      have two : (2 : Nat) ^ (2 * 512) ≤ 10 ^ 512 := by
        rw [Nat.pow_mul]
        exact Nat.pow_le_pow_left (by decide) 512
      have ten : 0 < 10 ^ (-d.power).toNat := Nat.pow_pos (by decide)
      have value : (Interval.of mantissa power).value * 10 ^ (-d.power).toNat ≤
          10 ^ 512 * 10 ^ (-d.power).toNat :=
        Nat.mul_le_mul_right _ (Nat.le_trans (Interval.value_le h) two)
      have room : 0 < 10 ^ 512 * 10 ^ (-d.power).toNat :=
        Nat.mul_pos (Nat.pow_pos (by decide)) ten
      have step : (10 : Nat) ^ (513 + (-d.power).toNat) =
          10 * (10 ^ 512 * 10 ^ (-d.power).toNat) := by
        rw [Nat.pow_add, Nat.pow_succ', Nat.mul_assoc]
      rw [step]
      have tens : tenTo (-d.power).toNat = 10 ^ (-d.power).toNat := rfl
      rw [tens] at bound
      generalize 10 ^ 512 * 10 ^ (-d.power).toNat = top at *
      omega
    have least_count : 0 < d.digitChars.length := Nat.length_toDigits_pos
    unfold exponent
    omega

/-- What a text reads as is written in digits around an optional point. -/
theorem isNumeral_of_read? {cs : List Char} {x : Float} (h : read? cs = some x) :
    IsNumeral (treeNumber.number x).toList := by
  obtain ⟨mantissa, power, hshape, magnitude⟩ := shape_of_read? h
  obtain ⟨low, high⟩ := exponent_shortest magnitude
  have text : treeNumber.number x = (shortest mantissa power).positional := by
    have least : treeNumber.least = -1000 := rfl
    have limit : treeNumber.limit = 1000 := rfl
    rw [Layout.number, hshape]
    dsimp only
    rw [if_neg (by decide), String.empty_append, Layout.text, if_neg (by omega)]
  rw [text]
  exact isNumeral_positional _

end Lox.Decimal
