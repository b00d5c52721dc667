import Lox.Decimal.Read
import Mathlib

/-!
The bits of a number: what is no NaN has the bits it was made from, and what a decimal reads as is a
finite magnitude without a sign.
-/

namespace Lox.Decimal

open Float.Model Float.Model.UnpackedFloat

theorem toBitVec_ofBitVec (v : BitVec 1) : (Sign.ofBitVec v).toBitVec = v := by
  revert v
  decide

section Pack

variable (b : BitVec Format.binary64.numBits)

/-- Sign, exponent and mantissa side by side are the number. -/
theorem components_eq :
    packComponents Format.binary64 (Sign.ofBitVec (unpackSign b)) (unpackExponent b)
      (unpackMantissa b) = b := by
  rw [packComponents, toBitVec_ofBitVec]
  -- bit by bit: the mantissa, then the exponent, then the sign
  apply BitVec.eq_of_getLsbD_eq
  intro i hi
  have bound : i < 64 := hi
  simp only [unpackSign, unpackExponent, unpackMantissa, BitVec.getLsbD_append,
    BitVec.getLsbD_cast, BitVec.getLsbD_extractLsb]
  split
  · next h => simp [h]
  · next h =>
    split
    · next h' =>
      have place : 52 + (i - 52) = i := by omega
      rw [place]
      simp [h']
    · next h' =>
      have place : 52 + 11 + (i - 52 - 11) = i := by omega
      have one : i - 52 - 11 < 1 := by omega
      rw [place]
      simp [one]

theorem toNat_unpackMantissa : (unpackMantissa b).toNat = b.toNat % 2 ^ 52 := by
  simp [unpackMantissa, BitVec.extractLsb_toNat]

theorem toNat_unpackExponent : (unpackExponent b).toNat = b.toNat / 2 ^ 52 % 2 ^ 11 := by
  simp [unpackExponent, BitVec.extractLsb_toNat, Nat.shiftRight_eq_div_pow]

/-- A mantissa with its leading bit. -/
theorem toNat_implicit (m : BitVec 52) : (1#1 ++ m).toNat = 2 ^ 52 + m.toNat := by
  rw [BitVec.toNat_append, ← Nat.shiftLeft_add_eq_or_of_lt m.isLt]
  rfl

/-- Packing a mantissa below the leading bit leaves the exponent empty. -/
theorem pack_subnormal {s : Sign} {m : Nat} {e : Int} (pos : 0 < m) (below : m < 2 ^ 52)
    (he : e = -1074) :
    pack Format.binary64 (.finite s m e pos) =
      packComponents Format.binary64 s 0#_ (BitVec.ofNat _ m) := by
  have log : m.log2 < 52 := (Nat.log2_lt (by omega)).mpr below
  have biased : (e + (Format.binary64.exponentBias : Int)
      + (Format.binary64.mantissaBitsWithoutImplicit : Int)).toNat = 1 := by
    rw [he]
    rfl
  have bits : Format.binary64.mantissaBits = 53 := rfl
  unfold UnpackedFloat.pack
  dsimp only
  rw [biased, bits, if_neg (by decide), if_neg (by omega)]

/-- Packing a mantissa with its leading bit keeps the exponent. -/
theorem pack_normal {s : Sign} {m n : Nat} {e : Int} (pos : 0 < m) (low : 2 ^ 52 ≤ m)
    (high : m < 2 ^ 53) (he : e = n - 1075) (hn : n < 2047) :
    pack Format.binary64 (.finite s m e pos) =
      packComponents Format.binary64 s (BitVec.ofNat _ n) (BitVec.ofNat _ m) := by
  have log : m.log2 = 52 := by
    have upper : m.log2 < 53 := (Nat.log2_lt (by omega)).mpr high
    have lower : 52 ≤ m.log2 := (Nat.le_log2 (by omega)).mpr low
    omega
  have bias : (Format.binary64.exponentBias : Int) = 1023 := rfl
  have width : (Format.binary64.mantissaBitsWithoutImplicit : Int) = 52 := rfl
  have biased : (e + (Format.binary64.exponentBias : Int)
      + (Format.binary64.mantissaBitsWithoutImplicit : Int)).toNat = n := by
    rw [bias, width]
    omega
  have bits : Format.binary64.mantissaBits = 53 := rfl
  have room : (2 : Nat) ^ Format.binary64.exponentBits = 2048 := rfl
  unfold UnpackedFloat.pack
  dsimp only
  rw [biased, bits, log, room, if_neg (by omega), if_pos rfl]

/-- What is no NaN is packed as it was unpacked. -/
theorem pack_unpack (h : unpackExponent b = -1#_ → unpackMantissa b = 0#_) :
    UnpackedFloat.pack Format.binary64 (UnpackedFloat.unpack Format.binary64 b) = b := by
  have whole := components_eq b
  have bias : (Format.binary64.exponentBias : Int) = 1023 := rfl
  have width : (Format.binary64.mantissaBitsWithoutImplicit : Int) = 52 := rfl
  have mantissa : (unpackMantissa b).toNat < 2 ^ 52 := (unpackMantissa b).isLt
  unfold UnpackedFloat.unpack
  dsimp only
  split
  · next hexp =>
    rw [if_pos (h hexp), UnpackedFloat.pack, packedInfinity]
    rwa [hexp, h hexp] at whole
  · next hexp =>
    split
    · next hzero =>
      split
      · next hmantissa =>
        rw [UnpackedFloat.pack, packedZero]
        rwa [hzero, hmantissa] at whole
      · rw [pack_subnormal _ mantissa (by rw [hzero, bias, width]; rfl), BitVec.ofNat_toNat]
        rw [hzero] at whole
        simpa using whole
    -- neither infinite nor subnormal: the implicit bit is put before the mantissa and taken off
    -- again
    · have below : (unpackExponent b).toNat < 2047 := by
        have bound : (unpackExponent b).toNat < 2 ^ 11 := (unpackExponent b).isLt
        have ne : (unpackExponent b).toNat ≠ 2047 := fun heq =>
          hexp (BitVec.eq_of_toNat_eq heq)
        omega
      have implicit : (1#1 ++ unpackMantissa b).toNat = 2 ^ 52 + (unpackMantissa b).toNat :=
        toNat_implicit _
      rw [pack_normal _ (by omega) (by omega) (by rw [bias, width]; omega) below]
      have exponent : BitVec.ofNat 11 (unpackExponent b).toNat = unpackExponent b := by simp
      have fraction : BitVec.ofNat 52 (1#1 ++ unpackMantissa b).toNat = unpackMantissa b := by
        apply BitVec.eq_of_toNat_eq
        rw [BitVec.toNat_ofNat, implicit]
        omega
      show packComponents _ _ (BitVec.ofNat 11 _) (BitVec.ofNat 52 _) = b
      rw [exponent, fraction]
      exact whole

end Pack

/-- The bits below those of infinity are kept. -/
theorem toBits_ofBits {n : Nat} (h : n ≤ infinityBits) :
    (Float.ofBits (.ofNat n)).toBits.toNat = n := by
  have infinity : infinityBits = 2047 * 2 ^ 52 := rfl
  have bound : n < 2 ^ 64 := by omega
  have bits : (UInt64.ofNat n).toBitVec.toNat = n := by
    rw [UInt64.toNat_toBitVec, UInt64.toNat_ofNat', Nat.mod_eq_of_lt bound]
  -- above infinity there would be other numbers with no value, but this is not above
  have exact_ : UnpackedFloat.pack Format.binary64
      (UnpackedFloat.unpack Format.binary64 (UInt64.ofNat n).toBitVec) =
        (UInt64.ofNat n).toBitVec := by
    refine pack_unpack _ fun hexp => ?_
    have exponent := congrArg BitVec.toNat hexp
    rw [toNat_unpackExponent, bits] at exponent
    have all : (-1#_ : BitVec Format.binary64.exponentBits).toNat = 2047 := rfl
    rw [all] at exponent
    apply BitVec.eq_of_toNat_eq
    rw [toNat_unpackMantissa, bits]
    have zero : (0#_ : BitVec Format.binary64.mantissaBitsWithoutImplicit).toNat = 0 := rfl
    rw [zero]
    omega
  show (UnpackedFloat.pack Format.binary64
    (UnpackedFloat.unpack Format.binary64 (UInt64.ofNat n).toBitVec)).toNat = n
  rw [exact_, bits]

/-! ### Magnitudes -/

/-- A mantissa and a power as they come from the bits of a finite number. -/
structure IsMagnitude (mantissa : Nat) (power : Int) : Prop where
  mantissa_lt : mantissa < 2 ^ 53
  power_ge : leastPower ≤ power
  power_le : power ≤ 971
  normal : power = leastPower ∨ 2 ^ 52 ≤ mantissa

/-- Below infinity every pattern of bits is a finite number of the right size. -/
theorem shape_ofBits {n : Nat} (h : n < infinityBits) :
    ∃ mantissa power, shape (.ofBits (.ofNat n)) = .finite false mantissa power ∧
      IsMagnitude mantissa power := by
  have infinity : infinityBits = 2047 * 2 ^ 52 := rfl
  have two52 : twoTo 52 = 2 ^ 52 := rfl
  have two11 : twoTo 11 = 2 ^ 11 := rfl
  have positive : ¬ twoTo 63 ≤ n := by
    have : twoTo 63 = 2 ^ 63 := rfl
    omega
  have least : leastPower = -1074 := rfl
  unfold shape
  rw [toBits_ofBits (by omega)]
  dsimp only
  rw [two52, two11, if_neg (by omega), decide_eq_false positive]
  split
  · exact ⟨_, _, rfl, by omega, by omega, by omega, .inl rfl⟩
  · exact ⟨_, _, rfl, by omega, by omega, by omega, .inr (by omega)⟩

/-- A fraction is read as the number with the bits that are nearest. -/
theorem nearest_eq (num den : Nat) :
    nearest false num den = .ofBits (.ofNat (nearestBits num den)) := by
  rw [nearest, if_neg (by simp), Nat.zero_add]

/-- No fraction is read as more than infinity. -/
theorem nearestBits_le (num den : Nat) : nearestBits num den ≤ infinityBits := by
  unfold nearestBits
  split
  · exact Nat.zero_le _
  · exact Nat.min_le_left ..

theorem isInf_infinityBits : (Float.ofBits (.ofNat infinityBits)).isInf = true := by
  decide

/-- What a spelling reads as is finite and has no sign. -/
theorem shape_of_read? {cs : List Char} {x : Float} (h : read? cs = some x) :
    ∃ mantissa power, shape x = .finite false mantissa power ∧ IsMagnitude mantissa power := by
  have value : ∃ n, n ≤ infinityBits ∧ (ofSpelling cs).toFloat false = .ofBits (.ofNat n) := by
    unfold toFloat
    split
    · exact ⟨_, nearestBits_le _ _, nearest_eq _ _⟩
    · exact ⟨_, nearestBits_le _ _, nearest_eq _ _⟩
  obtain ⟨n, bound, hvalue⟩ := value
  unfold read? at h
  dsimp only at h
  rw [hvalue] at h
  split at h
  · cases h
  · next finite =>
    cases h
    refine shape_ofBits (Nat.lt_of_le_of_ne bound ?_)
    rintro rfl
    exact finite isInf_infinityBits

end Lox.Decimal
