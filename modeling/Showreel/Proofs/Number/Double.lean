import Mathlib
import Showreel.Number.Shortest

/-!
Contract: the range of doubles, and doubles that are not zero.

Owns:
- words and their unpacked form, and the change of sign;
- the double nearest to a rational is finite up to the largest double, which bounds every finite
  double;
- rounding to a mantissa of full length, and products of doubles that are not small, which are not
  zero.

Does not own: the precise results of rounding, and the order of doubles.
-/

namespace Showreel.Number.Binary64

open Float.Model
open Float.Model.UnpackedFloat (Sign packComponents unpackExponent unpackMantissa unpackSign)

/-! ### Words -/

theorem toNat_unpackExponent (word : BitVec Format.binary64.numBits) :
    (unpackExponent word).toNat = word.toNat / 2 ^ 52 % 2 ^ 11 := by
  rw [UnpackedFloat.unpackExponent_def, BitVec.extractLsb'_toNat, Nat.shiftRight_eq_div_pow]

theorem toNat_unpackMantissa (word : BitVec Format.binary64.numBits) :
    (unpackMantissa word).toNat = word.toNat % 2 ^ 52 := by
  rw [UnpackedFloat.unpackMantissa_def, BitVec.extractLsb'_toNat, Nat.shiftRight_zero]

theorem toNat_packComponents (sign : Sign) (exponent : BitVec 11) (mantissa : BitVec 52) :
    (packComponents Format.binary64 sign exponent mantissa).toNat
      = sign.toBitVec.toNat * 2 ^ 63 + exponent.toNat * 2 ^ 52 + mantissa.toNat := by
  have exponentFits := exponent.isLt
  have mantissaFits := mantissa.isLt
  simp only [packComponents, BitVec.toNat_append]
  rw [← Nat.shiftLeft_add_eq_or_of_lt exponentFits, ← Nat.shiftLeft_add_eq_or_of_lt mantissaFits]
  simp only [Nat.shiftLeft_eq]
  omega

/-- The magnitude part of a packed word does not depend on its sign. -/
theorem packComponents_mod (sign other : Sign) (exponent : BitVec 11) (mantissa : BitVec 52) :
    (packComponents Format.binary64 sign exponent mantissa).toNat % 2 ^ 63
      = (packComponents Format.binary64 other exponent mantissa).toNat % 2 ^ 63 := by
  rw [toNat_packComponents, toNat_packComponents]
  omega

theorem isNaNBits_eq_false {word : BitVec Format.binary64.numBits}
    (numeric : word.toNat % 2 ^ 63 ≤ infinityBits) : UnpackedFloat.isNaNBits word = false := by
  simp only [UnpackedFloat.isNaNBits, decide_eq_false_iff_not, not_and, not_not]
  intro full
  have exponent := congrArg BitVec.toNat full
  rw [toNat_unpackExponent] at exponent
  apply BitVec.eq_of_toNat_eq
  rw [toNat_unpackMantissa]
  simp [infinityBits, fractionBits] at exponent numeric ⊢
  omega

theorem toBits_ofBits {word : UInt64} (numeric : word.toNat % 2 ^ 63 ≤ infinityBits) :
    (Float.ofBits word).toBits = word := by
  have packed := @UnpackedFloat.pack_unpack Format.binary64 word.toBitVec
  rw [isNaNBits_eq_false numeric, if_neg Bool.false_ne_true] at packed
  exact congrArg UInt64.ofBitVec packed

theorem pack_unpack_toModel (value : Float) :
    UnpackedFloat.pack Format.binary64 value.toModel.unpack = value.toBits.toBitVec :=
  UnpackedFloat.pack_unpack_of_valid value.toModel.valid

theorem magnitudeBits_ofModel (unpacked : UnpackedFloat) :
    magnitudeBits (.ofModel (.pack unpacked))
      = (UnpackedFloat.pack Format.binary64 unpacked).toNat % 2 ^ 63 := rfl

/-- A change of sign leaves the magnitude. -/
theorem magnitudeBits_neg (value : Float) : magnitudeBits (-value) = magnitudeBits value := by
  have repacked : magnitudeBits value
      = (UnpackedFloat.pack Format.binary64 value.toModel.unpack).toNat % 2 ^ 63 := by
    rw [pack_unpack_toModel]
    rfl
  rw [repacked]
  change (UnpackedFloat.pack Format.binary64 (UnpackedFloat.neg value.toModel.unpack)).toNat % 2 ^ 63
    = _
  cases value.toModel.unpack with
  | notANumber => rfl
  | infinity sign =>
      simp only [UnpackedFloat.neg, UnpackedFloat.pack, UnpackedFloat.packedInfinity]
      exact packComponents_mod _ _ _ _
  | zero sign =>
      simp only [UnpackedFloat.neg, UnpackedFloat.pack, UnpackedFloat.packedZero]
      exact packComponents_mod _ _ _ _
  | finite sign mantissa exponent positive =>
      simp only [UnpackedFloat.neg, UnpackedFloat.pack, UnpackedFloat.packedInfinity]
      split_ifs
      · exact packComponents_mod _ _ _ _
      · exact packComponents_mod _ _ _ _
      · exact packComponents_mod _ _ _ _

theorem isFinite_iff {value : Float} :
    Scalar.isFinite value = true ↔ magnitudeBits value < infinityBits := by
  have stands : Scalar.denotation value = denotation value := rfl
  unfold Scalar.isFinite
  rw [stands]
  unfold denotation
  by_cases finite : magnitudeBits value < infinityBits
  · simp [finite]
  · by_cases infinite : magnitudeBits value = infinityBits
    · simp [infinite]
    · simp [finite, infinite]

/-! ### The double nearest to a quotient -/

theorem roundedQuotient_le {numerator denominator bound : Nat}
    (below : numerator ≤ bound * denominator) : roundedQuotient numerator denominator ≤ bound := by
  unfold roundedQuotient
  have split := Nat.div_add_mod numerator denominator
  rcases Nat.eq_zero_or_pos denominator with rfl | positive
  · simp [Nat.le_zero.mp below]
  have whole : numerator / denominator ≤ bound := Nat.div_le_of_le_mul (by linarith)
  rcases whole.lt_or_eq with less | same
  · dsimp only
    split_ifs <;> omega
  · have exact : numerator % denominator = 0 := by
      rw [same] at split
      have : denominator * bound = bound * denominator := Nat.mul_comm _ _
      omega
    simp [exact, positive, same]

theorem le_roundedQuotient {numerator denominator bound : Nat} (positive : 0 < denominator)
    (above : bound * denominator ≤ numerator) : bound ≤ roundedQuotient numerator denominator := by
  have whole : bound ≤ numerator / denominator := (Nat.le_div_iff_mul_le positive).mpr above
  unfold roundedQuotient
  dsimp only
  split_ifs <;> omega

theorem roundedQuotient_le_of_div_le {numerator denominator bound : Nat}
    (positive : 0 < denominator) (below : (numerator : ℚ) / denominator ≤ bound) :
    roundedQuotient numerator denominator ≤ bound := by
  have above : (0 : ℚ) < denominator := mod_cast positive
  rw [div_le_iff₀ above] at below
  exact roundedQuotient_le (mod_cast below)

theorem le_roundedQuotient_of_le_div {numerator denominator bound : Nat}
    (positive : 0 < denominator) (atLeast : (bound : ℚ) ≤ numerator / denominator) :
    bound ≤ roundedQuotient numerator denominator := by
  have above : (0 : ℚ) < denominator := mod_cast positive
  rw [le_div_iff₀ above] at atLeast
  exact le_roundedQuotient positive (mod_cast atLeast)

/-- A quotient of lengths of binary numbers bounds the quotient of the numbers. -/
theorem log2_quotient {numerator denominator : Nat} (nonzero : numerator ≠ 0)
    (positive : denominator ≠ 0) :
    (2 : ℚ) ^ ((numerator.log2 : ℤ) - denominator.log2 - 1) ≤ numerator / denominator
      ∧ (numerator : ℚ) / denominator < 2 ^ ((numerator.log2 : ℤ) - denominator.log2 + 1) := by
  have above : (0 : ℚ) < denominator := by positivity
  have numeratorLow : (2 : ℚ) ^ numerator.log2 ≤ numerator := mod_cast Nat.log2_self_le nonzero
  have numeratorHigh : (numerator : ℚ) < 2 ^ (numerator.log2 + 1) := mod_cast Nat.lt_log2_self
  have denominatorLow : (2 : ℚ) ^ denominator.log2 ≤ denominator :=
    mod_cast Nat.log2_self_le positive
  have denominatorHigh : (denominator : ℚ) < 2 ^ (denominator.log2 + 1) :=
    mod_cast Nat.lt_log2_self
  constructor
  · calc (2 : ℚ) ^ ((numerator.log2 : ℤ) - denominator.log2 - 1)
        = 2 ^ numerator.log2 / 2 ^ (denominator.log2 + 1) := by
          rw [sub_sub, zpow_sub₀ two_ne_zero, zpow_natCast]
          norm_cast
      _ ≤ numerator / denominator := by gcongr
  · calc (numerator : ℚ) / denominator
        < 2 ^ (numerator.log2 + 1) / 2 ^ denominator.log2 := by gcongr
      _ = 2 ^ ((numerator.log2 : ℤ) - denominator.log2 + 1) := by
          rw [sub_add_eq_add_sub, zpow_sub₀ two_ne_zero, zpow_natCast]
          norm_cast

/-- Whether a power of two is at most a quotient, by whole numbers alone. -/
def powerFits (numerator denominator : Nat) : ℤ → Bool
  | .ofNat places => decide (denominator * 2 ^ places ≤ numerator)
  | .negSucc places => decide (denominator ≤ numerator * 2 ^ (places + 1))

theorem powerFits_iff {numerator denominator : Nat} (positive : (0 : ℚ) < denominator) (guess : ℤ) :
    powerFits numerator denominator guess = true ↔ (2 : ℚ) ^ guess ≤ numerator / denominator := by
  rw [le_div_iff₀ positive]
  cases guess with
  | ofNat places =>
      simp only [powerFits, decide_eq_true_eq, Int.ofNat_eq_natCast, zpow_natCast]
      rw [mul_comm]
      norm_cast
  | negSucc places =>
      simp only [powerFits, decide_eq_true_eq, zpow_negSucc]
      rw [inv_mul_le_iff₀ (by positivity), mul_comm ((2 : ℚ) ^ (places + 1))]
      norm_cast

theorem binaryExponent_spec {numerator denominator : Nat} (nonzero : numerator ≠ 0)
    (positive : denominator ≠ 0) :
    (2 : ℚ) ^ binaryExponent numerator denominator ≤ numerator / denominator
      ∧ (numerator : ℚ) / denominator < 2 ^ (binaryExponent numerator denominator + 1) := by
  have above : (0 : ℚ) < denominator := by positivity
  obtain ⟨low, high⟩ := log2_quotient nonzero positive
  have fits : ∀ guess : ℤ, powerFits numerator denominator guess = true
      ↔ (2 : ℚ) ^ guess ≤ numerator / denominator := powerFits_iff above
  by_cases fitted : (2 : ℚ) ^ ((numerator.log2 : ℤ) - denominator.log2) ≤ numerator / denominator
  · have guessed : binaryExponent numerator denominator = (numerator.log2 : ℤ) - denominator.log2 :=
      if_pos ((fits _).mpr fitted)
    rw [guessed]
    exact ⟨fitted, high⟩
  · have corrected : binaryExponent numerator denominator
        = (numerator.log2 : ℤ) - denominator.log2 - 1 :=
      if_neg fun missed => fitted ((fits _).mp missed)
    rw [corrected, sub_add_cancel]
    exact ⟨low, not_le.mp fitted⟩

/-- The significand is the quotient, scaled so that its leading bit comes to its place. -/
theorem nearestBits_eq {numerator denominator : Nat} (nonzero : numerator ≠ 0)
    (positive : 0 < denominator) :
    ∃ exponent : ℤ, ∃ scaled scale : Nat, exponent = max (binaryExponent numerator denominator) (-1022)
      ∧ 0 < scale
      ∧ (scaled : ℚ) / scale = numerator / denominator * 2 ^ (52 - exponent)
      ∧ nearestBits numerator denominator
        = min ((exponent + 1022).toNat * 2 ^ 52 + roundedQuotient scaled scale) infinityBits := by
  refine ⟨max (binaryExponent numerator denominator) (-1022), ?_⟩
  unfold nearestBits
  rw [if_neg nonzero]
  dsimp only [leastExponent, fractionBits]
  generalize max (binaryExponent numerator denominator) (-1022) = exponent
  cases shift : (52 : ℤ) - exponent with
  | ofNat places =>
      refine ⟨numerator * 2 ^ places, denominator, rfl, positive, ?_, ?_⟩
      · push_cast
        simp only [Int.ofNat_eq_natCast, zpow_natCast]
        ring
      · simp
  | negSucc places =>
      refine ⟨numerator, denominator * 2 ^ (places + 1), rfl, by positivity, ?_, ?_⟩
      · push_cast
        rw [zpow_negSucc]
        field_simp
      · simp

/-- The largest finite double. -/
def largest : ℚ := (2 ^ 53 - 1) * 2 ^ 971

theorem largest_lt : largest < 2 ^ (1024 : ℤ) := by
  have top : (2 : ℚ) ^ (1024 : ℤ) = 2 ^ 53 * 2 ^ 971 := by
    rw [← pow_add]
    rfl
  rw [top, largest]
  gcongr
  norm_num

theorem largest_scaled : largest * 2 ^ ((52 : ℤ) - 1023) = 2 ^ 53 - 1 := by
  have scale : (2 : ℚ) ^ ((52 : ℤ) - 1023) = (2 ^ 971)⁻¹ := rfl
  rw [scale, largest, mul_assoc, mul_inv_cancel₀ (by positivity), mul_one]

/-- A quotient below a power of two, scaled to the place of its leading bit. -/
theorem scaled_power (exponent : ℤ) : (2 : ℚ) ^ (exponent + 1) * 2 ^ (52 - exponent) = 2 ^ 53 := by
  rw [← zpow_add₀ two_ne_zero, show exponent + 1 + (52 - exponent) = ((53 : ℕ) : ℤ) by
    push_cast
    ring, zpow_natCast]

section Significand

variable {numerator denominator scaled scale : Nat} {exponent : ℤ}

/-- A quotient below the next power of two has at most the full significand. -/
theorem significand_le (positive : 0 < scale)
    (quotient : (scaled : ℚ) / scale = numerator / denominator * 2 ^ (52 - exponent))
    (high : (numerator : ℚ) / denominator ≤ 2 ^ (exponent + 1)) :
    roundedQuotient scaled scale ≤ 2 ^ 53 := by
  apply roundedQuotient_le_of_div_le positive
  push_cast
  rw [quotient]
  calc (numerator : ℚ) / denominator * 2 ^ (52 - exponent)
      ≤ 2 ^ (exponent + 1) * 2 ^ (52 - exponent) := by gcongr
    _ = 2 ^ 53 := scaled_power exponent

/-- A quotient from a power of two on has a leading bit in its significand. -/
theorem le_significand (positive : 0 < scale)
    (quotient : (scaled : ℚ) / scale = numerator / denominator * 2 ^ (52 - exponent))
    (low : (2 : ℚ) ^ exponent ≤ numerator / denominator) :
    2 ^ 52 ≤ roundedQuotient scaled scale := by
  apply le_roundedQuotient_of_le_div positive
  push_cast
  rw [quotient]
  calc (2 : ℚ) ^ 52 = 2 ^ exponent * 2 ^ (52 - exponent) := by
        rw [← zpow_add₀ two_ne_zero]
        norm_num
    _ ≤ (numerator : ℚ) / denominator * 2 ^ (52 - exponent) := by gcongr

end Significand

theorem nearestBits_lt {numerator denominator : Nat} (positive : 0 < denominator)
    (bounded : (numerator : ℚ) / denominator ≤ largest) :
    nearestBits numerator denominator < infinityBits := by
  rcases Nat.eq_zero_or_pos numerator with rfl | nonzero
  · simp [nearestBits, infinityBits, fractionBits]
  obtain ⟨low, high⟩ := binaryExponent_spec nonzero.ne' positive.ne'
  obtain ⟨exponent, scaled, scale, exponentIs, scalePositive, quotient, bits⟩ :=
    nearestBits_eq nonzero.ne' positive
  have exponentFits : exponent ≤ 1023 := by
    have small : (2 : ℚ) ^ binaryExponent numerator denominator < 2 ^ (1024 : ℤ) := by
      exact low.trans_lt (bounded.trans_lt largest_lt)
    have := (zpow_lt_zpow_iff_right₀ (by norm_num : (1 : ℚ) < 2)).mp small
    omega
  have significandFits : roundedQuotient scaled scale ≤ 2 ^ 53 := by
    apply significand_le scalePositive quotient
    refine high.le.trans (zpow_le_zpow_right₀ (by norm_num) ?_)
    omega
  rw [bits]
  refine (min_le_left _ _).trans_lt ?_
  rcases exponentFits.lt_or_eq with less | rfl
  · have field : (exponent + 1022).toNat ≤ 2044 := by omega
    have : (exponent + 1022).toNat * 2 ^ 52 ≤ 2044 * 2 ^ 52 := Nat.mul_le_mul_right _ field
    unfold infinityBits fractionBits
    omega
  · -- in the last binade the significand stays below the power that would carry over
    have significandLess : roundedQuotient scaled scale ≤ 2 ^ 53 - 1 := by
      apply roundedQuotient_le_of_div_le scalePositive
      have whole : ((2 ^ 53 - 1 : Nat) : ℚ) = 2 ^ 53 - 1 := by norm_num
      rw [quotient, whole]
      calc (numerator : ℚ) / denominator * 2 ^ ((52 : ℤ) - 1023)
          ≤ largest * 2 ^ ((52 : ℤ) - 1023) := by gcongr
        _ = 2 ^ 53 - 1 := largest_scaled
    unfold infinityBits fractionBits
    norm_num at significandLess ⊢
    omega

theorem le_nearestBits {numerator denominator : Nat} (positive : 0 < denominator)
    (bounded : 1 ≤ (numerator : ℚ) / denominator) :
    1023 * 2 ^ 52 ≤ nearestBits numerator denominator := by
  have nonzero : numerator ≠ 0 := by
    rintro rfl
    norm_num at bounded
  obtain ⟨low, high⟩ := binaryExponent_spec nonzero positive.ne'
  obtain ⟨exponent, scaled, scale, exponentIs, scalePositive, quotient, bits⟩ :=
    nearestBits_eq nonzero positive
  have atLeast : 0 ≤ binaryExponent numerator denominator := by
    have large : (2 : ℚ) ^ (0 : ℤ) < 2 ^ (binaryExponent numerator denominator + 1) := by
      rw [zpow_zero]
      exact bounded.trans_lt high
    have := (zpow_lt_zpow_iff_right₀ (by norm_num : (1 : ℚ) < 2)).mp large
    omega
  have same : exponent = binaryExponent numerator denominator := by omega
  have significand : 2 ^ 52 ≤ roundedQuotient scaled scale := by
    apply le_significand scalePositive quotient
    rw [same]
    exact low
  rw [bits, le_min_iff]
  have field : 1022 * 2 ^ 52 ≤ (exponent + 1022).toNat * 2 ^ 52 := by
    apply Nat.mul_le_mul_right
    omega
  unfold infinityBits fractionBits
  constructor <;> omega

theorem nearestBits_le (numerator denominator : Nat) :
    nearestBits numerator denominator ≤ infinityBits := by
  unfold nearestBits
  split_ifs
  · exact Nat.zero_le _
  · exact min_le_right _ _

theorem toBits_ofMagnitude (numerator denominator : Nat) :
    (ofMagnitude numerator denominator).toBits.toNat = nearestBits numerator denominator := by
  have bounded := nearestBits_le numerator denominator
  have word : (UInt64.ofNat (nearestBits numerator denominator)).toNat
      = nearestBits numerator denominator := by
    rw [UInt64.toNat_ofNat']
    apply Nat.mod_eq_of_lt
    unfold infinityBits fractionBits at bounded
    omega
  rw [ofMagnitude, toBits_ofBits, word]
  rw [word]
  exact (Nat.mod_le _ _).trans bounded

theorem magnitudeBits_ofMagnitude (numerator denominator : Nat) :
    magnitudeBits (ofMagnitude numerator denominator) = nearestBits numerator denominator := by
  have bounded := nearestBits_le numerator denominator
  rw [magnitudeBits, toBits_ofMagnitude]
  apply Nat.mod_eq_of_lt
  unfold infinityBits fractionBits at bounded
  omega

theorem magnitudeBits_ofRat (exact : ℚ) :
    magnitudeBits (ofRat exact) = nearestBits exact.num.natAbs exact.den := by
  unfold ofRat
  dsimp only
  split_ifs
  · rw [magnitudeBits_neg, magnitudeBits_ofMagnitude]
  · exact magnitudeBits_ofMagnitude _ _

theorem natAbs_num_div_den (exact : ℚ) : (exact.num.natAbs : ℚ) / exact.den = |exact| := by
  rw [Nat.cast_natAbs, Int.cast_abs]
  conv_rhs => rw [← Rat.num_div_den exact, abs_div, Nat.abs_cast]

theorem isFinite_ofRat {exact : ℚ} (bounded : |exact| ≤ largest) :
    Scalar.isFinite (ofRat exact) = true := by
  rw [isFinite_iff, magnitudeBits_ofRat]
  apply nearestBits_lt exact.pos
  rwa [natAbs_num_div_den]

/-! ### The exact values of doubles -/

theorem binaryValue_eq (significand : Nat) (exponent : ℤ) :
    binaryValue significand exponent = significand * 2 ^ exponent := by
  cases exponent with
  | ofNat places =>
      simp [binaryValue]
  | negSucc places =>
      rw [binaryValue, Rat.mkRat_eq_div, zpow_negSucc, div_eq_mul_inv]
      push_cast
      rfl

theorem unpack_bounds {bits : Nat} (inside : bits < infinityBits) :
    (unpack bits).1 ≤ 2 ^ 53 - 1 ∧ (unpack bits).2 ≤ 971 := by
  unfold unpack leastExponent fractionBits
  unfold infinityBits fractionBits at inside
  dsimp only
  split_ifs
  · constructor
    · dsimp only
      omega
    · norm_num
  · constructor
    · dsimp only
      omega
    · dsimp only
      omega

theorem abs_le_largest {value : Float} {exact : ℚ} (finite : denotation value = .finite exact) :
    |exact| ≤ largest := by
  have stands : Scalar.denotation value = .finite exact := finite
  have inside : magnitudeBits value < infinityBits := by
    apply isFinite_iff.mp
    unfold Scalar.isFinite
    rw [stands]
  unfold denotation at finite
  rw [if_pos inside] at finite
  dsimp only at finite
  obtain ⟨significand, exponent⟩ := unpack_bounds inside
  generalize (unpack (magnitudeBits value)).1 = count at finite significand
  generalize (unpack (magnitudeBits value)).2 = place at finite exponent
  have magnitude : |exact| = count * 2 ^ place := by
    have nonnegative : (0 : ℚ) ≤ count * 2 ^ place := by positivity
    cases finite
    rw [binaryValue_eq]
    split_ifs
    · rw [abs_neg, abs_of_nonneg nonnegative]
    · exact abs_of_nonneg nonnegative
  have whole : (count : ℚ) ≤ 2 ^ 53 - 1 := by
    have : (count : ℚ) ≤ ((2 ^ 53 - 1 : ℕ) : ℚ) := mod_cast significand
    norm_num at this ⊢
    exact this
  have power : (2 : ℚ) ^ place ≤ 2 ^ 971 := by
    have := zpow_le_zpow_right₀ (by norm_num : (1 : ℚ) ≤ 2) exponent
    exact_mod_cast this
  rw [magnitude, largest]
  exact mul_le_mul whole power (by positivity) (by norm_num)

/-! ### Values that are not zero -/

theorem eq_zero_of_beq {value : Float} (zero : (value == (Scalar.ofRat 0 : Float)) = true) :
    value = 0 ∨ value = -0 := by
  have nothing : (Scalar.ofRat 0 : Float) = 0 := rfl
  rw [nothing, Float.beq_iff_ne_nan_and_eq] at zero
  rcases zero.2.2 with same | ⟨same, -⟩ | ⟨same, -⟩
  · exact .inl same
  · exact .inl same
  · exact .inr same

theorem beq_zero_of_magnitudeBits {value : Float} (nonzero : magnitudeBits value ≠ 0) :
    (value == (Scalar.ofRat 0 : Float)) = false := by
  rw [← Bool.not_eq_true]
  intro zero
  rcases eq_zero_of_beq zero with rfl | rfl
  · exact nonzero rfl
  · exact nonzero rfl

/-- A significand of full length makes a word that is not zero. -/
theorem magnitudeBits_pack {sign : Sign} {mantissa : Nat} {exponent : ℤ} {positive : 0 < mantissa}
    (full : mantissa.log2 = 52) (above : -1075 < exponent) :
    magnitudeBits (.ofModel (.pack (.finite sign mantissa exponent positive))) ≠ 0 := by
  rw [magnitudeBits_ofModel, UnpackedFloat.pack]
  dsimp only
  split_ifs with overflow normal
  · rw [UnpackedFloat.packedInfinity, toNat_packComponents]
    have ones : (-1#11 : BitVec 11).toNat = 2047 := rfl
    rw [ones]
    simp
  · rw [toNat_packComponents, BitVec.toNat_ofNat]
    change ¬2048 ≤ (exponent + 1023 + 52).toNat + 1 at overflow
    change (_ + (exponent + 1023 + 52).toNat % 2048 * 2 ^ 52 + _) % 2 ^ 63 ≠ 0
    have field : (exponent + 1023 + 52).toNat % 2048 = (exponent + 1023 + 52).toNat :=
      Nat.mod_eq_of_lt (by omega)
    have fraction := (BitVec.ofNat 52 mantissa).isLt
    omega
  · exact absurd (by rw [full]; rfl) normal

theorem toNat_leadingBit (fraction : BitVec 52) :
    (1#1 ++ fraction).toNat = 2 ^ 52 + fraction.toNat := by
  rw [BitVec.toNat_append, ← Nat.shiftLeft_add_eq_or_of_lt fraction.isLt]
  rfl

/-- The sign bit of a double. -/
def signOf (value : Float) : Sign :=
  .ofBitVec (@unpackSign Format.binary64 value.toModel.toBits.toBitVec)

/-- What a word unpacks to. The magnitude of a finite number is a number of its least places, with
the leading bit of the mantissa carried into the exponent. -/
inductive Unpacks (value : Float) : UnpackedFloat → Prop
  | undefined (above : infinityBits < magnitudeBits value) : Unpacks value .notANumber
  | infinite (top : magnitudeBits value = infinityBits) : Unpacks value (.infinity (signOf value))
  | zero (bottom : magnitudeBits value = 0) : Unpacks value (.zero (signOf value))
  | finite {mantissa : Nat} {exponent : ℤ} (positive : 0 < mantissa)
      (below : magnitudeBits value < infinityBits)
      (word : (magnitudeBits value : ℤ) = (exponent + 1074) * 2 ^ 52 + mantissa)
      (short : mantissa < 2 ^ 53) (least : -1074 ≤ exponent)
      (leading : exponent = -1074 ∨ 2 ^ 52 ≤ mantissa) :
      Unpacks value (.finite (signOf value) mantissa exponent positive)

theorem unpacks (value : Float) : Unpacks value value.toModel.unpack := by
  have exponentField : (@unpackExponent Format.binary64 value.toModel.toBits.toBitVec).toNat
      = magnitudeBits value / 2 ^ 52 := by
    rw [toNat_unpackExponent]
    change value.toBits.toNat / 2 ^ 52 % 2 ^ 11 = value.toBits.toNat % 2 ^ 63 / 2 ^ 52
    omega
  have mantissaField : (@unpackMantissa Format.binary64 value.toModel.toBits.toBitVec).toNat
      = magnitudeBits value % 2 ^ 52 := by
    rw [toNat_unpackMantissa]
    change value.toBits.toNat % 2 ^ 52 = value.toBits.toNat % 2 ^ 63 % 2 ^ 52
    omega
  rw [Float.Model.unpack, UnpackedFloat.unpack]
  dsimp only
  split_ifs with full nothing empty blank
  · rw [full] at exponentField
    rw [nothing] at mantissaField
    change 2047 = _ at exponentField
    change 0 = _ at mantissaField
    apply Unpacks.infinite
    unfold infinityBits fractionBits
    omega
  · rw [full] at exponentField
    change 2047 = _ at exponentField
    have some : (@unpackMantissa Format.binary64 value.toModel.toBits.toBitVec).toNat ≠ 0 :=
      fun none => nothing (BitVec.eq_of_toNat_eq none)
    apply Unpacks.undefined
    unfold infinityBits fractionBits
    omega
  · rw [empty] at exponentField
    rw [blank] at mantissaField
    change 0 = _ at exponentField
    change 0 = _ at mantissaField
    apply Unpacks.zero
    omega
  · rw [empty] at exponentField
    change 0 = _ at exponentField
    refine .finite _ ?below ?word ?short ?least (.inl ?leading)
    case below =>
      unfold infinityBits fractionBits
      omega
    case word =>
      rw [empty, mantissaField]
      change _ = ((0 : ℤ) - (1023 + 52) + 1 + 1074) * 2 ^ 52 + _
      omega
    case short =>
      rw [mantissaField]
      omega
    case least =>
      rw [empty]
      decide
    case leading =>
      rw [empty]
      rfl
  · have leadingBit := toNat_leadingBit (@unpackMantissa Format.binary64 value.toModel.toBits.toBitVec)
    have notFull : magnitudeBits value / 2 ^ 52 ≠ 2047 :=
      fun same => full (BitVec.eq_of_toNat_eq (exponentField.trans same))
    have notEmpty : magnitudeBits value / 2 ^ 52 ≠ 0 :=
      fun same => empty (BitVec.eq_of_toNat_eq (exponentField.trans same))
    have fits := (@unpackExponent Format.binary64 value.toModel.toBits.toBitVec).isLt
    change _ < 2048 at fits
    refine .finite _ ?below ?word ?short ?least (.inr ?leading)
    case below =>
      unfold infinityBits fractionBits
      omega
    case word =>
      rw [leadingBit, exponentField, mantissaField]
      change _ = (_ - (1023 + 52) + 1074) * 2 ^ 52 + _
      omega
    case short =>
      rw [leadingBit, mantissaField]
      omega
    case least =>
      rw [exponentField]
      change _ ≤ _ - (1023 + 52)
      omega
    case leading =>
      rw [leadingBit]
      omega

theorem log2_eq_of_leading {mantissa : Nat} (leading : 2 ^ 52 ≤ mantissa) (short : mantissa < 2 ^ 53) :
    mantissa.log2 = 52 :=
  (Nat.log2_eq_iff (by omega)).mpr ⟨leading, short⟩

/-- The unpacked form of a word with a leading bit. -/
theorem unpack_of_normal {value : Float} (low : 2 ^ 52 ≤ magnitudeBits value)
    (high : magnitudeBits value < infinityBits) :
    ∃ sign mantissa positive, value.toModel.unpack
        = .finite sign mantissa ((magnitudeBits value / 2 ^ 52 : Nat) - 1075 : ℤ) positive
      ∧ mantissa.log2 = 52 := by
  have unpacked := unpacks value
  generalize value.toModel.unpack = form at unpacked ⊢
  cases unpacked with
  | undefined above => omega
  | infinite top => omega
  | zero bottom => omega
  | @finite mantissa exponent positive below word short least leading =>
      have field : exponent = (magnitudeBits value / 2 ^ 52 : Nat) - 1075 := by omega
      subst field
      exact ⟨_, _, positive, rfl, log2_eq_of_leading (by omega) short⟩

/-! ### Rounding -/

theorem mantissa_shiftRight (extended : UnpackedFloat.ExtendedMantissa) (places : Nat) :
    (extended >>> places).mantissa = extended.mantissa / 2 ^ places := by
  change (places.repeat UnpackedFloat.ExtendedMantissa.shiftRightOne extended).mantissa = _
  induction places with
  | zero => simp [Nat.repeat]
  | succ places inductionHypothesis =>
      rw [Nat.repeat, UnpackedFloat.ExtendedMantissa.shiftRightOne, inductionHypothesis, pow_succ,
        Nat.div_div_eq_div_mul]

theorem ne_zero_of_log2 {mantissa : Nat} (full : mantissa.log2 = 52) : mantissa ≠ 0 := by
  rintro rfl
  exact absurd full (by decide)

theorem log2_div_two_pow {mantissa : Nat} (long : 52 ≤ mantissa.log2) :
    (mantissa / 2 ^ (mantissa.log2 - 52)).log2 = 52 := by
  rw [Nat.log2_eq_log_two] at long ⊢
  rw [Nat.log2_eq_log_two, Nat.log_div_base_pow]
  omega

theorem shiftToTargetExponent_long {mantissa : Nat} {exponent : ℤ}
    (accuracy : UnpackedFloat.Accuracy) (long : 52 ≤ mantissa.log2) (above : -1000 ≤ exponent) :
    UnpackedFloat.shiftToTargetExponent Format.binary64 mantissa exponent accuracy
      = (UnpackedFloat.ExtendedMantissa.ofMantissaAndAccuracy mantissa accuracy
            >>> (mantissa.log2 - 52),
          exponent + (mantissa.log2 - 52 : Nat)) := by
  have target : Format.binary64.targetExponent (totalExponent mantissa exponent)
      = exponent + (mantissa.log2 - 52 : Nat) := by
    simp only [Format.targetExponent, totalExponent, Format.mantissaBits, Format.minExponent]
    omega
  have places : (exponent + (mantissa.log2 - 52 : Nat) - exponent).toNat = mantissa.log2 - 52 := by
    omega
  simp only [UnpackedFloat.shiftToTargetExponent, target, UnpackedFloat.shiftToExponent, places]

theorem roundedMantissa_bounds (extended : UnpackedFloat.ExtendedMantissa) :
    extended.mantissa ≤ extended.roundedMantissa
      ∧ extended.roundedMantissa ≤ extended.mantissa + 1 := by
  rcases extended with ⟨mantissa, _ | _, _ | _⟩
  · exact ⟨le_refl _, Nat.le_succ _⟩
  · exact ⟨le_refl _, Nat.le_succ _⟩
  · exact ⟨Nat.le_add_right _ _, Nat.add_le_add_left (by omega) _⟩
  · exact ⟨Nat.le_add_right _ _, le_refl _⟩

theorem mantissa_ofMantissaAndAccuracy (mantissa : Nat) (accuracy : UnpackedFloat.Accuracy) :
    (UnpackedFloat.ExtendedMantissa.ofMantissaAndAccuracy mantissa accuracy).mantissa = mantissa := by
  rcases accuracy with _ | ⟨_ | _ | _⟩ <;> rfl

theorem log2_shifted {mantissa : Nat} (accuracy : UnpackedFloat.Accuracy)
    (long : 52 ≤ mantissa.log2) :
    (UnpackedFloat.ExtendedMantissa.ofMantissaAndAccuracy mantissa accuracy
      >>> (mantissa.log2 - 52)).mantissa.log2 = 52 := by
  rw [mantissa_shiftRight, mantissa_ofMantissaAndAccuracy, log2_div_two_pow long]

/-- A carry out of the rounding lengthens the mantissa by one bit at most. -/
theorem log2_roundedMantissa {extended : UnpackedFloat.ExtendedMantissa}
    (full : extended.mantissa.log2 = 52) :
    52 ≤ extended.roundedMantissa.log2 ∧ extended.roundedMantissa.log2 ≤ 53 := by
  have bounds := (Nat.log2_eq_iff (ne_zero_of_log2 full)).mp full
  have kept := roundedMantissa_bounds extended
  have nonzero : extended.roundedMantissa ≠ 0 := by omega
  have short : extended.roundedMantissa.log2 < 54 := (Nat.log2_lt nonzero).mpr (by omega)
  exact ⟨(Nat.le_log2 nonzero).mpr (bounds.1.trans kept.1), by omega⟩

/-- A long enough significand is rounded to full length. -/
theorem roundWithAccuracy_full (sign : Sign) {mantissa : Nat} {exponent : ℤ}
    (accuracy : UnpackedFloat.Accuracy) (long : 52 ≤ mantissa.log2) (above : -1000 ≤ exponent) :
    ∃ rounded place positive, UnpackedFloat.roundWithAccuracy Format.binary64 sign mantissa exponent
        accuracy = .finite sign rounded place positive
      ∧ rounded.log2 = 52 ∧ exponent + (mantissa.log2 - 52 : Nat) ≤ place
      ∧ place ≤ exponent + (mantissa.log2 - 52 : Nat) + 1 := by
  obtain ⟨carried, short⟩ := log2_roundedMantissa (log2_shifted accuracy long)
  have settled := log2_shifted .exact carried
  have again := shiftToTargetExponent_long .exact carried
    (show -1000 ≤ exponent + (mantissa.log2 - 52 : Nat) by omega)
  simp only [UnpackedFloat.roundWithAccuracy, shiftToTargetExponent_long accuracy long above, again,
    dif_neg (ne_zero_of_log2 settled)]
  exact ⟨_, _, Nat.pos_of_ne_zero (ne_zero_of_log2 settled), rfl, settled, by omega, by omega⟩

/-! ### Products -/

theorem magnitudeBits_mul {first second : Float}
    (firstLow : 1023 * 2 ^ 52 ≤ magnitudeBits first) (firstHigh : magnitudeBits first < infinityBits)
    (secondLow : 1023 * 2 ^ 52 ≤ magnitudeBits second)
    (secondHigh : magnitudeBits second < infinityBits) : magnitudeBits (first * second) ≠ 0 := by
  obtain ⟨sign, mantissa, positive, unpacked, full⟩ := unpack_of_normal (by omega) firstHigh
  obtain ⟨signToo, mantissaToo, positiveToo, unpackedToo, fullToo⟩ :=
    unpack_of_normal (by omega) secondHigh
  have long : 52 ≤ (mantissa * mantissaToo).log2 := by
    have bounds := (Nat.log2_eq_iff positive.ne').mp full
    have boundsToo := (Nat.log2_eq_iff positiveToo.ne').mp fullToo
    apply (Nat.le_log2 (Nat.mul_pos positive positiveToo).ne').mpr
    nlinarith
  have high : (-1000 : ℤ) ≤ (magnitudeBits first / 2 ^ 52 : Nat) - 1075
      + ((magnitudeBits second / 2 ^ 52 : Nat) - 1075) := by omega
  obtain ⟨rounded, place, roundedPositive, round, roundedFull, above, -⟩ :=
    roundWithAccuracy_full (sign * signToo) .exact long high
  change magnitudeBits (.ofModel (.pack (UnpackedFloat.mul Format.binary64 first.toModel.unpack
    second.toModel.unpack))) ≠ 0
  rw [unpacked, unpackedToo, UnpackedFloat.mul, round]
  exact magnitudeBits_pack roundedFull (by omega)

end Showreel.Number.Binary64
