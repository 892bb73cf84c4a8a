import Showreel.Proofs.Number.Sums

/-!
Contract: what doubles come to when they are divided, and which numbers they reach.

Owns:
- the least number whose nearest double is infinite, and that the numbers below it are in range;
- that the quotient of two finite doubles is the double nearest to the exact quotient;
- when it is finite.

Does not own: what is divided.
-/

namespace Showreel.Number.Binary64

open Float.Model
open Float.Model.UnpackedFloat (Sign)

/-! ### The range of doubles -/

/-- Halfway between the largest finite double and the next power of two. -/
def threshold : ℚ :=
  (2 ^ 54 - 1) * 2 ^ 970

theorem threshold_lt : threshold < 2 ^ (1024 : ℤ) := by
  have top : (2 : ℚ) ^ (1024 : ℤ) = 2 ^ 54 * 2 ^ 970 := by
    rw [← pow_add]
    rfl
  rw [top, threshold]
  gcongr
  norm_num

theorem threshold_scaled : threshold * 2 ^ ((52 : ℤ) - 1023) = (2 ^ 53 - 1 : ℕ) + 1 / 2 := by
  have scale : (2 : ℚ) ^ ((52 : ℤ) - 1023) = (2 ^ 970)⁻¹ / 2 := by
    rw [show ((52 : ℤ) - 1023) = -((970 : ℕ) : ℤ) - 1 by norm_num, zpow_sub_one₀ two_ne_zero,
      zpow_neg, zpow_natCast, div_eq_mul_inv]
  rw [scale, threshold, mul_assoc, ← mul_div_assoc, mul_inv_cancel₀ (by positivity)]
  norm_num

/-- A quotient that is less than half above a whole number is rounded to no more. -/
theorem roundedQuotient_le_of_lt {numerator denominator bound : Nat} (positive : 0 < denominator)
    (below : (numerator : ℚ) / denominator < bound + 1 / 2) :
    roundedQuotient numerator denominator ≤ bound := by
  have above : (0 : ℚ) < denominator := mod_cast positive
  have crossed : 2 * numerator < (2 * bound + 1) * denominator := by
    rw [div_lt_iff₀ above] at below
    have doubled : (2 : ℚ) * numerator < (2 * bound + 1) * denominator := by linarith
    exact mod_cast doubled
  have parts := Nat.div_add_mod numerator denominator
  have whole : numerator / denominator ≤ bound := by
    by_contra more
    have := Nat.mul_le_mul_right denominator (not_le.mp more)
    have := Nat.div_mul_le_self numerator denominator
    linarith
  unfold roundedQuotient
  rcases whole.lt_or_eq with less | same
  · dsimp only
    split_ifs <;> omega
  · have half : 2 * (numerator % denominator) < denominator := by
      rw [same] at parts
      linarith
    dsimp only
    rw [if_pos half, same]

/-- **The word nearest to a quotient is finite exactly below the threshold.** -/
theorem nearestBits_lt_iff {numerator denominator : Nat} (positive : 0 < denominator) :
    nearestBits numerator denominator < infinityBits
      ↔ (numerator : ℚ) / denominator < threshold := by
  constructor
  · intro finite
    by_contra beyond
    have top : nearestBits ((2 ^ 54 - 1) * 2 ^ 970) 1 = infinityBits := by decide +kernel
    have whole : threshold = ((2 ^ 54 - 1) * 2 ^ 970 : ℕ) / (1 : ℕ) := by
      rw [Nat.cast_one, div_one, threshold, Nat.cast_mul, Nat.cast_pow]
      norm_num
    rw [not_lt, whole] at beyond
    have atLeast := nearestBits_mono one_pos positive beyond
    omega
  · intro below
    rcases le_or_gt ((numerator : ℚ) / denominator) largest with within | larger
    · exact nearestBits_lt positive within
    · -- beyond the largest double the quotient is still in the last binade
      have nonzero : numerator ≠ 0 := by
        rintro rfl
        rw [Nat.cast_zero, zero_div] at larger
        exact absurd larger (by unfold largest; norm_num)
      obtain ⟨low, high⟩ := binaryExponent_spec nonzero positive.ne'
      obtain ⟨exponent, scaled, scale, exponentIs, scalePositive, quotient, bits⟩ :=
        nearestBits_eq nonzero positive
      have atMost := (zpow_lt_zpow_iff_right₀ (by norm_num : (1 : ℚ) < 2)).mp
        (low.trans_lt (below.trans threshold_lt))
      have bottom : (2 : ℚ) ^ (1023 : ℤ) < numerator / denominator := by
        refine lt_of_le_of_lt ?_ larger
        rw [largest, show (2 : ℚ) ^ (1023 : ℤ) = 2 ^ 52 * 2 ^ 971 by rw [← pow_add]; rfl]
        gcongr
        norm_num
      have atLeast := (zpow_lt_zpow_iff_right₀ (by norm_num : (1 : ℚ) < 2)).mp (bottom.trans high)
      obtain rfl : exponent = 1023 := by omega
      have significand : roundedQuotient scaled scale ≤ 2 ^ 53 - 1 := by
        apply roundedQuotient_le_of_lt scalePositive
        rw [quotient, ← threshold_scaled]
        gcongr
      rw [bits]
      refine (min_le_left _ _).trans_lt ?_
      unfold infinityBits fractionBits
      norm_num at significand ⊢
      omega

/-- **A number is in range exactly below the threshold.** -/
theorem isFinite_ofRat_iff {exact : ℚ} :
    Scalar.isFinite (ofRat exact) = true ↔ |exact| < threshold := by
  rw [isFinite_iff, magnitudeBits_ofRat, nearestBits_lt_iff exact.pos, natAbs_num_div_den]

/-! ### Quotients -/

theorem signed_div (sign signToo : Sign) (magnitude other : ℚ) :
    signed sign magnitude / signed signToo other = signed (sign / signToo) (magnitude / other) := by
  cases sign with
  | positive =>
      cases signToo with
      | positive => rfl
      | negative => exact div_neg _
  | negative =>
      cases signToo with
      | positive => exact neg_div _ _
      | negative => exact neg_div_neg_eq _ _

/-- The quotient of two mantissas is taken to as many places as a double keeps. -/
theorem placed_div {mantissa mantissaToo : Nat} (exponent exponentToo : ℤ)
    (positive : 0 < mantissa) (short : mantissa < 2 ^ 53) (positiveToo : 0 < mantissaToo) :
    ∃ places : Nat, ∃ target : ℤ, target = exponent - exponentToo - places
      ∧ Placed (mantissa * 2 ^ places) mantissaToo target
      ∧ UnpackedFloat.divCore Format.binary64 mantissa exponent mantissaToo exponentToo
        = (mantissa * 2 ^ places / mantissaToo, target, UnpackedFloat.accuracyOfFraction
            (mantissa * 2 ^ places % mantissaToo) mantissaToo) := by
  obtain ⟨target, targetIs⟩ : ∃ target : ℤ, target = min (exponent - exponentToo)
      (Format.binary64.targetExponent
        (totalExponent mantissa exponent - totalExponent mantissaToo exponentToo)) := ⟨_, rfl⟩
  have target' : target = min (exponent - exponentToo)
      (max ((mantissa.log2 : ℤ) - mantissaToo.log2 + (exponent - exponentToo) - 53) (-1074)) := by
    rw [targetIs]
    simp only [Format.targetExponent, totalExponent, Format.mantissaBits, Format.minExponent]
    omega
  have core : UnpackedFloat.divCore Format.binary64 mantissa exponent mantissaToo exponentToo
      = (mantissa * 2 ^ (exponent - exponentToo - target).toNat / mantissaToo, target,
          UnpackedFloat.accuracyOfFraction
            (mantissa * 2 ^ (exponent - exponentToo - target).toNat % mantissaToo) mantissaToo) := by
    rw [UnpackedFloat.divCore, targetIs, Nat.shiftLeft_eq]
  refine ⟨(exponent - exponentToo - target).toNat, target, by omega,
    ⟨by positivity, positiveToo, ?_⟩, core⟩
  by_cases low : target ≤ -1074
  · exact .inl low
  -- the quotient has its leading bit at the place of the difference of the lengths, or one below
  have length : mantissa.log2 < 53 := (Nat.log2_lt positive.ne').mpr short
  have places : (exponent - exponentToo - target).toNat + mantissa.log2
      = 52 + (mantissaToo.log2 + 1) := by omega
  right
  rw [Nat.le_div_iff_mul_le positiveToo]
  calc 2 ^ 52 * mantissaToo ≤ 2 ^ 52 * 2 ^ (mantissaToo.log2 + 1) :=
        Nat.mul_le_mul_left _ Nat.lt_log2_self.le
    _ = 2 ^ mantissa.log2 * 2 ^ (exponent - exponentToo - target).toNat := by
        rw [← pow_add, ← pow_add, ← places, Nat.add_comm]
    _ ≤ mantissa * 2 ^ (exponent - exponentToo - target).toNat :=
        Nat.mul_le_mul_right _ (Nat.log2_self_le positive.ne')

theorem Reads.div {form formToo : UnpackedFloat} {exact other : ℚ} (reads : Reads form exact)
    (readsToo : Reads formToo other) (nonzero : other ≠ 0) :
    denotation (.ofModel (.pack (UnpackedFloat.div Format.binary64 form formToo)))
      = denotation (ofRat (exact / other)) := by
  cases readsToo with
  | zero => exact absurd rfl nonzero
  | @finite signToo mantissaToo exponentToo positiveToo =>
      cases reads with
      | zero sign =>
          rw [zero_div, (Reads.zero sign).nearest]
          exact (Reads.zero _).denotation_pack
      | @finite sign mantissa exponent positive short =>
          obtain ⟨places, target, targetIs, placed, core⟩ :=
            placed_div exponent exponentToo positive short positiveToo
          have value : (mantissa : ℚ) * 2 ^ exponent / (mantissaToo * 2 ^ exponentToo)
              = ((mantissa * 2 ^ places : ℕ) : ℚ) / mantissaToo * 2 ^ target := by
            rw [targetIs, zpow_sub₀ two_ne_zero, zpow_sub₀ two_ne_zero, zpow_natCast, Nat.cast_mul,
              Nat.cast_pow]
            field_simp
            norm_num
          rw [UnpackedFloat.div, core, signed_div, value]
          exact denotation_roundFraction _ placed

/-- **The quotient of two finite doubles is the double nearest to the exact quotient.** -/
theorem denotation_div_nearest {dividend divisor : Float} {exact other : ℚ}
    (finite : denotation dividend = .finite exact) (finiteToo : denotation divisor = .finite other)
    (nonzero : other ≠ 0) :
    denotation (dividend / divisor) = denotation (ofRat (exact / other)) :=
  (reads_of_finite finite).div (reads_of_finite finiteToo) nonzero

end Showreel.Number.Binary64
