import Showreel.Proofs.Number.Comparison

/-!
Contract: the doubles nearest to exact numbers.

Owns:
- that shifting a quotient with its residual bits rounds the quotient by a power of two;
- the word of a rounded fraction, which is the word nearest to its exact value;
- that every word, and every number with a short mantissa, is nearest to itself.

Does not own: what is computed with doubles.
-/

namespace Showreel.Number.Binary64

open Float.Model
open Float.Model.UnpackedFloat (Sign packComponents ExtendedMantissa)

/-! ### Shifts that round -/

/-- An extended mantissa stands for a quotient: its residual bits compare what is left with half of
the divisor. -/
structure Stands (extended : ExtendedMantissa) (numerator denominator : Nat) : Prop where
  mantissa : extended.mantissa = numerator / denominator
  roundBit : extended.roundBit = true ↔ denominator ≤ 2 * (numerator % denominator)
  stickyBit : extended.stickyBit = true
    ↔ numerator % denominator ≠ 0 ∧ 2 * (numerator % denominator) ≠ denominator

theorem Stands.rounded {extended : ExtendedMantissa} {numerator denominator : Nat}
    (stands : Stands extended numerator denominator) :
    extended.roundedMantissa = roundedQuotient numerator denominator := by
  rcases extended with ⟨mantissa, roundBit, stickyBit⟩
  rcases stands with ⟨rfl, half, some⟩
  dsimp only at half some
  unfold ExtendedMantissa.roundedMantissa roundedQuotient
  dsimp only
  generalize numerator / denominator = whole
  -- the four values of the residual bits are the four cases of the comparison
  cases roundBit <;> cases stickyBit <;>
    simp only [Bool.false_eq_true, true_iff, false_iff] at half some <;>
    simp only [ExtendedMantissa.accuracy, UnpackedFloat.Accuracy.roundToNearestEven] <;>
    split_ifs <;> omega

theorem Stands.shiftRightOne {extended : ExtendedMantissa} {numerator denominator : Nat}
    (stands : Stands extended numerator denominator) (positive : 0 < denominator) :
    Stands extended.shiftRightOne numerator (denominator * 2) := by
  have split : numerator % (denominator * 2)
      = numerator % denominator + denominator * (numerator / denominator % 2) := Nat.mod_mul
  have less := Nat.mod_lt numerator positive
  rcases extended with ⟨mantissa, roundBit, stickyBit⟩
  rcases stands with ⟨rfl, half, some⟩
  dsimp only at half some
  unfold ExtendedMantissa.shiftRightOne
  refine ⟨Nat.div_div_eq_div_mul .., ?_, ?_⟩
  · dsimp only
    rw [split, bne_iff_ne]
    rcases Nat.mod_two_eq_zero_or_one (numerator / denominator) with even | odd
    · rw [even]
      omega
    · rw [odd]
      omega
  · dsimp only
    rw [split, Bool.or_eq_true, half, some]
    rcases Nat.mod_two_eq_zero_or_one (numerator / denominator) with even | odd
    · rw [even]
      omega
    · rw [odd]
      omega

/-- A quotient stands for its fraction with the accuracy that its remainder gives it. -/
theorem Stands.ofFraction (numerator : Nat) {denominator : Nat} (positive : 0 < denominator) :
    Stands (.ofMantissaAndAccuracy (numerator / denominator)
      (UnpackedFloat.accuracyOfFraction (numerator % denominator) denominator))
      numerator denominator := by
  unfold UnpackedFloat.accuracyOfFraction
  by_cases exact : numerator % denominator = 0
  · rw [if_pos exact]
    refine ⟨rfl, ?_, ?_⟩
    · rw [exact]
      exact iff_of_false Bool.false_ne_true (by omega)
    · rw [exact]
      exact iff_of_false Bool.false_ne_true (by simp)
  · rw [if_neg exact]
    -- the accuracy compares the remainder with half of the denominator, and so do the two bits
    cases side : compare (2 * (numerator % denominator)) denominator with
    | lt =>
        have below := Nat.compare_eq_lt.mp side
        exact ⟨rfl, iff_of_false Bool.false_ne_true (by omega), iff_of_true rfl (by omega)⟩
    | eq =>
        have half := Nat.compare_eq_eq.mp side
        exact ⟨rfl, iff_of_true rfl (by omega), iff_of_false Bool.false_ne_true (by omega)⟩
    | gt =>
        have above := Nat.compare_eq_gt.mp side
        exact ⟨rfl, iff_of_true rfl (by omega), iff_of_true rfl (by omega)⟩

theorem Stands.shiftRight {extended : ExtendedMantissa} {numerator denominator : Nat}
    (stands : Stands extended numerator denominator) (positive : 0 < denominator) (places : Nat) :
    Stands (extended >>> places) numerator (denominator * 2 ^ places) := by
  change Stands (places.repeat ExtendedMantissa.shiftRightOne extended) _ _
  induction places with
  | zero =>
      rw [pow_zero, mul_one]
      exact stands
  | succ places inductionHypothesis =>
      rw [Nat.repeat, pow_succ, ← mul_assoc]
      exact inductionHypothesis.shiftRightOne (Nat.mul_pos positive (Nat.two_pow_pos places))

/-! ### The word of a rounded number -/

/-- The exponent of the last place of a number, once it is rounded. -/
def lastPlace (mantissa : Nat) (exponent : ℤ) : ℤ :=
  max (mantissa.log2 + exponent - 52) (-1074)

theorem shiftToTargetExponent_eq (mantissa : Nat) (exponent : ℤ)
    (accuracy : UnpackedFloat.Accuracy) :
    UnpackedFloat.shiftToTargetExponent Format.binary64 mantissa exponent accuracy
      = (ExtendedMantissa.ofMantissaAndAccuracy mantissa accuracy
            >>> (lastPlace mantissa exponent - exponent).toNat,
          exponent + (lastPlace mantissa exponent - exponent).toNat) := by
  have target : Format.binary64.targetExponent (totalExponent mantissa exponent)
      = lastPlace mantissa exponent := by
    simp only [Format.targetExponent, totalExponent, Format.mantissaBits, Format.minExponent,
      lastPlace]
    omega
  rw [UnpackedFloat.shiftToTargetExponent, target, UnpackedFloat.shiftToExponent]

theorem lastPlace_of_short {mantissa : Nat} {exponent : ℤ} (short : mantissa < 2 ^ 53)
    (least : -1074 ≤ exponent) : lastPlace mantissa exponent ≤ exponent := by
  have length : mantissa.log2 ≤ 52 := by
    rcases Nat.eq_zero_or_pos mantissa with rfl | positive
    · decide
    · have := (Nat.log2_lt positive.ne').mpr short
      omega
  unfold lastPlace
  omega

/-- A fraction whose quotient, at its exponent, has all the places that a double keeps. -/
structure Placed (numerator divisor : Nat) (exponent : ℤ) : Prop where
  positive : 0 < numerator
  divides : 0 < divisor
  settled : exponent ≤ -1074 ∨ 2 ^ 52 ≤ numerator / divisor

/-- The mantissa that is left of a fraction when the places beyond the last are rounded. -/
def keptQuotient (numerator divisor : Nat) (exponent : ℤ) : Nat :=
  roundedQuotient numerator
    (divisor * 2 ^ (lastPlace (numerator / divisor) exponent - exponent).toNat)

/-- The quotient of a fraction has as many places as its length tells. -/
theorem lt_two_pow_length (numerator : Nat) {divisor : Nat} (divides : 0 < divisor) :
    numerator < divisor * 2 ^ ((numerator / divisor).log2 + 1) := by
  rw [mul_comm]
  exact (Nat.div_lt_iff_lt_mul divides).mp Nat.lt_log2_self

namespace Placed

variable {numerator divisor : Nat} {exponent : ℤ}

theorem fits (placed : Placed numerator divisor exponent) :
    exponent ≤ lastPlace (numerator / divisor) exponent := by
  unfold lastPlace
  rcases placed.settled with low | long
  · omega
  · have length := (Nat.le_log2 (by omega)).mpr long
    omega

theorem kept_le (placed : Placed numerator divisor exponent) :
    keptQuotient numerator divisor exponent ≤ 2 ^ 53 := by
  have fits := placed.fits
  apply roundedQuotient_le
  rw [mul_left_comm, ← pow_add]
  refine ((lt_two_pow_length _ placed.divides).trans_le ?_).le
  refine Nat.mul_le_mul_left _ (Nat.pow_le_pow_right two_pos ?_)
  unfold lastPlace at fits ⊢
  omega

/-- Above the least exponent a rounded mantissa has its leading bit. -/
theorem le_kept (placed : Placed numerator divisor exponent)
    (above : lastPlace (numerator / divisor) exponent ≠ -1074) :
    2 ^ 52 ≤ keptQuotient numerator divisor exponent := by
  have fits := placed.fits
  have some : numerator / divisor ≠ 0 := by
    intro nothing
    rcases placed.settled with low | long
    · rw [lastPlace, nothing, Nat.log2_zero] at above
      omega
    · omega
  apply le_roundedQuotient (Nat.mul_pos placed.divides (Nat.two_pow_pos _))
  rw [mul_left_comm, ← pow_add]
  calc divisor * 2 ^ (52 + (lastPlace (numerator / divisor) exponent - exponent).toNat)
      ≤ divisor * 2 ^ (numerator / divisor).log2 := by
        refine Nat.mul_le_mul_left _ (Nat.pow_le_pow_right two_pos ?_)
        unfold lastPlace at fits above ⊢
        omega
    _ ≤ divisor * (numerator / divisor) := Nat.mul_le_mul_left _ (Nat.log2_self_le some)
    _ ≤ numerator := Nat.mul_div_le _ _

end Placed

/-- A whole number is a fraction over one. -/
theorem placed_whole {mantissa : Nat} {exponent : ℤ} (positive : 0 < mantissa)
    (fits : exponent ≤ lastPlace mantissa exponent) : Placed mantissa 1 exponent := by
  refine ⟨positive, one_pos, ?_⟩
  rw [Nat.div_one]
  by_contra neither
  rw [not_or, not_le, not_le] at neither
  have length := (Nat.log2_lt positive.ne').mpr neither.2
  unfold lastPlace at fits
  omega

/-- What a mantissa without residual bits is shifted to: it stays as it is, or gives up its last
place to a carry. -/
theorem shiftToTargetExponent_exact {mantissa : Nat} {exponent : ℤ} (bounded : mantissa ≤ 2 ^ 53)
    (least : -1074 ≤ exponent) :
    ∃ last final, (UnpackedFloat.shiftToTargetExponent Format.binary64 mantissa exponent
          .exact).1.mantissa = last
      ∧ (UnpackedFloat.shiftToTargetExponent Format.binary64 mantissa exponent .exact).2 = final
      ∧ (mantissa < 2 ^ 53 ∧ last = mantissa ∧ final = exponent
        ∨ mantissa = 2 ^ 53 ∧ last = 2 ^ 52 ∧ final = exponent + 1) := by
  refine ⟨_, _, rfl, rfl, ?_⟩
  rw [shiftToTargetExponent_eq]
  dsimp only
  rw [mantissa_shiftRight, mantissa_ofMantissaAndAccuracy]
  rcases bounded.lt_or_eq with short | carried
  · have place := lastPlace_of_short short least
    rw [show (lastPlace mantissa exponent - exponent).toNat = 0 by omega]
    exact .inl ⟨short, Nat.div_one _, add_zero _⟩
  · have place : lastPlace mantissa exponent = exponent + 1 := by
      rw [carried, lastPlace, Nat.log2_two_pow]
      omega
    rw [place, carried, show (exponent + 1 - exponent).toNat = 1 by omega]
    exact .inr ⟨rfl, rfl, rfl⟩

theorem biasedExponent (exponent : ℤ) :
    (exponent + Format.binary64.exponentBias
      + Format.binary64.mantissaBitsWithoutImplicit).toNat = (exponent + 1075).toNat := by
  change (exponent + 1023 + 52).toNat = _
  omega

theorem toNat_packedInfinity (sign : Sign) :
    (UnpackedFloat.packedInfinity Format.binary64 sign).toNat
      = sign.toBitVec.toNat * 2 ^ 63 + infinityBits := by
  change (packComponents Format.binary64 sign (BitVec.ofNat 11 2047) (BitVec.ofNat 52 0)).toNat = _
  rw [toNat_packComponents, BitVec.toNat_ofNat, BitVec.toNat_ofNat]
  unfold infinityBits fractionBits
  omega

theorem toNat_packedZero (sign : Sign) :
    (UnpackedFloat.packedZero Format.binary64 sign).toNat = sign.toBitVec.toNat * 2 ^ 63 := by
  change (packComponents Format.binary64 sign (BitVec.ofNat 11 0) (BitVec.ofNat 52 0)).toNat = _
  rw [toNat_packComponents, BitVec.toNat_ofNat, BitVec.toNat_ofNat]
  omega

/-- The word of a number in its rounded form. -/
theorem toNat_pack_finite (sign : Sign) {mantissa : Nat} {exponent : ℤ} (positive : 0 < mantissa)
    (short : mantissa < 2 ^ 53) (least : -1074 ≤ exponent)
    (leading : exponent = -1074 ∨ 2 ^ 52 ≤ mantissa) :
    (UnpackedFloat.pack Format.binary64 (.finite sign mantissa exponent positive)).toNat
      = sign.toBitVec.toNat * 2 ^ 63
        + min ((exponent + 1074).toNat * 2 ^ 52 + mantissa) infinityBits := by
  by_cases overflow : 972 ≤ exponent
  · rw [UnpackedFloat.pack]
    dsimp only
    rw [biasedExponent, if_pos]
    · rw [toNat_packedInfinity]
      unfold infinityBits fractionBits
      omega
    · change 2048 ≤ _
      omega
  by_cases full : 2 ^ 52 ≤ mantissa
  · rw [pack_of_normal sign positive (log2_eq_of_leading full short) least (by omega),
      toNat_packComponents, BitVec.toNat_ofNat, BitVec.toNat_ofNat]
    unfold infinityBits fractionBits
    omega
  · have length : mantissa.log2 < 52 := (Nat.log2_lt positive.ne').mpr (by omega)
    rw [UnpackedFloat.pack]
    dsimp only
    rw [biasedExponent, if_neg, if_neg]
    · change (packComponents Format.binary64 sign (BitVec.ofNat 11 0)
        (BitVec.ofNat 52 mantissa)).toNat = _
      rw [toNat_packComponents, BitVec.toNat_ofNat, BitVec.toNat_ofNat]
      unfold infinityBits fractionBits
      omega
    · change ¬mantissa.log2 + 1 = 53
      omega
    · change ¬2048 ≤ _
      omega

/-- The word of a number in its rounded form, or of zero. -/
theorem toNat_pack_settled (sign : Sign) {mantissa : Nat} {exponent : ℤ}
    (short : mantissa < 2 ^ 53) (least : -1074 ≤ exponent)
    (leading : exponent = -1074 ∨ 2 ^ 52 ≤ mantissa) :
    (UnpackedFloat.pack Format.binary64
        (if nothing : mantissa = 0 then .zero sign
          else .finite sign mantissa exponent (Nat.pos_of_ne_zero nothing))).toNat
      = sign.toBitVec.toNat * 2 ^ 63
        + min ((exponent + 1074).toNat * 2 ^ 52 + mantissa) infinityBits := by
  split_ifs with nothing
  · obtain rfl : exponent = -1074 := by omega
    rw [UnpackedFloat.pack, toNat_packedZero, nothing]
    omega
  · exact toNat_pack_finite sign _ short least leading

/-- **The word of a rounded fraction** has its place and its mantissa in one sum, up to infinity. -/
theorem toNat_pack_roundFraction (sign : Sign) {numerator divisor : Nat} {exponent : ℤ}
    (placed : Placed numerator divisor exponent) :
    (UnpackedFloat.pack Format.binary64
        (UnpackedFloat.roundWithAccuracy Format.binary64 sign (numerator / divisor) exponent
          (UnpackedFloat.accuracyOfFraction (numerator % divisor) divisor))).toNat
      = sign.toBitVec.toNat * 2 ^ 63
        + min ((lastPlace (numerator / divisor) exponent + 1074).toNat * 2 ^ 52
            + keptQuotient numerator divisor exponent) infinityBits := by
  have fits := placed.fits
  have bounded := placed.kept_le
  have leading := placed.le_kept
  have least : -1074 ≤ lastPlace (numerator / divisor) exponent := le_max_right _ _
  have first : exponent + (lastPlace (numerator / divisor) exponent - exponent).toNat
      = lastPlace (numerator / divisor) exponent := by omega
  have rounded : (ExtendedMantissa.ofMantissaAndAccuracy (numerator / divisor)
        (UnpackedFloat.accuracyOfFraction (numerator % divisor) divisor)
      >>> (lastPlace (numerator / divisor) exponent - exponent).toNat).roundedMantissa
      = keptQuotient numerator divisor exponent :=
    ((Stands.ofFraction numerator placed.divides).shiftRight placed.divides _).rounded
  rcases shiftToTargetExponent_exact bounded least with ⟨last, final, settled, place, carries⟩
  rw [UnpackedFloat.roundWithAccuracy, shiftToTargetExponent_eq]
  dsimp only
  rw [first, rounded]
  simp only [settled, place]
  have word : (final + 1074).toNat * 2 ^ 52 + last
      = (lastPlace (numerator / divisor) exponent + 1074).toNat * 2 ^ 52
        + keptQuotient numerator divisor exponent := by
    omega
  rw [toNat_pack_settled sign (by omega) (by omega) (by omega), word]

/-- Where the leading bit of a fraction stands, if a double has a place for it. -/
theorem Placed.leading {numerator denominator dividend divisor : Nat} {exponent : ℤ}
    (placed : Placed dividend divisor exponent) (nonzero : numerator ≠ 0) (positive : 0 < denominator)
    (value : (numerator : ℚ) / denominator = dividend / divisor * 2 ^ exponent) :
    max (binaryExponent numerator denominator) (-1022)
      = lastPlace (dividend / divisor) exponent + 52 := by
  have divides : (0 : ℚ) < divisor := mod_cast placed.divides
  obtain ⟨low, high⟩ := binaryExponent_spec nonzero positive.ne'
  rw [value] at low high
  have most : (dividend : ℚ) / divisor < 2 ^ (((dividend / divisor).log2 : ℤ) + 1) := by
    rw [div_lt_iff₀' divides]
    exact mod_cast lt_two_pow_length dividend placed.divides
  have below : (2 : ℚ) ^ binaryExponent numerator denominator
      < 2 ^ (((dividend / divisor).log2 : ℤ) + 1 + exponent) := by
    calc (2 : ℚ) ^ binaryExponent numerator denominator
        ≤ dividend / divisor * 2 ^ exponent := low
      _ < 2 ^ (((dividend / divisor).log2 : ℤ) + 1) * 2 ^ exponent := by gcongr
      _ = 2 ^ (((dividend / divisor).log2 : ℤ) + 1 + exponent) := (zpow_add₀ two_ne_zero _ _).symm
  have atMost := (zpow_lt_zpow_iff_right₀ (by norm_num : (1 : ℚ) < 2)).mp below
  have bound := placed.settled
  unfold lastPlace
  by_cases some : dividend / divisor = 0
  · rw [some, Nat.log2_zero] at atMost ⊢
    omega
  · have least : (2 : ℚ) ^ ((dividend / divisor).log2 : ℤ) ≤ dividend / divisor := by
      calc (2 : ℚ) ^ ((dividend / divisor).log2 : ℤ) ≤ (dividend / divisor : ℕ) :=
            mod_cast Nat.log2_self_le some
        _ ≤ dividend / divisor := Nat.cast_div_le
    have above : (2 : ℚ) ^ (((dividend / divisor).log2 : ℤ) + exponent)
        < 2 ^ (binaryExponent numerator denominator + 1) := by
      calc (2 : ℚ) ^ (((dividend / divisor).log2 : ℤ) + exponent)
          = 2 ^ ((dividend / divisor).log2 : ℤ) * 2 ^ exponent := zpow_add₀ two_ne_zero _ _
        _ ≤ dividend / divisor * 2 ^ exponent := by gcongr
        _ < 2 ^ (binaryExponent numerator denominator + 1) := high
    have atLeast := (zpow_lt_zpow_iff_right₀ (by norm_num : (1 : ℚ) < 2)).mp above
    omega

/-- **The word nearest to a number** is the word of its rounded form. -/
theorem nearestBits_scaled {numerator denominator dividend divisor : Nat} {exponent : ℤ}
    (positive : 0 < denominator) (placed : Placed dividend divisor exponent)
    (value : (numerator : ℚ) / denominator = dividend / divisor * 2 ^ exponent) :
    nearestBits numerator denominator
      = min ((lastPlace (dividend / divisor) exponent + 1074).toNat * 2 ^ 52
          + keptQuotient dividend divisor exponent) infinityBits := by
  have some : (0 : ℚ) < dividend := mod_cast placed.positive
  have divides : (0 : ℚ) < divisor := mod_cast placed.divides
  have nonzero : numerator ≠ 0 := by
    rintro rfl
    have above : (0 : ℚ) < dividend / divisor * 2 ^ exponent := by positivity
    rw [← value] at above
    simp at above
  have fits := placed.fits
  rcases nearestBits_eq nonzero positive with
    ⟨place, scaled, scale, placedAt, scalePositive, quotient, bits⟩
  rw [placed.leading nonzero positive value] at placedAt
  have same : (scaled : ℚ) / scale = dividend
      / (divisor * 2 ^ (lastPlace (dividend / divisor) exponent - exponent).toNat : Nat) := by
    rw [quotient, value, mul_assoc, ← zpow_add₀ two_ne_zero]
    push_cast
    rw [← div_div, div_eq_mul_inv (_ / _), ← zpow_natCast, ← zpow_neg]
    congr 2
    omega
  have significand : roundedQuotient scaled scale = keptQuotient dividend divisor exponent := by
    have dividesToo := Nat.mul_pos placed.divides
      (Nat.two_pow_pos (lastPlace (dividend / divisor) exponent - exponent).toNat)
    exact le_antisymm (roundedQuotient_mono scalePositive dividesToo same.le)
      (roundedQuotient_mono dividesToo scalePositive same.ge)
  rw [bits, significand, placedAt, show lastPlace (dividend / divisor) exponent + 52 + 1022
    = lastPlace (dividend / divisor) exponent + 1074 by omega]

/-! ### Words and what they stand for -/

/-- The number that the magnitude part of a word stands for. -/
def wordValue (bits : Nat) : ℚ :=
  (unpack bits).1 * 2 ^ (unpack bits).2

/-- A number with a sign. -/
def signed (sign : Sign) (magnitude : ℚ) : ℚ :=
  match sign with
  | .positive => magnitude
  | .negative => -magnitude

def isMinus : Sign → Bool
  | .positive => false
  | .negative => true

/-- What a word stands for that is a sign and the magnitude of a number. -/
def wordMeaning (sign : Sign) (bits : Nat) : Denotation :=
  if bits < infinityBits then .finite (signed sign (wordValue bits)) else .infinite (isMinus sign)

theorem toNat_toBits (value : Float) :
    value.toBits.toNat = (signOf value).toBitVec.toNat * 2 ^ 63 + magnitudeBits value := by
  have bit : (@UnpackedFloat.unpackSign Format.binary64 value.toModel.toBits.toBitVec).toNat
      = value.toBits.toNat / 2 ^ 63 := by
    rw [UnpackedFloat.unpackSign_def, BitVec.extractLsb'_toNat, Nat.shiftRight_eq_div_pow]
    have fits := value.toBits.toNat_lt
    change value.toBits.toNat / 2 ^ 63 % 2 = _
    omega
  have signed : (signOf value).toBitVec
      = @UnpackedFloat.unpackSign Format.binary64 value.toModel.toBits.toBitVec := by
    rw [signOf]
    generalize @UnpackedFloat.unpackSign Format.binary64 value.toModel.toBits.toBitVec = bit
    revert bit
    decide
  rw [signed, bit]
  unfold magnitudeBits
  omega

theorem denotation_of_word {value : Float} {sign : Sign} {bits : Nat}
    (word : value.toBits.toNat = sign.toBitVec.toNat * 2 ^ 63 + bits)
    (number : bits ≤ infinityBits) : denotation value = wordMeaning sign bits := by
  have magnitude : magnitudeBits value = bits := by
    unfold magnitudeBits
    unfold infinityBits fractionBits at number
    omega
  have minus : isNegative value = isMinus sign := by
    unfold infinityBits fractionBits at number
    cases sign with
    | positive =>
        replace word : value.toBits.toNat = 0 * 2 ^ 63 + bits := word
        exact decide_eq_false (by omega)
    | negative =>
        replace word : value.toBits.toNat = 1 * 2 ^ 63 + bits := word
        exact decide_eq_true (by omega)
  unfold denotation wordMeaning wordValue
  dsimp only
  rw [magnitude, minus, binaryValue_eq]
  by_cases below : bits < infinityBits
  · rw [if_pos below, if_pos below]
    cases sign <;> rfl
  · rw [if_neg below, if_neg below, if_pos (by omega)]

/-- A change of sign, word by word. -/
theorem toNat_toBits_neg {value : Float} (number : magnitudeBits value ≤ infinityBits) :
    (-value).toBits.toNat = (-signOf value).toBitVec.toNat * 2 ^ 63 + magnitudeBits value := by
  have unpacked := unpacks value
  change (UnpackedFloat.pack Format.binary64 (UnpackedFloat.neg value.toModel.unpack)).toNat = _
  generalize value.toModel.unpack = form at unpacked ⊢
  cases unpacked with
  | undefined above => omega
  | infinite top =>
      rw [UnpackedFloat.neg, UnpackedFloat.pack, toNat_packedInfinity, top]
  | zero bottom =>
      rw [UnpackedFloat.neg, UnpackedFloat.pack, toNat_packedZero, bottom, add_zero]
  | @finite mantissa exponent positive below word short least leading =>
      rw [UnpackedFloat.neg, toNat_pack_finite _ positive short least leading]
      omega

/-- The sign of a number that is not zero, or of zero. -/
def signOfRat (exact : ℚ) : Sign :=
  if exact < 0 then .negative else .positive

theorem toNat_toBits_ofRat (exact : ℚ) :
    (ofRat exact).toBits.toNat = (signOfRat exact).toBitVec.toNat * 2 ^ 63
      + nearestBits exact.num.natAbs exact.den := by
  have bounded := nearestBits_le exact.num.natAbs exact.den
  have magnitude := magnitudeBits_ofMagnitude exact.num.natAbs exact.den
  unfold ofRat signOfRat
  dsimp only
  by_cases negative : exact < 0
  · rw [if_pos (Rat.num_neg.mpr negative), if_pos negative,
      toNat_toBits_neg (magnitude ▸ bounded), signOf_ofMagnitude, magnitude]
    rfl
  · rw [if_neg (mt Rat.num_neg.mp negative), if_neg negative, toNat_toBits, signOf_ofMagnitude,
      magnitude]

theorem denotation_ofRat (exact : ℚ) :
    denotation (ofRat exact)
      = wordMeaning (signOfRat exact) (nearestBits exact.num.natAbs exact.den) :=
  denotation_of_word (toNat_toBits_ofRat exact) (nearestBits_le _ _)

theorem signOfRat_signed (sign : Sign) {magnitude : ℚ} (positive : 0 < magnitude) :
    signOfRat (signed sign magnitude) = sign := by
  unfold signOfRat signed
  cases sign with
  | positive => exact if_neg positive.le.not_gt
  | negative => exact if_pos (neg_neg_of_pos positive)

theorem abs_signed (sign : Sign) {magnitude : ℚ} (nonneg : 0 ≤ magnitude) :
    |signed sign magnitude| = magnitude := by
  unfold signed
  cases sign with
  | positive => exact abs_of_nonneg nonneg
  | negative => exact (abs_neg _).trans (abs_of_nonneg nonneg)

/-- **A rounded fraction is the nearest double.** -/
theorem denotation_roundFraction (sign : Sign) {numerator divisor : Nat} {exponent : ℤ}
    (placed : Placed numerator divisor exponent) :
    denotation (.ofModel (.pack
        (UnpackedFloat.roundWithAccuracy Format.binary64 sign (numerator / divisor) exponent
          (UnpackedFloat.accuracyOfFraction (numerator % divisor) divisor))))
      = denotation (ofRat (signed sign (numerator / divisor * 2 ^ exponent))) := by
  have some : (0 : ℚ) < numerator := mod_cast placed.positive
  have divides : (0 : ℚ) < divisor := mod_cast placed.divides
  have above : (0 : ℚ) < numerator / divisor * 2 ^ exponent := by positivity
  rw [denotation_ofRat, signOfRat_signed sign above, nearestBits_scaled (Rat.pos _) placed]
  · exact denotation_of_word (toNat_pack_roundFraction sign placed) (min_le_right _ _)
  · rw [natAbs_num_div_den, abs_signed sign above.le]

/-- **What is rounded is the nearest double.** -/
theorem denotation_roundWithAccuracy (sign : Sign) {mantissa : Nat} {exponent : ℤ}
    (positive : 0 < mantissa) (fits : exponent ≤ lastPlace mantissa exponent) :
    denotation (.ofModel (.pack
        (UnpackedFloat.roundWithAccuracy Format.binary64 sign mantissa exponent .exact)))
      = denotation (ofRat (signed sign (mantissa * 2 ^ exponent))) := by
  have rounded := denotation_roundFraction sign (placed_whole positive fits)
  rwa [Nat.div_one, Nat.mod_one, Nat.cast_one, div_one] at rounded

/-! ### Rounding from any exponent -/

theorem lastPlace_shift {mantissa : Nat} (positive : 0 < mantissa) (exponent : ℤ) (places : Nat) :
    lastPlace (mantissa * 2 ^ places) (exponent - places) = lastPlace mantissa exponent := by
  have length : (mantissa * 2 ^ places).log2 = mantissa.log2 + places := by
    rw [Nat.log2_eq_iff (by positivity), pow_add, show mantissa.log2 + places + 1
      = mantissa.log2 + 1 + places by omega, pow_add]
    exact ⟨Nat.mul_le_mul_right _ (Nat.log2_self_le positive.ne'),
      Nat.mul_lt_mul_of_pos_right Nat.lt_log2_self (Nat.two_pow_pos _)⟩
  unfold lastPlace
  rw [length]
  omega

theorem shifted_value (mantissa : Nat) (exponent : ℤ) (places : Nat) :
    ((mantissa * 2 ^ places : Nat) : ℚ) * 2 ^ (exponent - places) = mantissa * 2 ^ exponent := by
  push_cast
  rw [mul_assoc, ← zpow_natCast, ← zpow_add₀ two_ne_zero, add_sub_cancel]

theorem denotation_round (sign : Sign) {mantissa : Nat} (positive : 0 < mantissa) (exponent : ℤ) :
    denotation (.ofModel (.pack (UnpackedFloat.round Format.binary64 sign mantissa exponent)))
      = denotation (ofRat (signed sign (mantissa * 2 ^ exponent))) := by
  have target : Format.binary64.targetExponent (totalExponent mantissa exponent)
      = lastPlace mantissa exponent := by
    simp only [Format.targetExponent, totalExponent, Format.mantissaBits, Format.minExponent,
      lastPlace]
    omega
  have kept := lastPlace_shift positive exponent (exponent - lastPlace mantissa exponent).toNat
  rw [UnpackedFloat.round, target, UnpackedFloat.decreaseExponent]
  dsimp only
  rw [Nat.shiftLeft_eq, denotation_roundWithAccuracy sign (by positivity) (by omega), shifted_value]

/-- Normalizing gives the double nearest to the number. -/
theorem denotation_normalize (mantissa exponent : ℤ) :
    denotation (.ofModel (.pack
        (UnpackedFloat.normalize Format.binary64 mantissa exponent .positive)))
      = denotation (ofRat (mantissa * 2 ^ exponent)) := by
  unfold UnpackedFloat.normalize
  rcases lt_trichotomy mantissa 0 with negative | rfl | positive
  · have magnitude : (mantissa : ℚ) * 2 ^ exponent
        = signed .negative ((-mantissa).toNat * 2 ^ exponent) := by
      have whole : (((-mantissa).toNat : ℤ) : ℚ) = -mantissa := by
        rw [Int.toNat_of_nonneg (by omega), Int.cast_neg]
      rw [signed, ← Int.cast_natCast, whole, neg_mul, neg_neg]
    rw [Int.compare_eq_lt.mpr negative, magnitude]
    exact denotation_round .negative (by omega) exponent
  · rw [Int.cast_zero, zero_mul]
    rfl
  · have magnitude : (mantissa : ℚ) * 2 ^ exponent
        = signed .positive (mantissa.toNat * 2 ^ exponent) := by
      have whole : ((mantissa.toNat : ℤ) : ℚ) = mantissa := by
        rw [Int.toNat_of_nonneg positive.le]
      rw [signed, ← Int.cast_natCast, whole]
    rw [Int.compare_eq_gt.mpr positive, magnitude]
    exact denotation_round .positive (by omega) exponent

/-! ### Exact values -/

/-- The place and the mantissa of a number in its rounded form make its value. -/
theorem wordValue_word {field mantissa : Nat} (short : mantissa < 2 ^ 53)
    (leading : field = 0 ∨ 2 ^ 52 ≤ mantissa) :
    wordValue (field * 2 ^ 52 + mantissa) = mantissa * 2 ^ ((field : ℤ) - 1074) := by
  rcases Nat.lt_or_ge mantissa (2 ^ 52) with less | full
  · obtain rfl : field = 0 := by omega
    have word : unpack (0 * 2 ^ 52 + mantissa) = (mantissa, -1074) := by
      unfold unpack leastExponent fractionBits
      dsimp only
      rw [if_pos (by omega)]
      refine Prod.ext ?_ rfl
      dsimp only
      omega
    rw [wordValue, word, Nat.cast_zero, zero_sub]
  · have word : unpack (field * 2 ^ 52 + mantissa) = (mantissa, (field : ℤ) - 1074) := by
      unfold unpack leastExponent fractionBits
      dsimp only
      rw [if_neg (by omega)]
      refine Prod.ext ?_ ?_
      · dsimp only
        omega
      · dsimp only
        omega
    rw [wordValue, word]

/-- **A short mantissa at any place is a double**, as long as it is in range. -/
theorem denotation_ofRat_dyadic (sign : Sign) {mantissa : Nat} {exponent : ℤ}
    (short : mantissa < 2 ^ 53) (least : -1074 ≤ exponent)
    (bounded : (mantissa : ℚ) * 2 ^ exponent ≤ largest) :
    denotation (ofRat (signed sign (mantissa * 2 ^ exponent)))
      = .finite (signed sign (mantissa * 2 ^ exponent)) := by
  rcases Nat.eq_zero_or_pos mantissa with rfl | positive
  · have nothing : signed sign 0 = 0 := by
      cases sign with
      | positive => rfl
      | negative => exact neg_zero
    rw [Nat.cast_zero, zero_mul, nothing, ofRat_of_nonnegative le_rfl,
      denotation_ofMagnitude (by decide)]
    exact congrArg Denotation.finite (zero_mul _)
  have above : (0 : ℚ) < mantissa * 2 ^ exponent := by positivity
  have settled := lastPlace_of_short short least
  -- the mantissa is moved to the place that its length asks for
  generalize shift : (exponent - lastPlace mantissa exponent).toNat = places
  have value := shifted_value mantissa exponent places
  have place := lastPlace_shift positive exponent places
  have some : 0 < mantissa * 2 ^ places := by positivity
  generalize mantissa * 2 ^ places = moved at value place some
  obtain ⟨final, finals⟩ : ∃ final, exponent - places = final := ⟨_, rfl⟩
  rw [finals] at value place
  have home : lastPlace moved final = final := by omega
  have length : moved.log2 ≤ 52 ∧ (final = -1074 ∨ moved.log2 = 52) ∧ -1074 ≤ final := by
    unfold lastPlace at home
    omega
  have shortToo : moved < 2 ^ 53 := (Nat.log2_lt some.ne').mp (by omega)
  have leading : (final + 1074).toNat = 0 ∨ 2 ^ 52 ≤ moved := by
    rcases length.2.1 with bottom | full
    · exact .inl (by omega)
    · exact .inr (full ▸ Nat.log2_self_le some.ne')
  have kept : keptQuotient moved 1 final = moved := by
    rw [keptQuotient, Nat.div_one, home, sub_self, Int.toNat_zero, pow_zero]
    exact roundedQuotient_eq one_pos (by rw [mul_one, Nat.cast_one, div_one])
  have magnitude : ((signed sign (mantissa * 2 ^ exponent)).num.natAbs : ℚ)
      / (signed sign (mantissa * 2 ^ exponent)).den = mantissa * 2 ^ exponent := by
    rw [natAbs_num_div_den, abs_signed sign above.le]
  have below := nearestBits_lt (Rat.pos _) (magnitude.trans_le bounded)
  have word := nearestBits_scaled (Rat.pos _) (placed_whole some home.ge)
    (magnitude.trans (by rw [Nat.cast_one, div_one, value]))
  have back : (((final + 1074).toNat : ℕ) : ℤ) - 1074 = final := by
    rw [Int.toNat_of_nonneg (by omega), add_sub_cancel_right]
  rw [word, kept, Nat.div_one, home] at below
  have within := (min_lt_iff.mp below).resolve_right (lt_irrefl _)
  rw [denotation_ofRat, signOfRat_signed sign above, word, kept, Nat.div_one, home, wordMeaning,
    if_pos below, min_eq_left within.le, wordValue_word shortToo leading, back, value]

end Showreel.Number.Binary64
