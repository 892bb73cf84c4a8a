import Showreel.Proofs.Number.Double

/-!
Contract: the order of doubles.

Owns:
- that the order of doubles is total where both sides are numbers;
- that the order of words is the order of positive doubles, and that rounding keeps the order;
- that whole numbers of an ordinary size are exact;
- which quotients are numbers, and the reciprocals of the numbers from minus sixteen to minus one.

Does not own: what a script makes of the order.
-/

namespace Showreel.Number.Binary64

open Float.Model
open Float.Model.UnpackedFloat (Sign packComponents unpackExponent unpackMantissa unpackSign)

/-! ### Comparisons -/

theorem le_iff {first second : Float} :
    first ≤ second ↔ UnpackedFloat.le first.toModel.unpack second.toModel.unpack = true :=
  ⟨of_decide_eq_true, decide_eq_true⟩

theorem lt_iff {first second : Float} :
    first < second ↔ UnpackedFloat.lt first.toModel.unpack second.toModel.unpack = true :=
  ⟨of_decide_eq_true, decide_eq_true⟩

theorem isLE_compare_then {first second : ℤ} {mantissa other : Nat} :
    ((compare first second).then (compare mantissa other)).isLE = true
      ↔ first < second ∨ first = second ∧ mantissa ≤ other := by
  rcases lt_trichotomy first second with less | rfl | more
  · simp [Int.compare_eq_lt.mpr less, less]
  · simp [Nat.isLE_compare]
  · simp [Int.compare_eq_gt.mpr more, more.not_gt, more.ne']

theorem isGE_compare_then {first second : ℤ} {mantissa other : Nat} :
    ((compare first second).then (compare mantissa other)).isGE = true
      ↔ second < first ∨ second = first ∧ other ≤ mantissa := by
  rw [← isLE_compare_then, ← Int.compare_swap first second, ← Nat.compare_swap mantissa other,
    ← Ordering.swap_then, Ordering.isLE_swap]

theorem compare_swap (first second : UnpackedFloat) :
    UnpackedFloat.compare second first = (UnpackedFloat.compare first second).map Ordering.swap := by
  -- the signs are cases of their own; only two finite numbers of one sign are compared in full
  rcases first with (_ | _) | _ | _ | ⟨_ | _, mantissa, exponent, positive⟩ <;>
    rcases second with (_ | _) | _ | _ | ⟨_ | _, other, place, positiveToo⟩ <;>
    first
    | rfl
    | simp [UnpackedFloat.compare, Ordering.swap_then, Int.compare_swap, Nat.compare_swap]

theorem compare_isSome {first second : UnpackedFloat} (number : first ≠ .notANumber)
    (numberToo : second ≠ .notANumber) : (UnpackedFloat.compare first second).isSome = true := by
  rcases first with (_ | _) | _ | _ | ⟨_ | _, mantissa, exponent, positive⟩ <;>
    rcases second with (_ | _) | _ | _ | ⟨_ | _, other, place, positiveToo⟩ <;>
    first
    | rfl
    | exact absurd rfl number
    | exact absurd rfl numberToo

/-- **Of two numbers one is at most the other.** -/
theorem le_of_not_lt {value bound : Float} (number : value.toModel.unpack ≠ .notANumber)
    (numberToo : bound.toModel.unpack ≠ .notANumber) (notBelow : ¬value < bound) : bound ≤ value := by
  obtain ⟨order, compared⟩ := Option.isSome_iff_exists.mp (compare_isSome number numberToo)
  rw [le_iff, UnpackedFloat.le, compare_swap, compared]
  rw [lt_iff, UnpackedFloat.lt, compared] at notBelow
  cases order with
  | lt => exact absurd rfl notBelow
  | eq => rfl
  | gt => rfl

/-! ### Words in order -/

/-- **The order of words is the order of positive doubles.** -/
theorem le_of_magnitudeBits_le {first second : Float} (sign : signOf first = .positive)
    (signToo : signOf second = .positive) (within : magnitudeBits first ≤ magnitudeBits second)
    (number : magnitudeBits second ≤ infinityBits) : first ≤ second := by
  rw [le_iff]
  have unpacked := unpacks first
  have unpackedToo := unpacks second
  generalize first.toModel.unpack = form at unpacked ⊢
  generalize second.toModel.unpack = formToo at unpackedToo ⊢
  cases unpacked with
  | undefined above => omega
  | infinite top =>
      cases unpackedToo with
      | undefined above => omega
      | infinite topToo =>
          rw [sign, signToo]
          rfl
      | zero bottom => exact absurd (top.symm.trans_le within) (by rw [bottom]; decide)
      | finite _ below => omega
  | zero bottom =>
      cases unpackedToo with
      | undefined above => omega
      | infinite top =>
          rw [signToo]
          rfl
      | zero bottomToo => rfl
      | finite positive below =>
          rw [signToo]
          rfl
  | finite positive below word short least leading =>
      cases unpackedToo with
      | undefined above => omega
      | infinite top =>
          rw [sign, signToo]
          rfl
      | zero bottom => omega
      | finite positiveToo belowToo wordToo shortToo leastToo leadingToo =>
          rw [sign, signToo]
          refine isLE_compare_then.mpr ?_
          omega

/-- Rounding a quotient to a whole number keeps the order. -/
theorem roundedQuotient_mono {numerator denominator other divisor : Nat} (positive : 0 < denominator)
    (positiveToo : 0 < divisor) (within : (numerator : ℚ) / denominator ≤ other / divisor) :
    roundedQuotient numerator denominator ≤ roundedQuotient other divisor := by
  have above : (0 : ℚ) < denominator := mod_cast positive
  have aboveToo : (0 : ℚ) < divisor := mod_cast positiveToo
  rw [div_le_div_iff₀ above aboveToo] at within
  have crossed : numerator * divisor ≤ other * denominator := mod_cast within
  have parts := Nat.div_add_mod numerator denominator
  have partsToo := Nat.div_add_mod other divisor
  have wholes : numerator / denominator ≤ other / divisor := by
    rw [Nat.le_div_iff_mul_le positiveToo]
    have scaled : numerator / denominator * divisor * denominator ≤ other * denominator := by
      calc numerator / denominator * divisor * denominator
          = numerator / denominator * denominator * divisor := by ring
        _ ≤ numerator * divisor := Nat.mul_le_mul_right _ (Nat.div_mul_le_self _ _)
        _ ≤ other * denominator := crossed
    exact Nat.le_of_mul_le_mul_right scaled positive
  rcases wholes.lt_or_eq with less | same
  · unfold roundedQuotient
    dsimp only
    split_ifs <;> omega
  · -- with equal whole parts the fractions are in order, and so are their distances from a half
    have fractions : numerator % denominator * divisor ≤ other % divisor * denominator := by
      rw [same] at parts
      nlinarith
    have half : denominator ≤ 2 * (numerator % denominator) → divisor ≤ 2 * (other % divisor) := by
      intro atLeast
      apply Nat.le_of_mul_le_mul_right _ positive
      calc divisor * denominator = denominator * divisor := Nat.mul_comm _ _
        _ ≤ 2 * (numerator % denominator) * divisor := Nat.mul_le_mul_right _ atLeast
        _ ≤ 2 * (other % divisor) * denominator := by
          rw [mul_assoc, mul_assoc]
          exact Nat.mul_le_mul_left _ fractions
    have more : denominator < 2 * (numerator % denominator) → divisor < 2 * (other % divisor) := by
      intro above
      apply Nat.lt_of_mul_lt_mul_right (a := denominator)
      calc divisor * denominator = denominator * divisor := Nat.mul_comm _ _
        _ < 2 * (numerator % denominator) * divisor := Nat.mul_lt_mul_of_pos_right above positiveToo
        _ ≤ 2 * (other % divisor) * denominator := by
          rw [mul_assoc, mul_assoc]
          exact Nat.mul_le_mul_left _ fractions
    unfold roundedQuotient
    dsimp only
    rw [same]
    split_ifs <;> omega

/-- The word of a larger quotient is no smaller. -/
theorem nearestBits_mono {numerator denominator other divisor : Nat} (positive : 0 < denominator)
    (positiveToo : 0 < divisor) (within : (numerator : ℚ) / denominator ≤ other / divisor) :
    nearestBits numerator denominator ≤ nearestBits other divisor := by
  rcases Nat.eq_zero_or_pos numerator with rfl | some
  · exact Nat.zero_le _
  have someToo : other ≠ 0 := by
    rintro rfl
    have : (0 : ℚ) < (numerator : ℚ) / denominator := by positivity
    simp at within
    linarith
  obtain ⟨low, high⟩ := binaryExponent_spec some.ne' positive.ne'
  obtain ⟨lowToo, highToo⟩ := binaryExponent_spec someToo positiveToo.ne'
  obtain ⟨exponent, scaled, scale, exponentIs, scalePositive, quotient, bits⟩ :=
    nearestBits_eq some.ne' positive
  obtain ⟨exponentToo, scaledToo, scaleToo, exponentIsToo, scalePositiveToo, quotientToo, bitsToo⟩ :=
    nearestBits_eq someToo positiveToo
  have ordered : binaryExponent numerator denominator ≤ binaryExponent other divisor := by
    have power := (low.trans within).trans_lt highToo
    have := (zpow_lt_zpow_iff_right₀ (by norm_num : (1 : ℚ) < 2)).mp power
    omega
  rw [bits, bitsToo]
  apply min_le_min_right
  rcases (show exponent ≤ exponentToo by omega).lt_or_eq with less | rfl
  · -- the significand of the smaller quotient fits below the next exponent
    have significand : roundedQuotient scaled scale ≤ 2 ^ 53 := by
      apply significand_le scalePositive quotient
      refine high.le.trans (zpow_le_zpow_right₀ (by norm_num) ?_)
      omega
    have significandToo : 2 ^ 52 ≤ roundedQuotient scaledToo scaleToo := by
      apply le_significand scalePositiveToo quotientToo
      rw [show exponentToo = binaryExponent other divisor by omega]
      exact lowToo
    omega
  · apply Nat.add_le_add_left
    apply roundedQuotient_mono scalePositive scalePositiveToo
    rw [quotient, quotientToo]
    gcongr

/-! ### The nearest doubles -/

theorem signOf_eq_positive {value : Float} (small : value.toBits.toNat < 2 ^ 63) :
    signOf value = .positive := by
  have bit : @unpackSign Format.binary64 value.toModel.toBits.toBitVec = 0#1 := by
    apply BitVec.eq_of_toNat_eq
    rw [UnpackedFloat.unpackSign_def, BitVec.extractLsb'_toNat, Nat.shiftRight_eq_div_pow]
    change value.toBits.toNat / 2 ^ 63 % 2 = 0
    omega
  rw [signOf, bit]
  rfl

theorem signOf_ofMagnitude (numerator denominator : Nat) :
    signOf (ofMagnitude numerator denominator) = .positive := by
  apply signOf_eq_positive
  have bounded := nearestBits_le numerator denominator
  rw [toBits_ofMagnitude]
  unfold infinityBits fractionBits at bounded
  omega

theorem ofRat_of_nonnegative {exact : ℚ} (nonnegative : 0 ≤ exact) :
    ofRat exact = ofMagnitude exact.num.natAbs exact.den :=
  if_neg (not_lt.mpr (Rat.num_nonneg.mpr nonnegative))

/-- **Rounding keeps the order** of numbers that are not negative. -/
theorem ofRat_mono {exact other : ℚ} (nonnegative : 0 ≤ exact) (within : exact ≤ other) :
    ofRat exact ≤ ofRat other := by
  have nonnegativeToo := nonnegative.trans within
  rw [ofRat_of_nonnegative nonnegative, ofRat_of_nonnegative nonnegativeToo]
  apply le_of_magnitudeBits_le (signOf_ofMagnitude _ _) (signOf_ofMagnitude _ _)
  · rw [magnitudeBits_ofMagnitude, magnitudeBits_ofMagnitude]
    apply nearestBits_mono exact.pos other.pos
    rwa [natAbs_num_div_den, natAbs_num_div_den, abs_of_nonneg nonnegative,
      abs_of_nonneg nonnegativeToo]
  · rw [magnitudeBits_ofMagnitude]
    exact nearestBits_le _ _

theorem roundedQuotient_eq {numerator denominator whole : Nat} (positive : 0 < denominator)
    (exact : (numerator : ℚ) / denominator = whole) : roundedQuotient numerator denominator = whole :=
  le_antisymm (roundedQuotient_le_of_div_le positive exact.le)
    (le_roundedQuotient_of_le_div positive exact.ge)

theorem denotation_ofMagnitude {numerator denominator : Nat}
    (below : nearestBits numerator denominator < infinityBits) :
    denotation (ofMagnitude numerator denominator)
      = .finite ((unpack (nearestBits numerator denominator)).1
          * 2 ^ (unpack (nearestBits numerator denominator)).2) := by
  have positive : isNegative (ofMagnitude numerator denominator) = false := by
    rw [isNegative, toBits_ofMagnitude, decide_eq_false_iff_not]
    unfold infinityBits fractionBits at below
    omega
  unfold denotation
  rw [magnitudeBits_ofMagnitude, positive]
  dsimp only
  rw [if_pos below, if_neg Bool.false_ne_true, binaryValue_eq]

/-- The exponent of a word comes before its significand, whose leading bit is carried into it. -/
theorem unpack_word {place significand : Nat} (leading : 2 ^ 52 ≤ significand)
    (short : significand < 2 ^ 53) :
    unpack ((place + 1022) * 2 ^ 52 + significand) = (significand, (place : ℤ) - 52) := by
  have field : ((place + 1022) * 2 ^ 52 + significand) / 2 ^ 52 = place + 1023 := by omega
  have fraction : ((place + 1022) * 2 ^ 52 + significand) % 2 ^ 52 = significand - 2 ^ 52 := by omega
  unfold unpack leastExponent fractionBits
  dsimp only
  rw [field, fraction, if_neg (Nat.succ_ne_zero _)]
  refine Prod.ext ?_ ?_
  · dsimp only
    omega
  · dsimp only
    omega

/-- A whole number up to `2 ^ 53` is a significand of full length at its place. -/
theorem exists_significand {count : Nat} (some : 0 < count) (small : count ≤ 2 ^ 53) :
    ∃ place significand : Nat, binaryExponent count 1 = place ∧ place ≤ 53
      ∧ (significand : ℚ) = count * 2 ^ ((52 : ℤ) - place)
      ∧ 2 ^ 52 ≤ significand ∧ significand < 2 ^ 53 := by
  obtain ⟨low, high⟩ := binaryExponent_spec some.ne' one_ne_zero
  rw [Nat.cast_one, div_one] at low high
  have increasing : (1 : ℚ) < 2 := by norm_num
  have nonnegative : 0 < binaryExponent count 1 + 1 := by
    have power : (2 : ℚ) ^ (0 : ℤ) < 2 ^ (binaryExponent count 1 + 1) := by
      calc (2 : ℚ) ^ (0 : ℤ) ≤ count := mod_cast some
        _ < 2 ^ (binaryExponent count 1 + 1) := high
    exact (zpow_lt_zpow_iff_right₀ increasing).mp power
  have bounded : binaryExponent count 1 ≤ 53 := by
    have power : (2 : ℚ) ^ binaryExponent count 1 ≤ 2 ^ (53 : ℤ) := low.trans (mod_cast small)
    exact (zpow_le_zpow_iff_right₀ increasing).mp power
  obtain ⟨place, placed⟩ := Int.eq_ofNat_of_zero_le (show 0 ≤ binaryExponent count 1 by omega)
  rw [placed] at low high bounded
  have lowCount : 2 ^ place ≤ count := mod_cast low
  have highCount : count < 2 ^ (place + 1) := mod_cast high
  rcases (show place ≤ 52 ∨ place = 53 by omega) with fits | rfl
  · obtain ⟨shift, complement⟩ := Nat.exists_eq_add_of_le fits
    refine ⟨place, count * 2 ^ shift, placed, by omega, ?_, ?_, ?_⟩
    · have exponent : (52 : ℤ) - place = shift := by omega
      rw [exponent]
      push_cast
      rw [zpow_natCast]
    · calc 2 ^ 52 = 2 ^ place * 2 ^ shift := by rw [complement, pow_add]
        _ ≤ count * 2 ^ shift := Nat.mul_le_mul_right _ lowCount
    · calc count * 2 ^ shift < 2 ^ (place + 1) * 2 ^ shift :=
            Nat.mul_lt_mul_of_pos_right highCount (Nat.two_pow_pos _)
        _ = 2 ^ 53 := by rw [← pow_add, add_right_comm, ← complement]
  · have full : count = 2 ^ 53 := le_antisymm small lowCount
    subst full
    exact ⟨53, 2 ^ 52, placed, le_refl _, by norm_num, le_refl _, by norm_num⟩

/-- **Whole numbers of an ordinary size are doubles.** -/
theorem denotation_ofRat_whole {count : Nat} (small : count ≤ 2 ^ 53) :
    denotation (ofRat (count : ℚ)) = .finite count := by
  have magnitude : ofRat (count : ℚ) = ofMagnitude count 1 := ofRat_of_nonnegative (Nat.cast_nonneg count)
  rw [magnitude]
  rcases Nat.eq_zero_or_pos count with rfl | some
  · rw [denotation_ofMagnitude (by decide)]
    exact congrArg Denotation.finite (zero_mul _)
  obtain ⟨place, significand, placed, bounded, stands, leading, short⟩ := exists_significand some small
  obtain ⟨exponent, scaled, scale, exponentIs, scalePositive, quotient, bits⟩ :=
    nearestBits_eq some.ne' one_pos
  have same : exponent = place := by omega
  subst same
  rw [Nat.cast_one, div_one, ← stands] at quotient
  have field : ((place : ℤ) + 1022).toNat = place + 1022 := by omega
  have below : (place + 1022) * 2 ^ 52 + significand < infinityBits := by
    unfold infinityBits fractionBits
    omega
  rw [roundedQuotient_eq scalePositive quotient, field, min_eq_left below.le] at bits
  rw [denotation_ofMagnitude (bits ▸ below), bits, unpack_word leading short]
  dsimp only
  rw [stands, mul_assoc, ← zpow_add₀ two_ne_zero]
  simp

/-! ### Quotients -/

theorem denotation_undefined_iff {value : Float} :
    denotation value = .undefined ↔ infinityBits < magnitudeBits value := by
  unfold denotation
  dsimp only
  split_ifs with below top
  · exact iff_of_false nofun (by omega)
  · exact iff_of_false nofun (by omega)
  · exact iff_of_true rfl (by omega)

theorem unpack_notANumber_iff {value : Float} :
    value.toModel.unpack = .notANumber ↔ infinityBits < magnitudeBits value := by
  have unpacked := unpacks value
  generalize value.toModel.unpack = form at unpacked ⊢
  cases unpacked with
  | undefined above => exact iff_of_true rfl above
  | infinite top => exact iff_of_false nofun (by omega)
  | zero bottom => exact iff_of_false nofun (by omega)
  | finite positive below => exact iff_of_false nofun (by omega)

/-- What is packed is a number unless it was none before. -/
theorem magnitudeBits_pack_le {unpacked : UnpackedFloat} (number : unpacked ≠ .notANumber) :
    magnitudeBits (.ofModel (.pack unpacked)) ≤ infinityBits := by
  have ones : (-1#11 : BitVec 11).toNat = 2047 := rfl
  have zeros : (0 : BitVec 52).toNat = 0 := rfl
  have infinite : ∀ sign : Sign,
      (UnpackedFloat.packedInfinity Format.binary64 sign).toNat % 2 ^ 63 ≤ infinityBits := by
    intro sign
    rw [UnpackedFloat.packedInfinity, toNat_packComponents, ones, zeros]
    unfold infinityBits fractionBits
    omega
  rw [magnitudeBits_ofModel]
  cases unpacked with
  | notANumber => exact absurd rfl number
  | infinity sign => exact infinite sign
  | zero sign =>
      rw [UnpackedFloat.pack, UnpackedFloat.packedZero, toNat_packComponents]
      simp
  | finite sign mantissa exponent positive =>
      have fits := (BitVec.ofNat 52 mantissa).isLt
      rw [UnpackedFloat.pack]
      dsimp only
      split_ifs with overflow normal
      · exact infinite sign
      · rw [toNat_packComponents, BitVec.toNat_ofNat]
        change ¬2048 ≤ (exponent + 1023 + 52).toNat + 1 at overflow
        change (_ + (exponent + 1023 + 52).toNat % 2048 * 2 ^ 52 + _) % 2 ^ 63 ≤ _
        unfold infinityBits fractionBits
        omega
      · rw [toNat_packComponents, BitVec.toNat_zero]
        unfold infinityBits fractionBits
        omega

theorem roundWithAccuracy_number (sign : Sign) (mantissa : Nat) (exponent : ℤ)
    (accuracy : UnpackedFloat.Accuracy) :
    UnpackedFloat.roundWithAccuracy Format.binary64 sign mantissa exponent accuracy ≠ .notANumber := by
  unfold UnpackedFloat.roundWithAccuracy
  dsimp only
  split_ifs <;> exact nofun

theorem beq_zero_of_unpack {value : Float} {sign : Sign} (zero : value.toModel.unpack = .zero sign) :
    (value == (Scalar.ofRat 0 : Float)) = true := by
  change UnpackedFloat.beq value.toModel.unpack (Scalar.ofRat 0 : Float).toModel.unpack = true
  have nothing : (Scalar.ofRat 0 : Float).toModel.unpack = .zero .positive := by rfl
  rw [zero, nothing]
  rfl

/-- **A finite value has a quotient by every other one that is not zero.** -/
theorem denotation_div {dividend divisor : Float} (finite : Scalar.isFinite dividend = true)
    (finiteToo : Scalar.isFinite divisor = true)
    (nonzero : (divisor == (Scalar.ofRat 0 : Float)) = false) :
    denotation (dividend / divisor) ≠ .undefined := by
  rw [isFinite_iff] at finite finiteToo
  rw [Ne, denotation_undefined_iff, not_lt]
  apply magnitudeBits_pack_le
  have unpacked := unpacks dividend
  have unpackedToo := unpacks divisor
  generalize dividend.toModel.unpack = form at unpacked ⊢
  generalize formed : divisor.toModel.unpack = formToo at unpackedToo ⊢
  cases unpackedToo with
  | undefined above => omega
  | infinite top => omega
  | zero bottom => exact absurd (beq_zero_of_unpack formed) (Bool.eq_false_iff.mp nonzero)
  | finite positiveToo =>
      cases unpacked with
      | undefined above => omega
      | infinite top => omega
      | zero bottom => exact nofun
      | finite positive => exact roundWithAccuracy_number _ _ _ _

/-! ### Reciprocals -/

/-- The word of a number with a leading bit. -/
theorem pack_of_normal (sign : Sign) {mantissa : Nat} {exponent : ℤ} (positive : 0 < mantissa)
    (full : mantissa.log2 = 52) (low : -1074 ≤ exponent) (high : exponent ≤ 971) :
    UnpackedFloat.pack Format.binary64 (.finite sign mantissa exponent positive)
      = packComponents Format.binary64 sign (BitVec.ofNat 11 (exponent + 1075).toNat)
          (BitVec.ofNat 52 mantissa) := by
  have biased : (exponent + Format.binary64.exponentBias
      + Format.binary64.mantissaBitsWithoutImplicit).toNat = (exponent + 1075).toNat := by
    change (exponent + 1023 + 52).toNat = _
    omega
  rw [UnpackedFloat.pack]
  dsimp only
  rw [biased, if_neg, if_pos]
  · rw [full]
    rfl
  · change ¬2048 ≤ _
    omega

/-- **A number with a leading bit is unpacked as it was packed.** -/
theorem unpack_pack_of_normal (sign : Sign) {mantissa : Nat} {exponent : ℤ} (positive : 0 < mantissa)
    (full : mantissa.log2 = 52) (low : -1074 ≤ exponent) (high : exponent ≤ 971) :
    (Float.ofModel (.pack (.finite sign mantissa exponent positive))).toModel.unpack
      = .finite sign mantissa exponent positive := by
  have bounds := (Nat.log2_eq_iff positive.ne').mp full
  have packed := pack_of_normal sign positive full low high
  have word : (magnitudeBits (.ofModel (.pack (.finite sign mantissa exponent positive))) : ℤ)
      = (exponent + 1074) * 2 ^ 52 + mantissa := by
    rw [magnitudeBits_ofModel, packed, toNat_packComponents, BitVec.toNat_ofNat, BitVec.toNat_ofNat]
    omega
  have signed : signOf (.ofModel (.pack (.finite sign mantissa exponent positive))) = sign := by
    change Sign.ofBitVec (unpackSign (UnpackedFloat.pack Format.binary64
      (.finite sign mantissa exponent positive))) = sign
    rw [packed]
    cases sign with
    | positive => simp
    | negative => simp
  have unpacked := unpacks (.ofModel (.pack (.finite sign mantissa exponent positive)))
  generalize Float.ofModel (.pack (.finite sign mantissa exponent positive)) = value
    at unpacked word signed ⊢
  generalize value.toModel.unpack = form at unpacked ⊢
  cases unpacked with
  | undefined above =>
      unfold infinityBits fractionBits at above
      omega
  | infinite top =>
      unfold infinityBits fractionBits at top
      omega
  | zero bottom => omega
  | @finite mantissaToo exponentToo _ _ wordToo short least leading =>
      obtain rfl : exponentToo = exponent := by omega
      obtain rfl : mantissaToo = mantissa := by omega
      rw [signed]

theorem log2_of_unpack {value : Float} {sign : Sign} {mantissa : Nat} {exponent : ℤ}
    {positive : 0 < mantissa} (unpacked : value.toModel.unpack = .finite sign mantissa exponent positive)
    (above : -1074 < exponent) : mantissa.log2 = 52 := by
  have stands := unpacks value
  rw [unpacked] at stands
  cases stands with
  | finite _ below word short least leading => exact log2_eq_of_leading (by omega) short

/-- The values from minus sixteen to minus one have a leading bit. -/
theorem unpack_of_between {value : Float} (low : -(Scalar.ofRat 16 : Float) ≤ value)
    (high : value ≤ -(Scalar.ofRat 1 : Float)) :
    ∃ mantissa exponent positive, value.toModel.unpack = .finite .negative mantissa exponent positive
      ∧ mantissa.log2 = 52 ∧ -52 ≤ exponent
      ∧ (exponent < -48 ∨ exponent = -48 ∧ mantissa = 2 ^ 52) := by
  have sixteen : (-(Scalar.ofRat 16 : Float)).toModel.unpack
      = .finite .negative (2 ^ 52) (-48) (by decide) := by rfl
  have one : (-(Scalar.ofRat 1 : Float)).toModel.unpack
      = .finite .negative (2 ^ 52) (-52) (by decide) := by rfl
  rw [le_iff, sixteen] at low
  rw [le_iff, one] at high
  cases unpacked : value.toModel.unpack with
  | notANumber =>
      rw [unpacked] at low
      cases low
  | infinity sign =>
      rw [unpacked] at low high
      cases sign with
      | positive => cases high
      | negative => cases low
  | zero sign =>
      rw [unpacked] at high
      cases high
  | finite sign mantissa exponent positive =>
      rw [unpacked] at low high
      cases sign with
      | positive => cases high
      | negative =>
          simp only [UnpackedFloat.le, UnpackedFloat.compare, Option.any_some, Ordering.isLE_swap,
            isGE_compare_then] at low high
          have full : mantissa.log2 = 52 := log2_of_unpack unpacked (by omega)
          have bounds := (Nat.log2_eq_iff positive.ne').mp full
          exact ⟨mantissa, exponent, positive, rfl, full, by omega, by omega⟩

/-- The reciprocal of a value from minus sixteen to minus one. -/
theorem unpack_reciprocal {value : Float} (low : -(Scalar.ofRat 16 : Float) ≤ value)
    (high : value ≤ -(Scalar.ofRat 1 : Float)) :
    ∃ mantissa exponent positive, ((Scalar.ofRat 1 : Float) / value).toModel.unpack
        = .finite .negative mantissa exponent positive
      ∧ mantissa.log2 = 52 ∧ -56 ≤ exponent ∧ exponent ≤ -51 := by
  obtain ⟨mantissa, exponent, positive, unpacked, full, least, most⟩ := unpack_of_between low high
  have bounds := (Nat.log2_eq_iff positive.ne').mp full
  have one : (Scalar.ofRat 1 : Float).toModel.unpack
      = .finite .positive (2 ^ 52) (-52) (by decide) := by rfl
  have target : Format.binary64.targetExponent
      (totalExponent (2 ^ 52) (-52) - totalExponent mantissa exponent) = -105 - exponent := by
    have power : (2 ^ 52 : Nat).log2 = 52 := Nat.log2_two_pow
    simp only [Format.targetExponent, totalExponent, Format.mantissaBits, Format.minExponent, power,
      full]
    omega
  have core : UnpackedFloat.divCore Format.binary64 (2 ^ 52) (-52) mantissa exponent
      = ((2 ^ 52 <<< 53) / mantissa, -105 - exponent,
          UnpackedFloat.accuracyOfFraction ((2 ^ 52 <<< 53) % mantissa) mantissa) := by
    have least : min (-52 - exponent) (-105 - exponent) = -105 - exponent := by omega
    have places : (-52 - exponent - (-105 - exponent)).toNat = 53 := by omega
    simp only [UnpackedFloat.divCore, target, least, places]
  -- the quotient has its leading bit one place higher for a power of two
  have quotientLow : 2 ^ 52 ≤ (2 ^ 52 <<< 53) / mantissa := by
    rw [Nat.le_div_iff_mul_le positive, Nat.shiftLeft_eq]
    omega
  have quotientHigh : (2 ^ 52 <<< 53) / mantissa ≤ 2 ^ 53 := by
    apply Nat.div_le_of_le_mul
    rw [Nat.shiftLeft_eq]
    omega
  have quotientFull : exponent = -48 → (2 ^ 52 <<< 53) / mantissa = 2 ^ 53 := by
    intro same
    obtain rfl : mantissa = 2 ^ 52 := by omega
    rfl
  generalize (2 ^ 52 <<< 53) / mantissa = quotient at core quotientLow quotientHigh quotientFull
  have long : 52 ≤ quotient.log2 := (Nat.le_log2 (by omega)).mpr quotientLow
  have short : quotient.log2 < 54 := (Nat.log2_lt (by omega)).mpr (by omega)
  have carried : exponent = -48 → 53 ≤ quotient.log2 :=
    fun same => (Nat.le_log2 (by omega)).mpr (quotientFull same).ge
  obtain ⟨rounded, place, roundedPositive, round, roundedFull, above, below⟩ :=
    roundWithAccuracy_full (Sign.positive / Sign.negative)
      (UnpackedFloat.accuracyOfFraction ((2 ^ 52 <<< 53) % mantissa) mantissa) long
      (show -1000 ≤ -105 - exponent by omega)
  refine ⟨rounded, place, roundedPositive, ?_, roundedFull, by omega, by omega⟩
  change (Float.ofModel (.pack (UnpackedFloat.div Format.binary64
    (Scalar.ofRat 1 : Float).toModel.unpack value.toModel.unpack))).toModel.unpack = _
  rw [unpacked, one, UnpackedFloat.div, core]
  dsimp only
  rw [round]
  exact unpack_pack_of_normal _ roundedPositive roundedFull (by omega) (by omega)

/-- A finite double with a mantissa is not zero. -/
theorem magnitudeBits_of_finite {value : Float} {sign : Sign} {mantissa : Nat} {exponent : ℤ}
    {positive : 0 < mantissa}
    (unpacked : value.toModel.unpack = .finite sign mantissa exponent positive) :
    magnitudeBits value ≠ 0 := by
  have stands := unpacks value
  rw [unpacked] at stands
  cases stands with
  | finite _ below word short least leading => omega

/-- The reciprocal of a value with a leading bit, which is not too large, is not zero. -/
theorem magnitudeBits_reciprocal {value : Float} (low : -(Scalar.ofRat 16 : Float) ≤ value)
    (high : value ≤ -(Scalar.ofRat 1 : Float)) :
    magnitudeBits ((Scalar.ofRat 1 : Float) / value) ≠ 0 := by
  obtain ⟨mantissa, exponent, positive, unpacked, -⟩ := unpack_reciprocal low high
  exact magnitudeBits_of_finite unpacked

/-- **The reciprocals of the numbers from minus sixteen to minus one**, with their sign changed, are
numbers from a sixteenth on, and far below sixty-four. -/
theorem reciprocal_between {value : Float} (low : -(Scalar.ofRat 16 : Float) ≤ value)
    (high : value ≤ -(Scalar.ofRat 1 : Float)) :
    (Scalar.ofRat (mkRat 625 (10 ^ 4)) : Float) ≤ -((Scalar.ofRat 1 : Float) / value)
      ∧ -((Scalar.ofRat 1 : Float) / value) ≤ (Scalar.ofRat 64 : Float) := by
  obtain ⟨mantissa, exponent, positive, unpacked, full, least, most⟩ := unpack_reciprocal low high
  have bounds := (Nat.log2_eq_iff positive.ne').mp full
  have negated : (-((Scalar.ofRat 1 : Float) / value)).toModel.unpack
      = .finite .positive mantissa exponent positive := by
    change (Float.ofModel (.pack (UnpackedFloat.neg
      ((Scalar.ofRat 1 : Float) / value).toModel.unpack))).toModel.unpack = _
    rw [unpacked]
    exact unpack_pack_of_normal .positive positive full (by omega) (by omega)
  have sixteenth : (Scalar.ofRat (mkRat 625 (10 ^ 4)) : Float).toModel.unpack
      = .finite .positive (2 ^ 52) (-56) (by decide) := by rfl
  have sixtyFour : (Scalar.ofRat 64 : Float).toModel.unpack
      = .finite .positive (2 ^ 52) (-46) (by decide) := by rfl
  rw [le_iff, le_iff, negated, sixteenth, sixtyFour]
  constructor
  · refine isLE_compare_then.mpr ?_
    omega
  · refine isLE_compare_then.mpr ?_
    omega

end Showreel.Number.Binary64
