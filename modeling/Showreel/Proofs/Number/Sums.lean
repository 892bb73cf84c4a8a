import Showreel.Proofs.Number.Rounding

/-!
Contract: what doubles come to when they are added, subtracted and rounded down.

Owns:
- the exact value of a finite double from its unpacked form, and that the double nearest to it is
  the double itself;
- sums and differences of finite doubles, which are nearest to the exact ones;
- that rounding keeps the order of exact numbers;
- the sign of products and quotients of doubles that are not negative.

Does not own: what is added up.
-/

namespace Showreel.Number.Binary64

open Float.Model
open Float.Model.UnpackedFloat (Sign packComponents ExtendedMantissa)

/-! ### Finite forms -/

/-- The unpacked form of a finite double, and the number that it stands for. -/
inductive Reads : UnpackedFloat → ℚ → Prop
  | zero (sign : Sign) : Reads (.zero sign) 0
  | finite (sign : Sign) {mantissa : Nat} {exponent : ℤ} (positive : 0 < mantissa)
      (short : mantissa < 2 ^ 53) (least : -1074 ≤ exponent)
      (leading : exponent = -1074 ∨ 2 ^ 52 ≤ mantissa)
      (below : (exponent + 1074).toNat * 2 ^ 52 + mantissa < infinityBits) :
      Reads (.finite sign mantissa exponent positive) (signed sign (mantissa * 2 ^ exponent))

theorem Reads.denotation_pack {form : UnpackedFloat} {exact : ℚ} (reads : Reads form exact) :
    denotation (.ofModel (.pack form)) = .finite exact := by
  cases reads with
  | zero sign =>
      have word : (UnpackedFloat.packedZero Format.binary64 sign).toNat
          = sign.toBitVec.toNat * 2 ^ 63 + 0 := by
        rw [toNat_packedZero, add_zero]
      have nothing : wordMeaning sign 0 = .finite 0 := by
        have value : wordValue 0 = 0 := zero_mul _
        rw [wordMeaning, if_pos (by decide), value]
        cases sign with
        | positive => rfl
        | negative => exact congrArg Denotation.finite neg_zero
      rw [← nothing]
      exact denotation_of_word word (Nat.zero_le _)
  | @finite sign mantissa exponent positive short least leading below =>
      have back : (((exponent + 1074).toNat : ℕ) : ℤ) - 1074 = exponent := by
        rw [Int.toNat_of_nonneg (by omega), add_sub_cancel_right]
      have word := toNat_pack_finite sign positive short least leading
      rw [min_eq_left below.le] at word
      have value : wordMeaning sign ((exponent + 1074).toNat * 2 ^ 52 + mantissa)
          = .finite (signed sign (mantissa * 2 ^ exponent)) := by
        rw [wordMeaning, if_pos below, wordValue_word short (by omega), back]
      rw [← value]
      exact denotation_of_word word below.le

theorem denotation_repack (value : Float) :
    denotation (.ofModel (.pack value.toModel.unpack)) = denotation value := by
  have word : (Float.ofModel (.pack value.toModel.unpack)).toBits.toNat = value.toBits.toNat :=
    congrArg BitVec.toNat (pack_unpack_toModel value)
  unfold denotation magnitudeBits isNegative
  rw [word]

theorem reads_of_finite {value : Float} {exact : ℚ}
    (finite : denotation value = .finite exact) : Reads value.toModel.unpack exact := by
  have inside : magnitudeBits value < infinityBits := by
    by_contra outside
    unfold denotation at finite
    rw [if_neg outside] at finite
    split_ifs at finite
  have unpacked := unpacks value
  have repacked := denotation_repack value
  generalize value.toModel.unpack = form at unpacked repacked ⊢
  have reads : ∃ exactly, Reads form exactly := by
    cases unpacked with
    | undefined above => omega
    | infinite top => omega
    | zero bottom => exact ⟨_, .zero _⟩
    | finite positive below word short least leading =>
        exact ⟨_, .finite _ positive short least leading (by omega)⟩
  obtain ⟨exactly, reads⟩ := reads
  obtain rfl : exactly = exact := Denotation.finite.inj <| by
    rw [← reads.denotation_pack, repacked, finite]
  exact reads

theorem Reads.neg {form : UnpackedFloat} {exact : ℚ} (reads : Reads form exact) :
    Reads form.neg (-exact) := by
  cases reads with
  | zero sign =>
      rw [neg_zero]
      exact .zero _
  | @finite sign mantissa exponent positive short least leading below =>
      have turned : -signed sign (mantissa * 2 ^ exponent)
          = signed (-sign) (mantissa * 2 ^ exponent) := by
        cases sign with
        | positive => rfl
        | negative => exact neg_neg _
      rw [turned]
      exact .finite (-sign) positive short least leading below

theorem denotation_neg {value : Float} {exact : ℚ} (finite : denotation value = .finite exact) :
    denotation (-value) = .finite (-exact) :=
  (reads_of_finite finite).neg.denotation_pack

/-- A finite double has a short mantissa, at a place that is not too low. -/
theorem Reads.short {form : UnpackedFloat} {exact : ℚ} (reads : Reads form exact) :
    ∃ sign : Sign, ∃ mantissa : Nat, ∃ exponent : ℤ, mantissa < 2 ^ 53 ∧ -1074 ≤ exponent
      ∧ exact = signed sign (mantissa * 2 ^ exponent) := by
  cases reads with
  | zero sign =>
      refine ⟨.positive, 0, 0, by norm_num, by norm_num, ?_⟩
      rw [Nat.cast_zero, zero_mul, signed]
  | @finite sign mantissa exponent positive short least =>
      exact ⟨sign, mantissa, exponent, short, least, rfl⟩

/-- **A finite double is nearest to itself.** -/
theorem Reads.nearest {form : UnpackedFloat} {exact : ℚ} (reads : Reads form exact) :
    denotation (ofRat exact) = .finite exact := by
  have bounded := abs_le_largest reads.denotation_pack
  obtain ⟨sign, mantissa, exponent, short, least, rfl⟩ := reads.short
  rw [abs_signed sign (by positivity)] at bounded
  exact denotation_ofRat_dyadic sign short least bounded

/-! ### Sums and differences -/

theorem apply_shifted (sign : Sign) (mantissa : Nat) {exponent smaller : ℤ}
    (within : smaller ≤ exponent) :
    ((sign.apply ((mantissa <<< (exponent - smaller).toNat : Nat) : ℤ) : ℤ) : ℚ) * 2 ^ smaller
      = signed sign (mantissa * 2 ^ exponent) := by
  have value := shifted_value mantissa exponent (exponent - smaller).toNat
  rw [show exponent - (exponent - smaller).toNat = smaller by omega] at value
  rw [Nat.shiftLeft_eq]
  cases sign with
  | positive =>
      change (((mantissa * 2 ^ (exponent - smaller).toNat : Nat) : ℤ) : ℚ) * 2 ^ smaller = _
      rw [Int.cast_natCast, value, signed]
  | negative =>
      change ((-((mantissa * 2 ^ (exponent - smaller).toNat : Nat) : ℤ) : ℤ) : ℚ) * 2 ^ smaller = _
      rw [Int.cast_neg, Int.cast_natCast, neg_mul, value, signed]

theorem Reads.add {form formToo : UnpackedFloat} {exact other : ℚ} (reads : Reads form exact)
    (readsToo : Reads formToo other) :
    denotation (.ofModel (.pack (UnpackedFloat.add Format.binary64 form formToo)))
      = denotation (ofRat (exact + other)) := by
  have nearest := reads.nearest
  have nearestToo := readsToo.nearest
  cases reads with
  | zero sign =>
      rw [zero_add]
      cases readsToo with
      | zero signToo =>
          rw [nearest, UnpackedFloat.add]
          split_ifs
          · exact (Reads.zero _).denotation_pack
          · exact (Reads.zero _).denotation_pack
      | finite signToo positive short least leading below =>
          rw [nearestToo]
          exact (Reads.finite signToo positive short least leading below).denotation_pack
  | @finite sign mantissa exponent positive short least leading below =>
      cases readsToo with
      | zero signToo =>
          rw [add_zero, nearest]
          exact (Reads.finite sign positive short least leading below).denotation_pack
      | @finite signToo mantissaToo exponentToo positiveToo shortToo leastToo leadingToo belowToo =>
          rw [UnpackedFloat.add]
          dsimp only [UnpackedFloat.decreaseExponent]
          rw [denotation_normalize, Int.cast_add, add_mul, apply_shifted sign mantissa
            (min_le_left _ _), apply_shifted signToo mantissaToo (min_le_right _ _)]

/-- A difference is the sum with the number turned round. -/
theorem sub_eq_add_turned (form formToo : UnpackedFloat) :
    UnpackedFloat.sub Format.binary64 form formToo
      = UnpackedFloat.add Format.binary64 form formToo.neg := by
  cases form with
  | notANumber => rfl
  | infinity sign => cases formToo <;> rfl
  | zero sign => cases formToo <;> rfl
  | finite sign mantissa exponent =>
      cases formToo with
      | notANumber => rfl
      | infinity signToo => rfl
      | zero signToo => rfl
      | finite signToo mantissaToo exponentToo =>
          cases signToo with
          | positive => rfl
          | negative => exact congrArg (UnpackedFloat.normalize _ · _ _) (sub_neg_eq_add _ _)

/-- **The sum of two finite doubles is the double nearest to the exact sum.** -/
theorem denotation_add {first second : Float} {exact other : ℚ}
    (finite : denotation first = .finite exact) (finiteToo : denotation second = .finite other) :
    denotation (first + second) = denotation (ofRat (exact + other)) :=
  (reads_of_finite finite).add (reads_of_finite finiteToo)

/-- **The difference of two finite doubles is the double nearest to the exact difference.** -/
theorem denotation_sub {first second : Float} {exact other : ℚ}
    (finite : denotation first = .finite exact) (finiteToo : denotation second = .finite other) :
    denotation (first - second) = denotation (ofRat (exact - other)) := by
  change denotation (.ofModel (.pack (UnpackedFloat.sub Format.binary64 _ _))) = _
  rw [sub_eq_add_turned, (reads_of_finite finite).add (reads_of_finite finiteToo).neg,
    sub_eq_add_neg]

/-! ### What is lost

A form that is no finite number stays none in sums, products and quotients, but for the quotient by
an infinity. -/

/-- The forms that are no finite number. -/
inductive Lost : UnpackedFloat → Prop
  | undefined : Lost .notANumber
  | infinite (sign : Sign) : Lost (.infinity sign)

theorem reads_or_lost (value : Float) :
    (∃ exact, denotation value = .finite exact ∧ Reads value.toModel.unpack exact)
      ∨ Lost value.toModel.unpack := by
  have unpacked := unpacks value
  cases finite : denotation value with
  | finite exact => exact .inl ⟨exact, rfl, reads_of_finite finite⟩
  | undefined =>
      rw [unpack_notANumber_iff.mpr (denotation_undefined_iff.mp finite)]
      exact .inr .undefined
  | infinite negative =>
      have outside : ¬magnitudeBits value < infinityBits := by
        intro inside
        unfold denotation at finite
        rw [if_pos inside] at finite
        cases finite
      generalize value.toModel.unpack = form at unpacked ⊢
      cases unpacked with
      | undefined above => exact .inr .undefined
      | infinite top => exact .inr (.infinite _)
      | zero bottom => exact absurd (bottom.trans_lt (by decide)) outside
      | finite positive below => exact absurd below outside

theorem Lost.denotation_pack {form : UnpackedFloat} (lost : Lost form) (exact : ℚ) :
    denotation (.ofModel (.pack form)) ≠ .finite exact := by
  cases lost with
  | undefined =>
      rw [denotation_undefined_iff.mpr (by decide)]
      rintro ⟨⟩
  | infinite sign =>
      have infinite : denotation (.ofModel (.pack (.infinity sign)))
          = wordMeaning sign infinityBits :=
        denotation_of_word (toNat_packedInfinity sign) le_rfl
      rw [infinite, wordMeaning, if_neg (lt_irrefl _)]
      rintro ⟨⟩

theorem Lost.add {form : UnpackedFloat} (lost : Lost form) (formToo : UnpackedFloat) :
    Lost (UnpackedFloat.add Format.binary64 form formToo)
      ∧ Lost (UnpackedFloat.add Format.binary64 formToo form) := by
  cases lost with
  | undefined =>
      refine ⟨.undefined, ?_⟩
      cases formToo <;> exact .undefined
  | infinite sign =>
      cases formToo with
      | notANumber => exact ⟨.undefined, .undefined⟩
      | zero signToo => exact ⟨.infinite _, .infinite _⟩
      | finite signToo mantissa exponent => exact ⟨.infinite _, .infinite _⟩
      | infinity signToo =>
          unfold UnpackedFloat.add
          dsimp only
          constructor
          · split_ifs
            · exact .infinite _
            · exact .undefined
          · split_ifs
            · exact .infinite _
            · exact .undefined

/-- **A finite sum has finite summands.** -/
theorem finite_of_add {first second : Float} {exact : ℚ}
    (finite : denotation (first + second) = .finite exact) :
    ∃ part other, denotation first = .finite part ∧ denotation second = .finite other := by
  rcases reads_or_lost first with ⟨part, finiteFirst, -⟩ | lost
  · rcases reads_or_lost second with ⟨other, finiteSecond, -⟩ | lost
    · exact ⟨part, other, finiteFirst, finiteSecond⟩
    · exact absurd finite ((lost.add _).2.denotation_pack exact)
  · exact absurd finite ((lost.add _).1.denotation_pack exact)

/-! ### Order -/

theorem wordValue_nonneg (bits : Nat) : 0 ≤ wordValue bits := by
  unfold wordValue
  positivity

theorem wordValue_le_succ (bits : Nat) : wordValue bits ≤ wordValue (bits + 1) := by
  obtain ⟨field, mantissa, rfl, short, leading⟩ : ∃ field mantissa,
      bits = field * 2 ^ 52 + mantissa ∧ mantissa < 2 ^ 53 ∧ (field = 0 ∨ 2 ^ 52 ≤ mantissa) := by
    rcases Nat.eq_zero_or_pos (bits / 2 ^ 52) with bottom | above
    · exact ⟨0, bits, by omega, by omega, .inl rfl⟩
    · exact ⟨bits / 2 ^ 52 - 1, bits % 2 ^ 52 + 2 ^ 52, by omega, by omega, .inr (by omega)⟩
  rw [wordValue_word short leading]
  rcases Nat.lt_or_ge (mantissa + 1) (2 ^ 53) with room | full
  · rw [add_assoc, wordValue_word room (by omega)]
    gcongr
    exact Nat.le_succ mantissa
  · rw [show field * 2 ^ 52 + mantissa + 1 = (field + 1) * 2 ^ 52 + 2 ^ 52 by omega,
      wordValue_word (by norm_num) (.inr le_rfl)]
    have carried : ((field + 1 : ℕ) : ℤ) - 1074 = (field : ℤ) - 1074 + 1 := by omega
    have most : (mantissa : ℚ) ≤ 2 ^ 53 := mod_cast short.le
    rw [carried, zpow_add_one₀ two_ne_zero]
    calc (mantissa : ℚ) * 2 ^ ((field : ℤ) - 1074)
        ≤ 2 ^ 53 * 2 ^ ((field : ℤ) - 1074) := by gcongr
      _ = ((2 ^ 52 : ℕ) : ℚ) * (2 ^ ((field : ℤ) - 1074) * 2) := by
          push_cast
          ring

theorem wordValue_mono : Monotone wordValue :=
  monotone_nat_of_le_succ wordValue_le_succ

/-- **Rounding keeps the order** of exact numbers. -/
theorem denotation_ofRat_mono {exact other low high : ℚ} (within : exact ≤ other)
    (finite : denotation (ofRat exact) = .finite low)
    (finiteToo : denotation (ofRat other) = .finite high) : low ≤ high := by
  have least : low
      = signed (signOfRat exact) (wordValue (nearestBits exact.num.natAbs exact.den)) := by
    rw [denotation_ofRat, wordMeaning] at finite
    split_ifs at finite
    injection finite with same
    exact same.symm
  have most : high
      = signed (signOfRat other) (wordValue (nearestBits other.num.natAbs other.den)) := by
    rw [denotation_ofRat, wordMeaning] at finiteToo
    split_ifs at finiteToo
    injection finiteToo with same
    exact same.symm
  have ordered {small large : ℚ} (bound : |small| ≤ |large|) :
      wordValue (nearestBits small.num.natAbs small.den)
        ≤ wordValue (nearestBits large.num.natAbs large.den) := by
    apply wordValue_mono
    apply nearestBits_mono small.pos large.pos
    rwa [natAbs_num_div_den, natAbs_num_div_den]
  rw [least, most]
  unfold signOfRat
  rcases lt_or_ge exact 0 with negative | nonnegative
  · rw [if_pos negative]
    rcases lt_or_ge other 0 with negativeToo | nonnegativeToo
    · rw [if_pos negativeToo]
      refine neg_le_neg (ordered ?_)
      rwa [abs_of_neg negative, abs_of_neg negativeToo, neg_le_neg_iff]
    · rw [if_neg nonnegativeToo.not_gt]
      exact (neg_nonpos.mpr (wordValue_nonneg _)).trans (wordValue_nonneg _)
  · have nonnegativeToo := nonnegative.trans within
    rw [if_neg nonnegative.not_gt, if_neg nonnegativeToo.not_gt]
    exact ordered (by rwa [abs_of_nonneg nonnegative, abs_of_nonneg nonnegativeToo])

/-! ### Signs -/

theorem nonneg_of_le {value : Float} {exact : ℚ} (atLeast : (Scalar.ofRat 0 : Float) ≤ value)
    (finite : denotation value = .finite exact) : 0 ≤ exact := by
  have reads := reads_of_finite finite
  have nothing : (Scalar.ofRat 0 : Float).toModel.unpack = .zero .positive := by rfl
  rw [le_iff, nothing] at atLeast
  generalize value.toModel.unpack = form at atLeast reads
  cases reads with
  | zero sign => exact le_rfl
  | @finite sign mantissa exponent =>
      cases sign with
      | positive =>
          change (0 : ℚ) ≤ mantissa * 2 ^ exponent
          positivity
      | negative => cases atLeast

/-- What is packed without a sign is not negative. -/
theorem nonneg_of_pack {mantissa : Nat} {exponent : ℤ} {positive : 0 < mantissa} {exact : ℚ}
    (finite : denotation (.ofModel (.pack (.finite .positive mantissa exponent positive)))
      = .finite exact) : 0 ≤ exact := by
  have infinite : (UnpackedFloat.packedInfinity Format.binary64 .positive).toNat < 2 ^ 63 := by
    rw [toNat_packedInfinity]
    change 0 * 2 ^ 63 + infinityBits < 2 ^ 63
    decide
  have components (field : BitVec 11) (fraction : BitVec 52) :
      (packComponents Format.binary64 .positive field fraction).toNat < 2 ^ 63 := by
    have fits := field.isLt
    have fitsToo := fraction.isLt
    rw [toNat_packComponents]
    change 0 * 2 ^ 63 + field.toNat * 2 ^ 52 + fraction.toNat < 2 ^ 63
    omega
  have unsigned : (UnpackedFloat.pack Format.binary64
      (.finite .positive mantissa exponent positive)).toNat < 2 ^ 63 := by
    rw [UnpackedFloat.pack]
    dsimp only
    split_ifs
    · exact infinite
    · exact components _ _
    · exact components _ _
  have number : magnitudeBits (.ofModel (.pack (.finite .positive mantissa exponent positive)))
      ≤ infinityBits := magnitudeBits_pack_le nofun
  generalize packed : Float.ofModel (.pack (.finite .positive mantissa exponent positive)) = value
    at finite number
  replace unsigned : value.toBits.toNat < 2 ^ 63 := packed ▸ unsigned
  have word : value.toBits.toNat = Sign.positive.toBitVec.toNat * 2 ^ 63 + magnitudeBits value := by
    change _ = 0 * 2 ^ 63 + value.toBits.toNat % 2 ^ 63
    omega
  rw [denotation_of_word word number, wordMeaning] at finite
  split_ifs at finite
  rw [← Denotation.finite.inj finite]
  exact wordValue_nonneg _

/-- The forms of doubles that are no negative numbers. -/
inductive Unsigned : UnpackedFloat → Prop
  | undefined : Unsigned .notANumber
  | infinite (sign : Sign) : Unsigned (.infinity sign)
  | zero (sign : Sign) : Unsigned (.zero sign)
  | finite {mantissa : Nat} {exponent : ℤ} (positive : 0 < mantissa) :
      Unsigned (.finite .positive mantissa exponent positive)

theorem unsigned_of_nonneg {value : Float}
    (nonneg : ∀ exact, denotation value = .finite exact → 0 ≤ exact) :
    Unsigned value.toModel.unpack := by
  rcases reads_or_lost value with ⟨exact, finite, reads⟩ | lost
  · have least := nonneg exact finite
    generalize value.toModel.unpack = form at reads ⊢
    cases reads with
    | zero sign => exact .zero sign
    | @finite sign mantissa exponent positive =>
        cases sign with
        | positive => exact .finite positive
        | negative =>
            have above : (0 : ℚ) < mantissa * 2 ^ exponent := by positivity
            exact absurd above (neg_nonneg.mp least).not_gt
  · generalize value.toModel.unpack = form at lost ⊢
    cases lost with
    | undefined => exact .undefined
    | infinite sign => exact .infinite sign

theorem Unsigned.nonneg {form : UnpackedFloat} (unsigned : Unsigned form) {exact : ℚ}
    (finite : denotation (.ofModel (.pack form)) = .finite exact) : 0 ≤ exact := by
  cases unsigned with
  | undefined => exact absurd finite (Lost.undefined.denotation_pack exact)
  | infinite sign => exact absurd finite ((Lost.infinite sign).denotation_pack exact)
  | zero sign =>
      injection (Reads.zero sign).denotation_pack.symm.trans finite with nothing
      exact nothing.le
  | finite positive => exact nonneg_of_pack finite

theorem unsigned_roundWithAccuracy (mantissa : Nat) (exponent : ℤ)
    (accuracy : UnpackedFloat.Accuracy) :
    Unsigned (UnpackedFloat.roundWithAccuracy Format.binary64 .positive mantissa exponent
      accuracy) := by
  unfold UnpackedFloat.roundWithAccuracy
  dsimp only
  split_ifs
  · exact .zero _
  · exact .finite _

theorem Unsigned.mul {form formToo : UnpackedFloat} (unsigned : Unsigned form)
    (unsignedToo : Unsigned formToo) :
    Unsigned (UnpackedFloat.mul Format.binary64 form formToo) := by
  cases unsigned with
  | undefined => exact .undefined
  | infinite sign =>
      cases unsignedToo with
      | undefined => exact .undefined
      | infinite signToo => exact .infinite _
      | zero signToo => exact .undefined
      | finite positive => exact .infinite _
  | zero sign =>
      cases unsignedToo with
      | undefined => exact .undefined
      | infinite signToo => exact .undefined
      | zero signToo => exact .zero _
      | finite positive => exact .zero _
  | finite positive =>
      cases unsignedToo with
      | undefined => exact .undefined
      | infinite signToo => exact .infinite _
      | zero signToo => exact .zero _
      | finite positiveToo => exact unsigned_roundWithAccuracy _ _ _

theorem Unsigned.div {form formToo : UnpackedFloat} (unsigned : Unsigned form)
    (unsignedToo : Unsigned formToo) :
    Unsigned (UnpackedFloat.div Format.binary64 form formToo) := by
  cases unsigned with
  | undefined => exact .undefined
  | infinite sign =>
      cases unsignedToo with
      | undefined => exact .undefined
      | infinite signToo => exact .undefined
      | zero signToo => exact .infinite _
      | finite positive => exact .infinite _
  | zero sign =>
      cases unsignedToo with
      | undefined => exact .undefined
      | infinite signToo => exact .zero _
      | zero signToo => exact .undefined
      | finite positive => exact .zero _
  | finite positive =>
      cases unsignedToo with
      | undefined => exact .undefined
      | infinite signToo => exact .zero _
      | zero signToo => exact .infinite _
      | finite positiveToo => exact unsigned_roundWithAccuracy _ _ _

/-- **A product of numbers that are not negative is not negative.** -/
theorem nonneg_of_mul {first second : Float} {exact : ℚ}
    (nonneg : ∀ part, denotation first = .finite part → 0 ≤ part)
    (nonnegToo : ∀ part, denotation second = .finite part → 0 ≤ part)
    (finite : denotation (first * second) = .finite exact) : 0 ≤ exact :=
  ((unsigned_of_nonneg nonneg).mul (unsigned_of_nonneg nonnegToo)).nonneg finite

/-- **A quotient of numbers that are not negative is not negative.** -/
theorem nonneg_of_div {dividend divisor : Float} {exact : ℚ}
    (nonneg : ∀ part, denotation dividend = .finite part → 0 ≤ part)
    (nonnegToo : ∀ part, denotation divisor = .finite part → 0 ≤ part)
    (finite : denotation (dividend / divisor) = .finite exact) : 0 ≤ exact :=
  ((unsigned_of_nonneg nonneg).div (unsigned_of_nonneg nonnegToo)).nonneg finite

/-! ### Whole parts -/

theorem truncate_of_nonneg {exact : ℚ} (nonneg : 0 ≤ exact) : truncate exact = ⌊exact⌋ := by
  rw [truncate, Rat.floor_def', Int.tdiv_eq_ediv_of_nonneg (Rat.num_nonneg.mpr nonneg)]

theorem truncate_neg (exact : ℚ) : truncate (-exact) = -truncate exact := by
  rw [truncate, truncate, Rat.neg_num, Rat.neg_den, Int.neg_tdiv]

/-- What is left beside the whole part is more than minus one. -/
theorem lt_sub_truncate (exact : ℚ) : -1 < exact - truncate exact := by
  rcases le_total 0 exact with nonneg | nonpos
  · rw [truncate_of_nonneg nonneg]
    have low := Int.floor_le exact
    linarith
  · obtain ⟨magnitude, rfl⟩ : ∃ magnitude, exact = -magnitude := ⟨-exact, (neg_neg _).symm⟩
    rw [truncate_neg, truncate_of_nonneg (neg_nonpos.mp nonpos), Int.cast_neg]
    have high := Int.lt_floor_add_one magnitude
    linarith

/-- The whole part of a number and the fraction beside it are short, as the number is. -/
theorem exists_wholePart {mantissa : Nat} (exponent : ℤ) (short : mantissa < 2 ^ 53)
    (least : -1074 ≤ exponent) :
    ∃ whole rest : Nat, ∃ place placeToo : ℤ, whole < 2 ^ 53 ∧ rest < 2 ^ 53 ∧ -1074 ≤ place ∧
      -1074 ≤ placeToo ∧ (⌊(mantissa : ℚ) * 2 ^ exponent⌋ : ℚ) = whole * 2 ^ place
      ∧ (mantissa : ℚ) * 2 ^ exponent - ⌊(mantissa : ℚ) * 2 ^ exponent⌋ = rest * 2 ^ placeToo := by
  rcases le_or_gt 0 exponent with whole | fraction
  · obtain ⟨places, rfl⟩ := Int.eq_ofNat_of_zero_le whole
    have integer : (mantissa : ℚ) * 2 ^ (places : ℤ) = ((mantissa * 2 ^ places : ℕ) : ℤ) := by
      push_cast
      rw [zpow_natCast]
    refine ⟨mantissa, 0, places, 0, short, by norm_num, least, by norm_num, ?_, ?_⟩
    · rw [integer, Int.floor_intCast]
    · rw [integer, Int.floor_intCast, sub_self, Nat.cast_zero, zero_mul]
  · obtain ⟨places, rfl⟩ : ∃ places : ℕ, exponent = -places := ⟨(-exponent).toNat, by omega⟩
    have quotient (count : ℕ) : (count : ℚ) * 2 ^ (-(places : ℤ)) = count / (2 ^ places : ℕ) := by
      rw [zpow_neg, zpow_natCast, div_eq_mul_inv]
      push_cast
      rfl
    have nonzero : ((2 ^ places : ℕ) : ℚ) ≠ 0 := by positivity
    have floor : ⌊(mantissa : ℚ) * 2 ^ (-(places : ℤ))⌋ = ((mantissa / 2 ^ places : ℕ) : ℤ) := by
      rw [quotient, Rat.floor_natCast_div_natCast, Int.natCast_div]
    refine ⟨mantissa / 2 ^ places, mantissa % 2 ^ places, 0, -places,
      (Nat.div_le_self _ _).trans_lt short, (Nat.mod_le _ _).trans_lt short, by norm_num, least,
      ?_, ?_⟩
    · rw [floor, zpow_zero, mul_one, Int.cast_natCast]
    · have split : (mantissa : ℚ) = (2 ^ places : ℕ) * (mantissa / 2 ^ places : ℕ)
          + (mantissa % 2 ^ places : ℕ) := mod_cast (Nat.div_add_mod mantissa (2 ^ places)).symm
      rw [floor, Int.cast_natCast, quotient, quotient, sub_eq_iff_eq_add, div_eq_iff nonzero,
        add_mul, div_mul_cancel₀ _ nonzero, split]
      ring

theorem truncate_signed (sign : Sign) {magnitude : ℚ} (nonneg : 0 ≤ magnitude) :
    ((truncate (signed sign magnitude) : ℤ) : ℚ) = signed sign ⌊magnitude⌋ := by
  cases sign with
  | positive => exact congrArg Int.cast (truncate_of_nonneg nonneg)
  | negative =>
      change ((truncate (-magnitude) : ℤ) : ℚ) = -(⌊magnitude⌋ : ℚ)
      rw [truncate_neg, truncate_of_nonneg nonneg, Int.cast_neg]

theorem signed_sub (sign : Sign) (magnitude other : ℚ) :
    signed sign magnitude - signed sign other = signed sign (magnitude - other) := by
  cases sign with
  | positive => rfl
  | negative =>
      change -magnitude - -other = -(magnitude - other)
      ring

/-- **The whole part of a finite double is a double, and so is the fraction beside it.** -/
theorem denotation_sub_wholePart {value : Float} {exact : ℚ}
    (finite : denotation value = .finite exact) :
    denotation (ofRat (truncate exact)) = .finite (truncate exact)
      ∧ denotation (value - ofRat (truncate exact)) = .finite (exact - truncate exact) := by
  have bounded := abs_le_largest finite
  obtain ⟨sign, mantissa, exponent, short, least, stands⟩ := (reads_of_finite finite).short
  have nonneg : (0 : ℚ) ≤ mantissa * 2 ^ exponent := by positivity
  obtain ⟨whole, rest, place, placeToo, wholeShort, restShort, wholeLeast, restLeast, wholeIs,
    restIs⟩ := exists_wholePart exponent short least
  have low : ((⌊(mantissa : ℚ) * 2 ^ exponent⌋ : ℤ) : ℚ) ≤ mantissa * 2 ^ exponent := Int.floor_le _
  have floorNonneg : (0 : ℚ) ≤ ⌊(mantissa : ℚ) * 2 ^ exponent⌋ :=
    mod_cast Int.floor_nonneg.mpr nonneg
  have within : (mantissa : ℚ) * 2 ^ exponent ≤ largest := by
    rwa [stands, abs_signed sign nonneg] at bounded
  have wholeExact := truncate_signed sign nonneg
  have restExact := signed_sub sign (mantissa * 2 ^ exponent) ⌊(mantissa : ℚ) * 2 ^ exponent⌋
  rw [← stands] at wholeExact restExact
  rw [← wholeExact] at restExact
  have wholeFinite := denotation_ofRat_dyadic sign wholeShort wholeLeast (by linarith)
  have restFinite := denotation_ofRat_dyadic sign restShort restLeast (by linarith)
  rw [← wholeIs, ← wholeExact] at wholeFinite
  rw [← restIs, ← restExact] at restFinite
  exact ⟨wholeFinite, (denotation_sub finite wholeFinite).trans restFinite⟩

end Showreel.Number.Binary64
