import Showreel.Proofs.Number.Quotients

/-!
Contract: the span between two doubles, divided by itself.

Owns:
- that finite doubles of one exact value are equal, and that the difference of others is not zero;
- that a finite double which is not zero is one when it is divided by itself;
- that numbers a little beyond the largest double are rounded to it, so that a step of a second back
  from a finite double leads to another.

Does not own: what passes in a span.
-/

namespace Showreel.Number.Binary64

open Float.Model
open Float.Model.UnpackedFloat (Sign)

/-! ### Equal doubles -/

/-- A number in canonical form is not a longer one at a higher place. -/
theorem exponent_le_of_value {mantissa other : Nat} {exponent place : ℤ}
    (short : mantissa < 2 ^ 53) (least : -1074 ≤ exponent)
    (leading : place = -1074 ∨ 2 ^ 52 ≤ other)
    (same : (mantissa : ℚ) * 2 ^ exponent = other * 2 ^ place) : place ≤ exponent := by
  by_contra higher
  obtain ⟨places, rfl⟩ := Int.exists_add_of_le (not_le.mp higher).le
  have above : 2 ^ 52 ≤ other := by omega
  have some : 1 ≤ places := by omega
  have scaled : mantissa = other * 2 ^ places := by
    have value : (mantissa : ℚ) = other * 2 ^ places := by
      rw [zpow_add₀ two_ne_zero, zpow_natCast, mul_left_comm, mul_comm] at same
      exact mul_left_cancel₀ (zpow_ne_zero exponent two_ne_zero) same
    exact mod_cast value
  have long : 2 ^ 52 * 2 ^ 1 ≤ mantissa := by
    rw [scaled]
    exact Nat.mul_le_mul above (Nat.pow_le_pow_right two_pos some)
  omega

theorem Reads.compare_eq {form formToo : UnpackedFloat} {exact : ℚ} (reads : Reads form exact)
    (readsToo : Reads formToo exact) : UnpackedFloat.compare form formToo = some .eq := by
  have apart : ∀ (sign : Sign) {mantissa : Nat} (exponent : ℤ), 0 < mantissa →
      signed sign ((mantissa : ℚ) * 2 ^ exponent) ≠ 0 := by
    intro sign mantissa exponent positive nothing
    have magnitude := abs_signed sign (show (0 : ℚ) ≤ mantissa * 2 ^ exponent by positivity)
    rw [nothing, abs_zero] at magnitude
    exact absurd magnitude (by positivity)
  cases reads with
  | zero sign =>
      generalize nothing : (0 : ℚ) = exact at readsToo
      cases readsToo with
      | zero signToo => rfl
      | finite signToo positive => exact absurd nothing.symm (apart _ _ positive)
  | @finite sign mantissa exponent positive short least leading below =>
      generalize value : signed sign ((mantissa : ℚ) * 2 ^ exponent) = exact at readsToo
      cases readsToo with
      | zero signToo => exact absurd value (apart _ _ positive)
      | @finite signToo other place positiveToo shortToo leastToo leadingToo belowToo =>
          have above : (0 : ℚ) < mantissa * 2 ^ exponent := by positivity
          have aboveToo : (0 : ℚ) < other * 2 ^ place := by positivity
          have signs : sign = signToo := by
            rw [← signOfRat_signed sign above, value, signOfRat_signed signToo aboveToo]
          have same : (mantissa : ℚ) * 2 ^ exponent = other * 2 ^ place := by
            rw [← abs_signed sign above.le, value, abs_signed signToo aboveToo.le]
          obtain rfl : exponent = place := le_antisymm
            (exponent_le_of_value shortToo leastToo leading same.symm)
            (exponent_le_of_value short least leadingToo same)
          have mantissas : (mantissa : ℚ) = other :=
            mul_right_cancel₀ (zpow_ne_zero exponent two_ne_zero) same
          obtain rfl : mantissa = other := mod_cast mantissas
          subst signs
          cases sign <;> simp [UnpackedFloat.compare]

/-- **Finite doubles of one exact value are equal.** -/
theorem beq_of_same_value {first second : Float} {exact : ℚ}
    (finite : denotation first = .finite exact) (finiteToo : denotation second = .finite exact) :
    (first == second) = true := by
  change (UnpackedFloat.compare first.toModel.unpack second.toModel.unpack == some .eq) = true
  rw [(reads_of_finite finite).compare_eq (reads_of_finite finiteToo)]
  rfl

theorem number_of_le_left {first second : Float} (atMost : first ≤ second) :
    first.toModel.unpack ≠ .notANumber := by
  intro undefined
  rw [le_iff, undefined] at atMost
  cases atMost

/-- A double that is a number is equal to itself. -/
theorem beq_self {value : Float} (number : value.toModel.unpack ≠ .notANumber) :
    (value == value) = true := by
  rcases reads_or_lost value with ⟨exact, finite, -⟩ | lost
  · exact beq_of_same_value finite finite
  · change (UnpackedFloat.compare value.toModel.unpack value.toModel.unpack == some .eq) = true
    generalize value.toModel.unpack = form at number lost ⊢
    cases lost with
    | undefined => exact absurd rfl number
    | infinite sign => cases sign <;> rfl

/-- Of two doubles that are in order and not apart, one is the other. -/
theorem beq_of_le_of_not_lt {first second : Float} (atMost : first ≤ second)
    (notBelow : ¬first < second) : (first == second) = true := by
  rw [le_iff, UnpackedFloat.le] at atMost
  rw [lt_iff, UnpackedFloat.lt] at notBelow
  change (UnpackedFloat.compare first.toModel.unpack second.toModel.unpack == some .eq) = true
  cases compared : UnpackedFloat.compare first.toModel.unpack second.toModel.unpack with
  | none =>
      rw [compared] at atMost
      cases atMost
  | some order =>
      rw [compared] at atMost notBelow
      cases order with
      | lt => exact absurd rfl notBelow
      | eq => rfl
      | gt => cases atMost

/-! ### Differences that are not zero -/

/-- Finite doubles are multiples of the least positive one. -/
theorem Reads.multiple {form : UnpackedFloat} {exact : ℚ} (reads : Reads form exact) :
    ∃ count : ℤ, exact = count * 2 ^ (-1074 : ℤ) := by
  obtain ⟨sign, mantissa, exponent, -, least, rfl⟩ := reads.short
  refine ⟨sign.apply ((mantissa <<< (exponent - -1074).toNat : Nat) : ℤ), ?_⟩
  exact (apply_shifted sign mantissa least).symm

/-- Different finite doubles are apart by the least positive one at least. -/
theorem Reads.least_le_sub {form formToo : UnpackedFloat} {exact other : ℚ}
    (reads : Reads form exact) (readsToo : Reads formToo other) (below : other < exact) :
    2 ^ (-1074 : ℤ) ≤ exact - other := by
  obtain ⟨count, rfl⟩ := reads.multiple
  obtain ⟨countToo, rfl⟩ := readsToo.multiple
  have unit : (0 : ℚ) < 2 ^ (-1074 : ℤ) := by positivity
  have fewer : (countToo : ℚ) < count := lt_of_mul_lt_mul_right below unit.le
  have one : (1 : ℚ) ≤ count - countToo := by
    have fewer : countToo < count := mod_cast fewer
    have one : 1 ≤ count - countToo := by omega
    exact mod_cast one
  rw [← sub_mul]
  exact le_mul_of_one_le_left unit.le one

/-- A number from the least positive double on is not rounded to zero. -/
theorem pos_of_least {exact rounded : ℚ} (least : 2 ^ (-1074 : ℤ) ≤ exact)
    (finite : denotation (ofRat exact) = .finite rounded) : 0 < rounded := by
  have bounded : (2 : ℚ) ^ (-1074 : ℤ) ≤ largest := by
    calc (2 : ℚ) ^ (-1074 : ℤ) ≤ 2 ^ (0 : ℤ) := zpow_le_zpow_right₀ (by norm_num) (by norm_num)
      _ = 1 * 1 := by norm_num
      _ ≤ (2 ^ 53 - 1) * 2 ^ 971 :=
        mul_le_mul (by norm_num) (one_le_pow₀ (by norm_num)) (by norm_num) (by norm_num)
  have nearest : denotation (ofRat (2 ^ (-1074 : ℤ))) = .finite (2 ^ (-1074 : ℤ)) := by
    have dyadic := @denotation_ofRat_dyadic .positive 1 (-1074) (by norm_num) le_rfl
    rw [Nat.cast_one, one_mul, signed] at dyadic
    exact dyadic bounded
  have positive : (0 : ℚ) < 2 ^ (-1074 : ℤ) := by positivity
  exact positive.trans_le (denotation_ofRat_mono least nearest finite)

/-! ### Quotients -/

/-- **A finite double that is not zero goes into itself once.** -/
theorem div_self_of_finite {value : Float} {exact : ℚ} (finite : denotation value = .finite exact)
    (some : exact ≠ 0) : value / value = ofRat 1 := by
  have reads := reads_of_finite finite
  change Float.ofModel (.pack (UnpackedFloat.div Format.binary64 value.toModel.unpack
    value.toModel.unpack)) = _
  generalize value.toModel.unpack = form at reads
  cases reads with
  | zero sign => exact absurd rfl some
  | @finite sign mantissa exponent positive short least leading below =>
      have core : UnpackedFloat.divCore Format.binary64 mantissa exponent mantissa exponent
          = (2 ^ 53, -53, .exact) := by
        unfold UnpackedFloat.divCore
        rw [sub_self, sub_self]
        have target : min (0 : ℤ) (Format.binary64.targetExponent 0) = -53 := by decide
        have shift : mantissa <<< 53 = 2 ^ 53 * mantissa := by rw [Nat.shiftLeft_eq, mul_comm]
        rw [target]
        change (mantissa <<< 53 / mantissa, _,
          UnpackedFloat.accuracyOfFraction (mantissa <<< 53 % mantissa) mantissa) = _
        rw [shift, Nat.mul_div_cancel _ positive, Nat.mul_mod_left]
        rfl
      rw [UnpackedFloat.div, core]
      cases sign with
      | positive => rfl
      | negative => rfl

/-! ### A second back -/

/-- A number that is beyond the largest double by up to a thousand is rounded to a finite one. -/
theorem isFinite_ofRat_beyond {exact : ℚ} (bounded : |exact| ≤ largest + 1000) :
    Scalar.isFinite (ofRat exact) = true := by
  have small : (1000 : ℚ) < 2 ^ 970 :=
    calc (1000 : ℚ) < 2 ^ 10 := by norm_num
      _ ≤ 2 ^ 970 := pow_le_pow_right₀ one_le_two (by norm_num)
  refine isFinite_ofRat_iff.mpr (bounded.trans_lt ?_)
  rw [largest, threshold, pow_succ' 2 970]
  generalize (2 : ℚ) ^ 970 = place at small ⊢
  linarith

theorem exists_denotation {value : Float} (finite : Scalar.isFinite value = true) :
    ∃ exact, denotation value = .finite exact := by
  have stands : Scalar.denotation value = denotation value := rfl
  unfold Scalar.isFinite at finite
  rw [stands] at finite
  split at finite
  · exact ⟨_, ‹_›⟩
  · cases finite

/-- A thousand back from a finite double there is another, and the two are not too far apart. -/
theorem exists_thousandBack {goal : Float} {exact : ℚ} (finite : denotation goal = .finite exact) :
    ∃ back, denotation (goal - ofRat 1000) = .finite back ∧ back ≤ exact
      ∧ exact - back ≤ largest + 1000 := by
  have thousand : denotation (ofRat 1000) = .finite 1000 := @denotation_ofRat_whole 1000 (by norm_num)
  have thousandBelow : denotation (ofRat (-1000)) = .finite (-1000) :=
    (reads_of_finite thousand).neg.nearest
  obtain ⟨low, high⟩ := abs_le.mp (abs_le_largest finite)
  have bounded : |exact - 1000| ≤ largest + 1000 := abs_le.mpr ⟨by linarith, by linarith⟩
  obtain ⟨back, begun⟩ := exists_denotation (isFinite_ofRat_beyond bounded)
  have before : back ≤ exact :=
    denotation_ofRat_mono (by linarith) begun (reads_of_finite finite).nearest
  refine ⟨back, (denotation_sub finite thousand).trans begun, before, ?_⟩
  rcases le_total exact 0 with nonpos | nonneg
  · have least := (abs_le.mp (abs_le_largest begun)).1
    linarith
  · have least : -1000 ≤ back := denotation_ofRat_mono (by linarith) thousandBelow begun
    linarith

/-- **The span of a thousand before a finite double goes into itself once**, unless the double is so
large that there is no such span. -/
theorem span_div_span {goal : Float} {exact : ℚ} (finite : denotation goal = .finite exact)
    (apart : (goal == goal - ofRat 1000) = false) :
    (goal - (goal - ofRat 1000)) / (goal - (goal - ofRat 1000)) = ofRat 1 := by
  obtain ⟨back, begun, before, within⟩ := exists_thousandBack finite
  have differ : back ≠ exact := by
    rintro rfl
    rw [beq_of_same_value finite begun] at apart
    cases apart
  have least := (reads_of_finite finite).least_le_sub (reads_of_finite begun)
    (lt_of_le_of_ne before differ)
  have bounded : |exact - back| ≤ largest + 1000 := by
    rwa [abs_of_nonneg (sub_nonneg.mpr before)]
  obtain ⟨span, rounded⟩ := exists_denotation (isFinite_ofRat_beyond bounded)
  exact div_self_of_finite ((denotation_sub finite begun).trans rounded)
    (pos_of_least least rounded).ne'

/-- A thousand back from infinity is infinity. -/
theorem beq_thousandBack_of_lost {goal : Float} (number : goal.toModel.unpack ≠ .notANumber)
    (lost : Lost goal.toModel.unpack) : (goal == goal - ofRat 1000) = true := by
  have thousand : (ofRat 1000).toModel.unpack = .finite .positive (1000 * 2 ^ 43) (-43) (by decide) :=
    rfl
  change (UnpackedFloat.compare goal.toModel.unpack (Float.ofModel (.pack (UnpackedFloat.sub
    Format.binary64 goal.toModel.unpack (ofRat 1000).toModel.unpack))).toModel.unpack
      == some .eq) = true
  rw [thousand]
  generalize goal.toModel.unpack = form at number lost ⊢
  cases lost with
  | undefined => exact absurd rfl number
  | infinite sign => cases sign <;> rfl

end Showreel.Number.Binary64
