import Mathlib.Order.Interval.Set.UnorderedInterval
import Showreel.Proofs.Number.Lawful
import Showreel.Waypoint.Motion

/-!
Contract: how much of the way between two keyframes is done, over exact rationals.

Owns:
- that rounding to the nearest whole number keeps the order;
- the part of the time that has passed, settled to a millionth, and its place beside zero and one;
- the easing curve as a polynomial: it rises between zero and one, and it falls before zero;
- the mix of two values at a clamped progress, which stays between them.

Does not own: keyframes.
-/

namespace Showreel.Number

open Binary64 (roundedQuotient_mono roundedQuotient_eq natAbs_num_div_den)

/-! ### The nearest whole number -/

/-- **Rounding to the nearest whole number keeps the order**, ties included. -/
theorem nearestWhole_mono {value other : ℚ} (within : value ≤ other) :
    nearestWhole value ≤ nearestWhole other := by
  unfold nearestWhole
  rcases lt_or_ge other 0 with below | nonnegative
  · -- both are negative, so that the greater magnitude belongs to the smaller number
    have belowToo := within.trans_lt below
    rw [if_pos (Rat.num_neg.mpr belowToo), if_pos (Rat.num_neg.mpr below), neg_le_neg_iff,
      Int.ofNat_le]
    apply roundedQuotient_mono other.pos value.pos
    rw [natAbs_num_div_den, natAbs_num_div_den, abs_of_neg below, abs_of_neg belowToo]
    exact neg_le_neg within
  · rw [if_neg (not_lt.mpr (Rat.num_nonneg.mpr nonnegative))]
    split
    · omega
    · rename_i positive
      have nonnegativeToo : 0 ≤ value := Rat.num_nonneg.mp (not_lt.mp positive)
      rw [Int.ofNat_le]
      apply roundedQuotient_mono value.pos other.pos
      rwa [natAbs_num_div_den, natAbs_num_div_den, abs_of_nonneg nonnegative,
        abs_of_nonneg nonnegativeToo]

theorem nearestWhole_natCast (count : ℕ) : nearestWhole (count : ℚ) = count := by
  have nonnegative : (0 : ℚ) ≤ count := Nat.cast_nonneg count
  have exact : ((count : ℚ).num.natAbs : ℚ) / ((count : ℚ).den : ℚ) = count := by
    rw [natAbs_num_div_den, abs_of_nonneg nonnegative]
  rw [nearestWhole, if_neg (not_lt.mpr (Rat.num_nonneg.mpr nonnegative)),
    roundedQuotient_eq (Rat.pos _) exact]

end Showreel.Number

namespace Showreel.Waypoint.Motion

open Number Scalar

/-! ### The part of the time that has passed -/

/-- The part of the time between two times that has passed at a third, settled to a millionth. After
the second time no more passes. -/
def fraction (start finish elapsed : ℚ) : ℚ :=
  nearestWhole (1000000 * ((min elapsed finish - start) / (finish - start))) / 1000000

theorem settleProgress_eq (progress : ℚ) :
    settleProgress progress = .ok (nearestWhole (1000000 * progress) / 1000000 : ℚ) :=
  rfl

section Fraction

variable {start finish elapsed other : ℚ}

theorem fraction_mono (later : start < finish) (within : elapsed ≤ other) :
    fraction start finish elapsed ≤ fraction start finish other := by
  have span : 0 < finish - start := sub_pos.mpr later
  have rounded : nearestWhole (1000000 * ((min elapsed finish - start) / (finish - start)))
      ≤ nearestWhole (1000000 * ((min other finish - start) / (finish - start))) := by
    apply nearestWhole_mono
    gcongr
  have cast : ((nearestWhole (1000000 * ((min elapsed finish - start) / (finish - start))) : ℤ) : ℚ)
      ≤ nearestWhole (1000000 * ((min other finish - start) / (finish - start))) := mod_cast rounded
  unfold fraction
  gcongr

theorem fraction_start (later : start < finish) : fraction start finish start = 0 := by
  have none := nearestWhole_natCast 0
  rw [Nat.cast_zero] at none
  rw [fraction, min_eq_left later.le, sub_self, zero_div, mul_zero, none]
  norm_num

theorem fraction_of_le (later : start < finish) (past : finish ≤ elapsed) :
    fraction start finish elapsed = 1 := by
  have all := nearestWhole_natCast 1000000
  rw [fraction, min_eq_right past, div_self (sub_pos.mpr later).ne', mul_one]
  push_cast at all
  rw [all]
  norm_num

theorem fraction_nonneg (later : start < finish) (begun : start ≤ elapsed) :
    0 ≤ fraction start finish elapsed :=
  (fraction_start later).ge.trans (fraction_mono later begun)

theorem fraction_le_one (later : start < finish) : fraction start finish elapsed ≤ 1 := by
  rcases le_total elapsed finish with inside | past
  · exact (fraction_mono later inside).trans (fraction_of_le later le_rfl).le
  · exact (fraction_of_le later past).le

end Fraction

/-! ### The easing curve -/

/-- The easing curve as a polynomial. -/
def curve (t : ℚ) : ℚ := (3 - 2 * t) * t ^ 2

theorem ease_eq (t : ℚ) : ease t = .ok (curve t) := by
  have polynomial : (1 - 0 - 3 * (0 - 0) - (3 * (1 - 0) - 3 * (0 - 0))) * t ^ 3
      + (3 * (1 - 0) - 3 * (0 - 0)) * t ^ 2 + 3 * (0 - 0) * t + 0 = curve t := by
    unfold curve
    ring
  rw [← polynomial]
  rfl

@[simp] theorem curve_zero : curve 0 = 0 := by norm_num [curve]

@[simp] theorem curve_one : curve 1 = 1 := by norm_num [curve]

/-- Between zero and one the curve rises. -/
theorem curve_mono {s t : ℚ} (low : 0 ≤ s) (within : s ≤ t) (high : t ≤ 1) :
    curve s ≤ curve t := by
  have slope : 0 ≤ 3 * (t + s) - 2 * (t ^ 2 + t * s + s ^ 2) := by nlinarith
  have rise : curve t - curve s = (t - s) * (3 * (t + s) - 2 * (t ^ 2 + t * s + s ^ 2)) := by
    unfold curve
    ring
  have positive : 0 ≤ curve t - curve s := rise ▸ mul_nonneg (sub_nonneg.mpr within) slope
  linarith

/-- Up to one the curve is zero at zero alone. Before that it has been above. -/
theorem curve_pos {t : ℚ} (high : t ≤ 1) (moved : t ≠ 0) : 0 < curve t := by
  have factor : 0 < 3 - 2 * t := by linarith
  unfold curve
  positivity

/-! ### Mixes -/

/-- A progress between none and all of the way. -/
def clamp (progress : ℚ) : ℚ := max 0 (min progress 1)

theorem clamp_mono {progress other : ℚ} (within : progress ≤ other) :
    clamp progress ≤ clamp other :=
  max_le_max_left 0 (min_le_min_right 1 within)

theorem clamp_nonneg (progress : ℚ) : 0 ≤ clamp progress := le_max_left ..

theorem clamp_le_one (progress : ℚ) : clamp progress ≤ 1 :=
  max_le zero_le_one (min_le_right ..)

theorem clamp_of_nonpos {progress : ℚ} (none : progress ≤ 0) : clamp progress = 0 :=
  max_eq_left (min_le_iff.mpr (.inl none))

theorem clamp_of_one_le {progress : ℚ} (all : 1 ≤ progress) : clamp progress = 1 := by
  rw [clamp, min_eq_right all, max_eq_right zero_le_one]

theorem clamp_of_mem {progress : ℚ} (low : 0 ≤ progress) (high : progress ≤ 1) :
    clamp progress = progress := by
  rw [clamp, min_eq_left high, max_eq_right low]

theorem clamp_eq_zero_iff {progress : ℚ} : clamp progress = 0 ↔ progress ≤ 0 := by
  refine ⟨fun none => ?_, clamp_of_nonpos⟩
  rcases min_le_iff.mp (max_eq_left_iff.mp none) with low | impossible
  · exact low
  · exact absurd impossible (by norm_num)

theorem mix_eq (start finish progress : ℚ) :
    mix start finish progress = start + clamp progress * (finish - start) := by
  unfold mix
  split
  · rename_i none
    rw [clamp_of_nonpos none, zero_mul, add_zero]
  · rename_i some
    split
    · rename_i all
      rw [clamp_of_one_le all, one_mul, add_sub_cancel]
    · rename_i part
      rw [clamp_of_mem (not_le.mp some).le (not_le.mp part).le]

theorem mix_zero (start finish : ℚ) : mix start finish 0 = start :=
  if_pos le_rfl

theorem mix_one (start finish : ℚ) : mix start finish 1 = finish :=
  (if_neg (by decide)).trans (if_pos le_rfl)

/-- **A mix is between its two values.** -/
theorem mix_mem_uIcc (start finish progress : ℚ) :
    mix start finish progress ∈ Set.uIcc start finish := by
  have low := clamp_nonneg progress
  have high := clamp_le_one progress
  rw [mix_eq, Set.mem_uIcc]
  rcases le_total start finish with up | down
  · left
    constructor <;> nlinarith
  · right
    constructor <;> nlinarith

theorem mix_eq_start_iff {start finish progress : ℚ} :
    mix start finish progress = start ↔ start = finish ∨ progress ≤ 0 := by
  rw [mix_eq, add_eq_left, mul_eq_zero, clamp_eq_zero_iff, sub_eq_zero, or_comm, eq_comm]

end Showreel.Waypoint.Motion
