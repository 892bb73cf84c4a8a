import Showreel.Number.Exact
import Showreel.Number.Text
import Showreel.Proofs.Number.Comparison

/-!
Contract: the laws of arithmetic that scripts rely on.

Owns:
- the laws, for doubles and for exact rationals;
- which whole numbers are in the range of scalars.

Does not own: the scripts.
-/

namespace Showreel.Number

open Scalar

/-- Arithmetic in which numbers between values are in range, and values of an ordinary size do not
vanish in products and reciprocals. -/
class LawfulScalar (α : Type) [Scalar α] : Prop where
  between : ∀ {value : α} {bound exact : ℚ}, denotation value = .finite bound → |exact| ≤ |bound| →
    isFinite (ofRat exact : α) = true
  wide : ∀ {exact : ℚ}, |exact| ≤ 2 ^ 1023 → isFinite (ofRat exact : α) = true
  sixteenth : ∀ {value : α}, 0.0625 ≤ value → (value == (0 : α)) = false
  reciprocal : ∀ {value : α}, -16 ≤ value → value ≤ -1 → (-(1 / value) == (0 : α)) = false
  product : ∀ {first second : ℤ} {value other : α}, 1 ≤ first → 1 ≤ second →
    (ofInt first : Except Fault α) = .ok value → (ofInt second : Except Fault α) = .ok other →
    (value * other == (0 : α)) = false

namespace Binary64

/-- A whole number from one on is nearest to a double with a leading bit. -/
theorem magnitudeBits_of_ofInt {whole : ℤ} {value : Float} (atLeast : 1 ≤ whole)
    (converted : (Scalar.ofInt whole : Except Fault Float) = .ok value) :
    1023 * 2 ^ 52 ≤ magnitudeBits value ∧ magnitudeBits value < infinityBits := by
  unfold Scalar.ofInt Scalar.inRange at converted
  dsimp only at converted
  split_ifs at converted with finite
  cases converted
  refine ⟨?_, isFinite_iff.mp finite⟩
  change _ ≤ magnitudeBits (ofRat whole)
  rw [magnitudeBits_ofRat]
  apply le_nearestBits (Rat.pos _)
  rw [natAbs_num_div_den]
  have above : (1 : ℚ) ≤ whole := mod_cast atLeast
  exact above.trans (le_abs_self _)

instance : LawfulScalar Float where
  between finite within := by
    refine isFinite_ofRat (within.trans (abs_le_largest finite))
  wide within := by
    refine isFinite_ofRat (within.trans ?_)
    rw [largest, show (2 : ℚ) ^ 1023 = 2 ^ 52 * 2 ^ 971 by rw [← pow_add]]
    gcongr
    norm_num
  sixteenth := by
    intro value above
    rw [← Bool.not_eq_true]
    intro zero
    rcases eq_zero_of_beq zero with rfl | rfl
    · exact absurd above (by decide)
    · exact absurd above (by decide)
  reciprocal low high := by
    apply beq_zero_of_magnitudeBits
    rw [magnitudeBits_neg]
    exact magnitudeBits_reciprocal low high
  product atLeast atLeastToo converted convertedToo := by
    obtain ⟨low, high⟩ := magnitudeBits_of_ofInt atLeast converted
    obtain ⟨lowToo, highToo⟩ := magnitudeBits_of_ofInt atLeastToo convertedToo
    exact beq_zero_of_magnitudeBits (magnitudeBits_mul low high lowToo highToo)

end Binary64

instance : LawfulScalar ℚ where
  between _ _ := rfl
  wide _ := rfl
  sixteenth := by
    intro value above
    change mkRat 625 (10 ^ 4) ≤ value at above
    have positive : 0 < value := by
      refine lt_of_lt_of_le ?_ above
      rw [Rat.mkRat_eq_div]
      norm_num
    exact beq_false_of_ne positive.ne'
  reciprocal := by
    intro value _ high
    change value ≤ -1 at high
    have negative : value < 0 := high.trans_lt (by norm_num)
    exact beq_false_of_ne (neg_ne_zero.mpr (one_div_ne_zero negative.ne))
  product := by
    intro first second value other atLeast atLeastToo converted convertedToo
    cases converted
    cases convertedToo
    have positive : (0 : ℚ) < first := mod_cast atLeast
    have positiveToo : (0 : ℚ) < second := mod_cast atLeastToo
    exact beq_false_of_ne (mul_pos positive positiveToo).ne'

/-! ### Whole numbers in range -/

theorem abs_truncate_le (exact : ℚ) : |(truncate exact : ℚ)| ≤ |exact| := by
  rw [← Int.cast_abs, ← Nat.cast_natAbs, truncate, Int.natAbs_tdiv, Int.natAbs_natCast,
    ← Binary64.natAbs_num_div_den]
  exact Nat.cast_div_le

section Whole

variable {α : Type} [Scalar α] [LawfulScalar α]

omit [LawfulScalar α] in
theorem ofInt_of_isFinite {count : ℤ} (finite : isFinite (ofRat count : α) = true) :
    ∃ value : α, (ofInt count : Except Fault α) = .ok value :=
  ⟨ofRat count, if_pos finite⟩

/-- A whole number up to the whole part of some value is in range. -/
theorem exists_ofInt {value : α} {bound count : ℤ} (whole : wholePart value = .ok bound)
    (within : |count| ≤ |bound|) : ∃ scalar : α, (ofInt count : Except Fault α) = .ok scalar := by
  unfold wholePart at whole
  cases exact : denotation value with
  | infinite negative => rw [exact] at whole; cases whole
  | undefined => rw [exact] at whole; cases whole
  | finite number =>
      rw [exact] at whole
      cases whole
      apply ofInt_of_isFinite
      apply LawfulScalar.between exact
      calc |(count : ℚ)| ≤ |(truncate number : ℚ)| := mod_cast within
        _ ≤ |number| := abs_truncate_le number

theorem exists_ofInt_of_small {count : ℤ} (small : |count| ≤ 2 ^ 53) :
    ∃ scalar : α, (ofInt count : Except Fault α) = .ok scalar := by
  apply ofInt_of_isFinite
  apply LawfulScalar.wide
  calc |(count : ℚ)| ≤ 2 ^ 53 := mod_cast small
    _ ≤ 2 ^ 1023 := pow_le_pow_right₀ (by norm_num) (by norm_num)

end Whole

end Showreel.Number
