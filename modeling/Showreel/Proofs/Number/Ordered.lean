import Mathlib.Data.Prod.Lex
import Showreel.Proofs.Number.Lawful
import Showreel.Proofs.Number.Sums

/-!
Contract: the laws of arithmetic that scripts, walks along a chain, fading callouts and the pace of
steps rely on.

Owns:
- the laws of order, for doubles and for exact rationals;
- that the conversion of whole numbers keeps the order, and that counting comes to every finite
  value, to a whole number of ordinary size with the number itself;
- the rank of a double, and that doubles that are numbers are ordered by their ranks;
- the law of transitivity, for doubles and for exact rationals;
- the law that the values nearest to numbers stand in the order of the numbers, and that the smaller
  and the larger of two such values are nearest to the smaller and the larger number;
- what is carried from frame to frame when whole generations are taken out of the time that passes,
  and its laws.

Does not own: the ranges of scripts, and values that are no numbers, which no value is below or
above; how far a nearest value is from its number; the generations.
-/

namespace Showreel.Number

open Scalar

/-- Arithmetic whose order is total among numbers and is kept by rounding, in which whole numbers of
an ordinary size are exact, and in which finite values have quotients and reciprocals. -/
class OrderedScalar (α : Type) [Scalar α] : Prop extends LawfulScalar α where
  total : ∀ {value bound : α}, denotation value ≠ .undefined → denotation bound ≠ .undefined →
    ¬value < bound → bound ≤ value
  monotone : ∀ {exact other : ℚ}, 0 ≤ exact → exact ≤ other → (ofRat exact : α) ≤ ofRat other
  whole : ∀ {count : ℕ}, count ≤ 2 ^ 53 → denotation (ofRat (count : ℚ) : α) = .finite count
  quotient : ∀ {dividend divisor : α}, isFinite dividend = true → isFinite divisor = true →
    (divisor == (0 : α)) = false → denotation (dividend / divisor) ≠ .undefined
  magnification : ∀ {value : α}, -16 ≤ value → value ≤ -1 →
    0.0625 ≤ -(1 / value) ∧ -(1 / value) ≤ 64

instance : OrderedScalar Float where
  total number numberToo := by
    refine Binary64.le_of_not_lt ?_ ?_
    · rwa [Ne, Binary64.unpack_notANumber_iff, ← Binary64.denotation_undefined_iff]
    · rwa [Ne, Binary64.unpack_notANumber_iff, ← Binary64.denotation_undefined_iff]
  monotone := Binary64.ofRat_mono
  whole := Binary64.denotation_ofRat_whole
  quotient := Binary64.denotation_div
  magnification := Binary64.reciprocal_between

instance : OrderedScalar ℚ where
  total _ _ := not_lt.mp
  monotone _ := id
  whole _ := rfl
  quotient _ _ _ := nofun
  magnification := by
    intro value low high
    change -16 ≤ value at low
    change value ≤ -1 at high
    change mkRat 625 (10 ^ 4) ≤ -(1 / value) ∧ -(1 / value) ≤ 64
    have positive : 0 < -value := by linarith
    rw [Rat.mkRat_eq_div, ← one_div_neg_eq_neg_one_div, le_div_iff₀ positive, div_le_iff₀ positive]
    norm_num
    constructor <;> linarith

/-! ### Converted numbers -/

section Whole

variable {α : Type} [Scalar α]

/-- A whole number is converted to the nearest scalar, or is out of range. -/
theorem ofInt_cases (count : ℤ) :
    (ofInt count : Except Fault α) = .ok (ofRat count)
      ∨ (ofInt count : Except Fault α) = .error .overflow := by
  unfold ofInt inRange
  dsimp only
  split
  · exact .inl rfl
  · exact .inr rfl

theorem eq_ofRat_of_ofInt {count : ℤ} {value : α}
    (converted : (ofInt count : Except Fault α) = .ok value) : value = ofRat count := by
  rcases ofInt_cases (α := α) count with same | tooLarge
  · exact Except.ok.inj (converted.symm.trans same)
  · cases converted.symm.trans tooLarge

theorem denotation_of_isFinite {value : α} (finite : isFinite value = true) :
    denotation value ≠ .undefined := by
  intro undefined
  rw [isFinite, undefined] at finite
  cases finite

variable [OrderedScalar α]

/-- **Conversion keeps the order** of whole numbers that are not negative. -/
theorem ofInt_mono {count other : ℤ} {value bound : α} (nonnegative : 0 ≤ count)
    (within : count ≤ other) (converted : (ofInt count : Except Fault α) = .ok value)
    (convertedToo : (ofInt other : Except Fault α) = .ok bound) : value ≤ bound := by
  rw [eq_ofRat_of_ofInt converted, eq_ofRat_of_ofInt convertedToo]
  exact OrderedScalar.monotone (mod_cast nonnegative) (mod_cast within)

theorem one_le_ofInt {count : ℤ} {value : α} (atLeast : 1 ≤ count)
    (converted : (ofInt count : Except Fault α) = .ok value) : 1 ≤ value := by
  rw [eq_ofRat_of_ofInt converted]
  exact OrderedScalar.monotone (by norm_num) (mod_cast atLeast)

theorem denotation_ofRat_ne_undefined {exact : ℚ} (ordinary : |exact| ≤ 2 ^ 1023) :
    denotation (ofRat exact : α) ≠ .undefined :=
  denotation_of_isFinite (LawfulScalar.wide ordinary)

end Whole

/-! ### Counts that come to a value -/

section Counts

variable {α : Type} [Scalar α]

/-- **Counting comes to every finite value**, wherever it began, and never leaves it again. -/
theorem exists_reaches {value : α} (finite : isFinite value = true) (begun : ℕ) :
    ∃ left, 0 < left ∧ ∀ made, reaches (begun + made + 1) value = true ↔ left ≤ made + 1 := by
  unfold isFinite at finite
  split at finite
  · rename_i exact stands
    refine ⟨max 1 (⌈exact⌉₊ - begun), by omega, fun made => ?_⟩
    rw [reaches, stands, decide_eq_true_iff, ← Nat.ceil_le]
    omega
  · cases finite

/-- Counting comes to a whole number of ordinary size where it comes to the number itself. -/
theorem reaches_ofInt [OrderedScalar α] {whole : ℕ} {value : α} (ordinary : whole ≤ 2 ^ 53)
    (converted : (ofInt whole : Except Fault α) = .ok value) (count : ℕ) :
    reaches count value = true ↔ whole ≤ count := by
  rw [eq_ofRat_of_ofInt converted, Int.cast_natCast, reaches, OrderedScalar.whole ordinary,
    decide_eq_true_iff, Nat.cast_le]

end Counts

/-! ### Transitivity -/

/-- Arithmetic in which a value below a second one is below whatever the second is at most. -/
class TransitiveScalar (α : Type) [Scalar α] : Prop where
  below : ∀ {first middle last : α}, first < middle → middle ≤ last → first < last

namespace Binary64

open Float.Model
open Float.Model.UnpackedFloat (Sign)

/-- Where an unpacked double that is a number stands among the others: by its sign and its being
finite, then by its exponent, then by its mantissa. -/
def rank : UnpackedFloat → ℤ ×ₗ ℤ ×ₗ ℤ
  | .infinity .negative => toLex (-2, toLex (0, 0))
  | .finite .negative mantissa exponent _ => toLex (-1, toLex (-exponent, -(mantissa : ℤ)))
  | .zero _ | .notANumber => toLex (0, toLex (0, 0))
  | .finite .positive mantissa exponent _ => toLex (1, toLex (exponent, (mantissa : ℤ)))
  | .infinity .positive => toLex (2, toLex (0, 0))

theorem compare_sign : compare Sign.negative Sign.negative = .eq
    ∧ compare Sign.negative Sign.positive = .lt ∧ compare Sign.positive Sign.negative = .gt
    ∧ compare Sign.positive Sign.positive = .eq := by
  decide

theorem le_iff_rank {first second : UnpackedFloat} (number : first ≠ .notANumber)
    (numberToo : second ≠ .notANumber) :
    UnpackedFloat.le first second = true ↔ rank first ≤ rank second := by
  -- only two finite numbers of one sign are compared beyond the first component
  rcases first with (_ | _) | _ | _ | ⟨_ | _, mantissa, exponent, positive⟩ <;>
    rcases second with (_ | _) | _ | _ | ⟨_ | _, other, place, positiveToo⟩ <;>
    simp [UnpackedFloat.le, UnpackedFloat.compare, rank, Prod.Lex.le_iff, isLE_compare_then,
      isGE_compare_then, compare_sign] at number numberToo ⊢
  omega

/-- Of two numbers one is below the other exactly if the other is not at most the one. -/
theorem lt_iff_not_le {first second : UnpackedFloat} (number : first ≠ .notANumber)
    (numberToo : second ≠ .notANumber) :
    UnpackedFloat.lt first second = true ↔ ¬UnpackedFloat.le second first = true := by
  obtain ⟨order, compared⟩ := Option.isSome_iff_exists.mp (compare_isSome number numberToo)
  rw [UnpackedFloat.lt, UnpackedFloat.le, compare_swap first second, compared]
  cases order <;> decide

theorem number_of_lt {first second : UnpackedFloat}
    (below : UnpackedFloat.lt first second = true) :
    first ≠ .notANumber ∧ second ≠ .notANumber := by
  constructor
  · rintro rfl
    cases below
  · rintro rfl
    cases first <;> cases below

theorem number_of_le {first second : UnpackedFloat}
    (atMost : UnpackedFloat.le first second = true) : second ≠ .notANumber := by
  rintro rfl
  cases first <;> cases atMost

/-- **The order of doubles is transitive.** -/
theorem below_of_atMost {first middle last : Float} (below : first < middle)
    (atMost : middle ≤ last) : first < last := by
  rw [lt_iff] at below ⊢
  rw [le_iff] at atMost
  obtain ⟨number, numberMiddle⟩ := number_of_lt below
  have numberLast := number_of_le atMost
  rw [lt_iff_not_le number numberMiddle, le_iff_rank numberMiddle number, not_le] at below
  rw [le_iff_rank numberMiddle numberLast] at atMost
  rw [lt_iff_not_le number numberLast, le_iff_rank numberLast number, not_le]
  exact below.trans_le atMost

end Binary64

instance : TransitiveScalar Float where
  below := Binary64.below_of_atMost

instance : TransitiveScalar ℚ where
  below := lt_of_lt_of_le

/-! ### Nearest values -/

/-- Arithmetic in which the values nearest to numbers that are not negative stand in the order of
these, where two numbers may have one nearest value; and in which only numbers are in order. -/
class NearestScalar (α : Type) [Scalar α] : Prop where
  atMost : ∀ {exact other : ℚ}, 0 ≤ exact → exact ≤ other → ¬(ofRat other : α) < ofRat exact
  apart : ∀ {exact other : ℚ}, 0 ≤ exact → exact ≤ other →
    (ofRat exact : α) < ofRat other ∨ (ofRat exact : α) = ofRat other
  number : ∀ {bound value : α}, bound ≤ value → denotation value ≠ .undefined

namespace Binary64

open Float.Model
open Float.Model.UnpackedFloat (Sign)

/-- Positive doubles in order have words in order. -/
theorem magnitudeBits_le_of_le {first second : Float} (sign : signOf first = .positive)
    (signToo : signOf second = .positive) (within : first ≤ second) :
    magnitudeBits first ≤ magnitudeBits second := by
  rw [le_iff] at within
  have unpacked := unpacks first
  have unpackedToo := unpacks second
  generalize first.toModel.unpack = form at unpacked within
  generalize second.toModel.unpack = formToo at unpackedToo within
  cases unpacked with
  | undefined above => cases unpackedToo <;> cases within
  | infinite top =>
      rw [sign] at within
      cases unpackedToo with
      | undefined above => cases within
      | infinite topToo => omega
      | zero bottom => cases within
      | finite _ below => rw [signToo] at within; cases within
  | zero bottom => omega
  | finite positive below word short least leading =>
      rw [sign] at within
      cases unpackedToo with
      | undefined above => cases within
      | infinite top => omega
      | zero bottom => cases within
      | finite positiveToo belowToo wordToo shortToo leastToo leadingToo =>
          rw [signToo] at within
          have ordered := isLE_compare_then.mp within
          omega

theorem unpack_ofMagnitude_ne (numerator denominator : Nat) :
    (ofMagnitude numerator denominator).toModel.unpack ≠ .notANumber := by
  rw [Ne, unpack_notANumber_iff, magnitudeBits_ofMagnitude, not_lt]
  exact nearestBits_le _ _

/-- **Rounding takes numbers in order to doubles in order, or to one double.** -/
theorem ofRat_lt_or_eq {exact other : ℚ} (nonnegative : 0 ≤ exact) (within : exact ≤ other) :
    ofRat exact < ofRat other ∨ ofRat exact = ofRat other := by
  have nonnegativeToo := nonnegative.trans within
  by_cases below : ofRat exact < ofRat other
  · exact .inl below
  right
  rw [ofRat_of_nonnegative nonnegative, ofRat_of_nonnegative nonnegativeToo] at below ⊢
  have atMost := le_of_not_lt (unpack_ofMagnitude_ne _ _) (unpack_ofMagnitude_ne _ _) below
  have words := magnitudeBits_le_of_le (signOf_ofMagnitude _ _) (signOf_ofMagnitude _ _) atMost
  rw [magnitudeBits_ofMagnitude, magnitudeBits_ofMagnitude] at words
  have wordsToo :
      nearestBits exact.num.natAbs exact.den ≤ nearestBits other.num.natAbs other.den := by
    apply nearestBits_mono exact.pos other.pos
    rwa [natAbs_num_div_den, natAbs_num_div_den, abs_of_nonneg nonnegative,
      abs_of_nonneg nonnegativeToo]
  rw [ofMagnitude, ofMagnitude, wordsToo.antisymm words]

end Binary64

instance : NearestScalar Float where
  atMost := by
    intro exact other nonnegative within below
    have atMost := Binary64.ofRat_mono nonnegative within
    rw [Binary64.lt_iff] at below
    rw [Binary64.le_iff] at atMost
    obtain ⟨number, numberToo⟩ := Binary64.number_of_lt below
    exact (Binary64.lt_iff_not_le number numberToo).mp below atMost
  apart := Binary64.ofRat_lt_or_eq
  number := by
    intro bound value atMost undefined
    rw [Binary64.le_iff] at atMost
    exact Binary64.number_of_le atMost
      (Binary64.unpack_notANumber_iff.mpr (Binary64.denotation_undefined_iff.mp undefined))

instance : NearestScalar ℚ where
  atMost _ within := not_lt.mpr within
  apart _ within := within.lt_or_eq
  number _ := nofun

/-! ### The smaller and the larger value -/

section Choice

variable {α : Type} [Scalar α] [NearestScalar α] {exact other : ℚ}

theorem smaller_ofRat (nonnegative : 0 ≤ exact) (nonnegativeToo : 0 ≤ other) :
    smaller (ofRat exact) (ofRat other) = (ofRat (min exact other) : α) := by
  unfold smaller
  rcases le_total exact other with within | within
  · rw [if_neg (NearestScalar.atMost nonnegative within), min_eq_left within]
  · rw [min_eq_right within]
    rcases NearestScalar.apart (α := α) nonnegativeToo within with below | same
    · rw [if_pos below]
    · rw [same, ite_self]

theorem larger_ofRat (nonnegative : 0 ≤ exact) (nonnegativeToo : 0 ≤ other) :
    larger (ofRat exact) (ofRat other) = (ofRat (max exact other) : α) := by
  unfold larger
  rcases le_total exact other with within | within
  · rw [max_eq_right within]
    rcases NearestScalar.apart (α := α) nonnegative within with below | same
    · rw [if_pos below]
    · rw [same, ite_self]
  · rw [if_neg (NearestScalar.atMost nonnegativeToo within), max_eq_left within]

end Choice

/-! ### Leftovers -/

/-- A value out of which no more than its whole part was taken, if it is a number at all. -/
def Leftover {α : Type} [Scalar α] (value : α) : Prop :=
  ∀ exact, denotation value = .finite exact → -1 < exact

/-- Arithmetic in which time that passes makes no leftover less, and what is left beside the whole
part of a value is a leftover again. -/
class CarryingScalar (α : Type) [Scalar α] : Prop where
  passed : ∀ {carried time pace : α} {whole : ℤ}, Leftover carried → 0 ≤ time → 0 ≤ pace →
    wholePart (carried + time * pace / 1000) = .ok whole → 0 ≤ whole
  taken : ∀ {value : α} {whole : ℤ}, wholePart value = .ok whole →
    ∃ taken : α, ofInt whole = .ok taken ∧ Leftover (value - taken)

theorem isFinite_of_denotation {α : Type} [Scalar α] {value : α} {exact : ℚ}
    (stands : denotation value = .finite exact) : isFinite value = true := by
  rw [isFinite, stands]

theorem denotation_of_wholePart {α : Type} [Scalar α] {value : α} {whole : ℤ}
    (counted : wholePart value = .ok whole) :
    ∃ exact, denotation value = .finite exact ∧ truncate exact = whole := by
  unfold wholePart at counted
  cases stands : denotation value with
  | finite exact =>
      rw [stands] at counted
      exact ⟨exact, rfl, Except.ok.inj counted⟩
  | infinite negative => rw [stands] at counted; cases counted
  | undefined => rw [stands] at counted; cases counted

theorem truncate_nonneg {exact : ℚ} (above : -1 < exact) : 0 ≤ truncate exact := by
  rcases lt_or_ge exact 0 with negative | nonneg
  · have within : |(truncate exact : ℚ)| < 1 :=
      (abs_truncate_le exact).trans_lt (abs_lt.mpr ⟨above, negative.trans one_pos⟩)
    have least : (-1 : ℚ) < truncate exact := (abs_lt.mp within).1
    have : -1 < truncate exact := mod_cast least
    omega
  · rw [Binary64.truncate_of_nonneg nonneg]
    exact Int.floor_nonneg.mpr nonneg

instance : CarryingScalar Float where
  passed := by
    intro carried time pace whole leftover timeNonneg paceNonneg counted
    obtain ⟨exact, finite, rfl⟩ := denotation_of_wholePart counted
    obtain ⟨before, more, finiteBefore, finiteMore⟩ := Binary64.finite_of_add finite
    have moreNonneg : 0 ≤ more := by
      refine Binary64.nonneg_of_div ?_ ?_ finiteMore
      · intro product finiteProduct
        exact Binary64.nonneg_of_mul (fun _ => Binary64.nonneg_of_le timeNonneg)
          (fun _ => Binary64.nonneg_of_le paceNonneg) finiteProduct
      · intro thousand finiteThousand
        exact Binary64.nonneg_of_le (Binary64.ofRat_mono le_rfl (Nat.cast_nonneg 1000))
          finiteThousand
    have rounded := (Binary64.denotation_add finiteBefore finiteMore).symm.trans finite
    apply truncate_nonneg
    calc -1 < before := leftover before finiteBefore
      _ ≤ exact := Binary64.denotation_ofRat_mono (le_add_of_nonneg_right moreNonneg)
          (Binary64.reads_of_finite finiteBefore).nearest rounded
  taken := by
    intro value whole counted
    obtain ⟨exact, finite, rfl⟩ := denotation_of_wholePart counted
    obtain ⟨wholeFinite, restFinite⟩ := Binary64.denotation_sub_wholePart finite
    refine ⟨Binary64.ofRat (truncate exact), if_pos ?_, ?_⟩
    · exact isFinite_of_denotation wholeFinite
    · intro rest stands
      cases stands.symm.trans restFinite
      exact Binary64.lt_sub_truncate exact

instance : CarryingScalar ℚ where
  passed := by
    intro carried time pace whole leftover timeNonneg paceNonneg counted
    cases counted
    apply truncate_nonneg
    have more : 0 ≤ time * pace / 1000 :=
      div_nonneg (mul_nonneg timeNonneg paceNonneg) (by norm_num)
    exact (leftover carried rfl).trans_le (le_add_of_nonneg_right more)
  taken := by
    intro value whole counted
    cases counted
    refine ⟨_, rfl, ?_⟩
    intro exact stands
    cases stands
    exact Binary64.lt_sub_truncate value

end Showreel.Number
