import Showreel.Number.Exact
import Showreel.Number.Literal
import Showreel.Proofs.Number.Sums
import Showreel.Proofs.Text.Visible

/-!
Contract: whole numbers are read back from their decimal digits.

Owns:
- the literals of texts that begin with digits;
- the law that digits stand for the number that they write, for doubles and for exact rationals;
- that the decimal text of a whole number of an ordinary size is a token with its value.

Does not own: fractions, exponents, and digits of other scripts.
-/

namespace Showreel.Number

open Text

namespace Literal

/-! ### Digits -/

theorem plainChar_of_visible {char : Char} (visible : IsVisible char) : plainChar char = char := by
  rcases visible with ⟨low, high⟩
  unfold plainChar digitValue?
  by_cases digit : 0x30 ≤ char.toNat ∧ char.toNat < 0x30 + 10
  · have found : digitZeros.find? (fun first =>
        decide (first ≤ char.toNat ∧ char.toNat < first + 10)) = some 0x30 :=
      List.find?_cons_of_pos (decide_eq_true digit)
    rw [found]
    change Char.ofNat (0x30 + (char.toNat - 0x30)) = char
    rw [Nat.add_sub_cancel' digit.1, Char.ofNat_toNat]
  · have others : ∀ first ∈ digitZeros, first = 0x30 ∨ 0x7A < first := by decide
    have unfound : digitZeros.find? (fun first =>
        decide (first ≤ char.toNat ∧ char.toNat < first + 10)) = none := by
      rw [List.find?_eq_none]
      intro first member within
      rcases others first member with rfl | above
      · exact digit (of_decide_eq_true within)
      · exact absurd (of_decide_eq_true within).1 (by omega)
    rw [unfound]
    rfl

/-- Visible characters are read as they are written. -/
theorem plainForm_of_visible {text : String} (visible : ∀ char ∈ text.toList, IsVisible char) :
    plainForm text = text.toList := by
  have unblank : ∀ chars : List Char, (∀ char ∈ chars, IsVisible char) →
      chars.dropWhile isNumberBlank = chars := by
    intro chars visible
    cases chars with
    | nil => rfl
    | cons char rest =>
        refine List.dropWhile_cons_of_neg ?_
        unfold isNumberBlank
        rw [isBlank_of_visible (visible char List.mem_cons_self)]
        exact Bool.false_ne_true
  unfold plainForm
  dsimp only
  rw [unblank _ visible, unblank _ fun char member => visible char (List.mem_reverse.mp member),
    List.reverse_reverse]
  exact (List.map_congr_left fun char member => plainChar_of_visible (visible char member)).trans
    (List.map_id' _)

theorem baseDigit?_of_isDigit {char : Char} (digit : char.isDigit = true) :
    baseDigit? 10 char = some (char.toNat - '0'.toNat) := by
  have bounds := bounds_of_isDigit digit
  have small : char.toNat - '0'.toNat < 10 := by
    have low : 48 ≤ char.toNat := bounds.1
    have high : char.toNat ≤ 57 := bounds.2
    change char.toNat - 48 < 10
    omega
  unfold baseDigit?
  rw [if_pos bounds]
  exact if_pos small

/-- Digits are taken up to what is no digit. -/
theorem takeDigits_append {digits rest : List Char} (all : ∀ char ∈ digits, char.isDigit = true)
    (stops : ∀ char ∈ rest.head?, baseDigit? 10 char = none ∧ char ≠ '_') (started : Bool) :
    takeDigits 10 started (digits ++ rest)
      = (digits.map fun char => char.toNat - '0'.toNat, rest) := by
  induction digits generalizing started with
  | nil =>
      cases rest with
      | nil => rfl
      | cons char others =>
          rcases stops char rfl with ⟨noDigit, plain⟩
          rw [List.nil_append, takeDigits, noDigit]
          exact if_neg fun underscore => plain underscore.1
  | cons char others inductionHypothesis =>
      rcases List.forall_mem_cons.mp all with ⟨digit, allOthers⟩
      rw [List.cons_append, takeDigits, baseDigit?_of_isDigit digit]
      dsimp only
      rw [inductionHypothesis allOthers]
      rfl

theorem ofDigits_map (digits : List Char) :
    ofDigits 10 (digits.map fun char => char.toNat - '0'.toNat) = Nat.ofDigitChars 10 digits 0 := by
  unfold ofDigits
  rw [List.foldl_map, Nat.ofDigitChars_eq_foldl]
  congr 1
  funext value char
  rw [Nat.mul_comm]

/-- Digits alone are a whole number. -/
theorem readDecimal_digits {digits : List Char} (all : ∀ char ∈ digits, char.isDigit = true)
    (some : digits ≠ []) (negative : Bool) :
    readDecimal negative digits
      = .some (.decimal negative (Nat.ofDigitChars 10 digits 0) 0) := by
  have taken : takeDigits 10 false (digits ++ [])
      = (digits.map fun char => char.toNat - '0'.toNat, []) :=
    takeDigits_append all (fun _ impossible => by cases impossible) false
  rw [List.append_nil] at taken
  unfold readDecimal
  rw [taken]
  dsimp only [takeFraction]
  rw [if_neg, List.append_nil, ofDigits_map]
  · rfl
  · rw [List.isEmpty_iff, List.map_eq_nil_iff]
    exact fun nothing => some nothing.1

/-- Digits with another mark behind them are no decimal. -/
theorem readDecimal_marked {digits rest : List Char} {mark : Char}
    (all : ∀ char ∈ digits, char.isDigit = true) (noDigit : baseDigit? 10 mark = none)
    (other : mark ≠ '_' ∧ mark ≠ '.' ∧ mark ≠ 'e' ∧ mark ≠ 'E') (negative : Bool) :
    readDecimal negative (digits ++ mark :: rest) = none := by
  rcases other with ⟨noJoint, noPoint, noExponent, noCapital⟩
  have stops : ∀ char ∈ (mark :: rest).head?, baseDigit? 10 char = none ∧ char ≠ '_' := by
    rintro char ⟨⟩
    exact ⟨noDigit, noJoint⟩
  have fraction : takeFraction (mark :: rest) = ([], mark :: rest) := by
    unfold takeFraction
    split
    · rename_i point
      cases point
      exact absurd rfl noPoint
    · rfl
  unfold readDecimal
  rw [takeDigits_append all stops]
  dsimp only
  rw [fraction]
  dsimp only
  split
  · rfl
  · rw [readExponent, if_neg (not_or.mpr ⟨noExponent, noCapital⟩)]
    rfl

/-- What is no word for a number is read as a decimal. -/
theorem read?_of_visible {text : String} {unsigned : List Char} {negative : Bool}
    (visible : ∀ char ∈ text.toList, IsVisible char)
    (sign : takeSign text.toList = (negative, unsigned))
    (wordless : ∀ char ∈ unsigned, char.toLower ≠ 'n') :
    read? text = readDecimal negative unsigned := by
  have noWord : ∀ word : List Char, 'n' ∈ word → unsigned.map Char.toLower ≠ word := by
    rintro _ member rfl
    rcases List.mem_map.mp member with ⟨char, within, lower⟩
    exact wordless char within lower
  unfold read?
  rw [plainForm_of_visible visible, sign]
  dsimp only
  rw [if_neg (not_or.mpr ⟨noWord _ (by decide), noWord _ (by decide)⟩),
    if_neg (noWord _ (by decide))]

theorem takeSign_unsigned {char : Char} (unsigned : char ≠ '-' ∧ char ≠ '+') (rest : List Char) :
    takeSign (char :: rest) = (false, char :: rest) := by
  unfold takeSign
  split
  · rename_i minus
    cases minus
    exact absurd rfl unsigned.1
  · rename_i plus
    cases plus
    exact absurd rfl unsigned.2
  · rfl

/-- A digit is no sign, and no letter of a word. -/
theorem other_of_isDigit {char : Char} (digit : char.isDigit = true) :
    (char ≠ '-' ∧ char ≠ '+') ∧ char.toLower ≠ 'n' := by
  rw [toLower_of_isDigit digit]
  refine ⟨⟨?_, ?_⟩, ?_⟩ <;>
  · rintro rfl
    exact absurd digit (by decide)

theorem toList_toString (count : ℤ) : (toString count).toList
    = if count < 0 then '-' :: Nat.toDigits 10 count.natAbs else Nat.toDigits 10 count.natAbs := by
  rw [Int.toString_eq_repr, Int.repr_eq_if]
  by_cases negative : count < 0
  · have magnitude : (-count).toNat = count.natAbs := by omega
    rw [if_neg (not_le.mpr negative), if_pos negative, String.toList_append, Nat.toList_repr,
      magnitude]
    rfl
  · have magnitude : count.toNat = count.natAbs := by omega
    rw [if_pos (not_lt.mp negative), if_neg negative, Nat.toList_repr, magnitude]

theorem toList_toString_ne_nil (count : ℤ) : (toString count).toList ≠ [] := by
  rw [toList_toString]
  split
  · exact List.cons_ne_nil _ _
  · exact Nat.toDigits_ne_nil

/-- A whole number is written with digits and a sign. -/
theorem sign_or_digit_of_mem_toString {count : ℤ} {char : Char}
    (member : char ∈ (toString count).toList) : char = '-' ∨ char.isDigit = true := by
  have digits : ∀ digit ∈ Nat.toDigits 10 count.natAbs, digit.isDigit = true :=
    fun digit within => Nat.isDigit_of_mem_toDigits (by decide) (by decide) within
  rw [toList_toString] at member
  split at member
  · exact (List.mem_cons.mp member).imp_right (digits char)
  · exact .inr (digits char member)

theorem notMem_toString {char : Char} (noSign : char ≠ '-') (noDigit : char.isDigit = false)
    (count : ℤ) : char ∉ (toString count).toList := by
  intro member
  obtain sign | digit := sign_or_digit_of_mem_toString member
  · exact noSign sign
  · rw [noDigit] at digit
    cases digit

/-- **The decimal digits of a whole number, behind its sign, are its literal.** -/
theorem read?_toString (count : ℤ) :
    read? (toString count) = some (.decimal (decide (count < 0)) count.natAbs 0) := by
  have digits : ∀ char ∈ Nat.toDigits 10 count.natAbs, char.isDigit = true :=
    fun char member => Nat.isDigit_of_mem_toDigits (by decide) (by decide) member
  have visible : ∀ char ∈ Nat.toDigits 10 count.natAbs, IsVisible char := fun char member =>
    visible_of_isDigit (digits char member)
  have others := fun char member => other_of_isDigit (digits char member)
  have read : ∀ negative, readDecimal negative (Nat.toDigits 10 count.natAbs)
      = some (.decimal negative count.natAbs 0) := fun negative => by
    rw [readDecimal_digits digits Nat.toDigits_ne_nil, Nat.ofDigitChars_ten_toDigits]
  have text := toList_toString count
  have some : Nat.toDigits 10 count.natAbs ≠ [] := Nat.toDigits_ne_nil
  generalize Nat.toDigits 10 count.natAbs = chars at digits visible others read text some
  by_cases negative : count < 0
  · rw [if_pos negative] at text
    rw [decide_eq_true negative, ← read true]
    refine read?_of_visible ?_ (by rw [text]; rfl) fun char member => (others char member).2
    rw [text]
    exact List.forall_mem_cons.mpr ⟨by decide, visible⟩
  · rw [if_neg negative] at text
    rw [decide_eq_false negative, ← read false]
    refine read?_of_visible (text ▸ visible) ?_ fun char member => (others char member).2
    rw [text]
    cases chars with
    | nil => exact absurd rfl some
    | cons char rest => exact takeSign_unsigned (others char List.mem_cons_self).1 rest

end Literal

/-! ### Values -/

open Scalar

/-- Arithmetic in which the digits of a whole number of an ordinary size stand for the number. -/
class DecimalScalar (α : Type) [Scalar α] : Prop where
  stands : ∀ {count : ℤ}, |count| ≤ 2 ^ 53 →
    denotation (ofLiteral (.decimal (decide (count < 0)) count.natAbs 0) : α) = .finite count

/-- A magnitude with the sign of a number is the number. -/
theorem signed_natAbs (count : ℤ) :
    (if decide (count < 0) = true then -(count.natAbs : ℚ) else count.natAbs) = count := by
  split
  · rename_i negative
    rw [← Int.cast_natCast, Int.ofNat_natAbs_of_nonpos (of_decide_eq_true negative).le,
      Int.cast_neg, neg_neg]
  · rename_i nonneg
    rw [← Int.cast_natCast, Int.natAbs_of_nonneg (by simpa using nonneg)]

namespace Binary64

theorem denotation_ofDecimal {count : Nat} (small : count ≤ 2 ^ 53) :
    denotation (ofDecimal count 0) = .finite count := by
  rw [← denotation_ofRat_whole small]
  unfold ofDecimal
  by_cases nothing : count = 0
  · rw [if_pos nothing, nothing]
    rfl
  · rw [if_neg nothing]
    change denotation (ofMagnitude (count * 10 ^ 0) 1) = _
    rw [pow_zero, mul_one, ofRat_of_nonnegative (Nat.cast_nonneg count)]
    rfl

instance : DecimalScalar Float where
  stands := by
    intro count small
    have magnitude : denotation (ofDecimal count.natAbs 0) = .finite count.natAbs :=
      denotation_ofDecimal (by zify; exact small)
    rw [← signed_natAbs count]
    change denotation (if decide (count < 0) = true then -ofDecimal count.natAbs 0
      else ofDecimal count.natAbs 0) = .finite _
    split
    · exact denotation_neg magnitude
    · exact magnitude

end Binary64

instance : DecimalScalar ℚ where
  stands := by
    intro count _
    have magnitude : decimalValue count.natAbs 0 = count.natAbs := by
      change ((count.natAbs * 10 ^ 0 : Nat) : ℚ) = count.natAbs
      rw [pow_zero, mul_one]
    rw [← signed_natAbs count, ← magnitude]
    rfl

variable {α : Type} [Scalar α] [DecimalScalar α]

/-- **The decimal text of a whole number of an ordinary size is a token with its value.** -/
theorem exists_readToken?_toString {count : ℤ} (small : |count| ≤ 2 ^ 53) :
    ∃ value : α, readToken? (toString count) = some value ∧ wholePart value = .ok count := by
  have stands : denotation (ofLiteral (.decimal (decide (count < 0)) count.natAbs 0) : α)
      = .finite count := DecimalScalar.stands small
  have finite : isFinite (ofLiteral (.decimal (decide (count < 0)) count.natAbs 0) : α) = true := by
    rw [isFinite, stands]
  have read : readFinite? (toString count)
      = some (ofLiteral (.decimal (decide (count < 0)) count.natAbs 0) : α) := by
    rw [readFinite?, Literal.read?_toString, Option.bind_some]
    exact if_pos finite
  refine ⟨_, by rw [readToken?, read], ?_⟩
  rw [wholePart, stands]
  dsimp only [truncate]
  rw [Rat.num_intCast, Rat.den_intCast, Nat.cast_one, Int.tdiv_one]

end Showreel.Number
