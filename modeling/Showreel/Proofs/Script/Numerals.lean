import Showreel.Proofs.Number.Quotients
import Showreel.Proofs.Number.Spans
import Showreel.Proofs.Script.InRange

/-!
Contract: the numbers that tokens stand for.

Owns:
- tokens that are numbers by themselves, and tokens that are quotients of two of these;
- that the tokens that pass for numeric are those, and those that have a value;
- when the value of a numeric token is finite, and so has a whole part.

Does not own: the text of a decimal literal.

A number that stands by itself is finite, and so are both parts of a quotient; whether the quotient
is finite too is not looked at.
-/

namespace Showreel.Script

open Number Scalar

section Tokens

variable {α : Type} [Scalar α]

/-- A token that is a number by itself. -/
def IsPlain (token : String) (value : α) : Prop :=
  readFinite? token = some value

/-- A token that is a number, the first of its slashes, and a number again. -/
def IsQuotient (token : String) (numerator denominator : α) : Prop :=
  ∃ left right : List Char, token.toList = left ++ '/' :: right ∧ '/' ∉ left
    ∧ IsPlain (String.ofList left) numerator ∧ IsPlain (String.ofList right) denominator

/-- The parts of a token are those around its first slash. -/
theorem slashParts_eq_some_iff {token : String} {parts : String × String} :
    slashParts token = some parts ↔ ∃ left right : List Char,
      token.toList = left ++ '/' :: right ∧ '/' ∉ left
        ∧ parts = (String.ofList left, String.ofList right) := by
  have whole : token.toList.takeWhile (· != '/') ++ token.toList.dropWhile (· != '/')
      = token.toList := List.takeWhile_append_dropWhile
  have before : '/' ∉ token.toList.takeWhile (· != '/') := fun member => by
    simpa using List.all_eq_true.mp List.all_takeWhile _ member
  constructor
  · intro found
    unfold slashParts at found
    dsimp only at found
    cases rest : token.toList.dropWhile (· != '/') with
    | nil =>
        rw [rest] at found
        cases found
    | cons mark right =>
        rw [rest] at found whole
        have slash : mark = '/' := by
          have stopped := List.head?_dropWhile_not (· != '/') token.toList
          rw [rest] at stopped
          simpa using stopped
        subst slash
        exact ⟨_, right, whole.symm, before, (Option.some.inj found).symm⟩
  · rintro ⟨left, right, spelt, none, rfl⟩
    have passed : ∀ char ∈ left, (char != '/') = true := fun char member => by
      rw [bne_iff_ne]
      rintro rfl
      exact none member
    unfold slashParts
    dsimp only
    rw [spelt, List.dropWhile_append_of_pos passed, List.takeWhile_append_of_pos passed]
    simp

theorem readFraction?_eq_some_iff {token : String} {numerator denominator : α} :
    readFraction? token = some (numerator, denominator)
      ↔ IsQuotient token numerator denominator := by
  unfold readFraction? IsQuotient IsPlain
  simp only [Option.bind_eq_some_iff, Option.map_eq_some_iff, slashParts_eq_some_iff]
  constructor
  · rintro ⟨_, ⟨left, right, spelt, before, rfl⟩, _, above, _, below, ⟨⟩⟩
    exact ⟨left, right, spelt, before, above, below⟩
  · rintro ⟨left, right, spelt, before, above, below⟩
    exact ⟨_, ⟨left, right, spelt, before, rfl⟩, _, above, _, below, rfl⟩

/-- The two parts of a quotient are settled by its text. -/
theorem IsQuotient.unique {token : String} {numerator denominator other divisor : α}
    (quotient : IsQuotient token numerator denominator)
    (quotientToo : IsQuotient token other divisor) :
    numerator = other ∧ denominator = divisor := by
  have read := readFraction?_eq_some_iff.mpr quotient
  have readToo := readFraction?_eq_some_iff.mpr quotientToo
  exact Prod.mk.inj (Option.some.inj (read.symm.trans readToo))

/-- What numeric tokens stand for. -/
theorem readToken?_eq_some_iff {token : String} {value : α} :
    readToken? token = some value ↔ IsPlain token value
      ∨ (∀ number : α, ¬IsPlain token number) ∧ ∃ numerator denominator : α,
          IsQuotient token numerator denominator
            ∧ value = if denominator == (0 : α) then 0 else numerator / denominator := by
  unfold readToken? IsPlain
  cases plain : (readFinite? token : Option α) with
  | some number =>
      constructor
      · exact .inl
      · rintro (same | ⟨never, -⟩)
        · exact same
        · exact absurd rfl (never number)
  | none =>
      simp only [Option.map_eq_some_iff, Prod.exists, readFraction?_eq_some_iff]
      constructor
      · rintro ⟨numerator, denominator, quotient, rfl⟩
        exact .inr ⟨fun _ => nofun, numerator, denominator, quotient, rfl⟩
      · rintro (impossible | ⟨-, numerator, denominator, quotient, rfl⟩)
        · cases impossible
        · exact ⟨numerator, denominator, quotient, rfl⟩

/-- **The tokens that pass for numeric** are the numbers and the quotients of numbers. -/
theorem isNumeric_iff {token : String} :
    isNumeric α token = true ↔ (∃ value : α, IsPlain token value)
      ∨ ∃ numerator denominator : α, IsQuotient token numerator denominator := by
  rw [isNumeric_iff_exists]
  constructor
  · rintro ⟨value, read⟩
    rcases readToken?_eq_some_iff.mp read with plain | ⟨-, numerator, denominator, quotient, -⟩
    · exact .inl ⟨value, plain⟩
    · exact .inr ⟨numerator, denominator, quotient⟩
  · rintro (⟨value, plain⟩ | ⟨numerator, denominator, quotient⟩)
    · exact ⟨value, readToken?_eq_some_iff.mpr (.inl plain)⟩
    · by_cases plain : ∃ value : α, IsPlain token value
      · obtain ⟨value, plain⟩ := plain
        exact ⟨value, readToken?_eq_some_iff.mpr (.inl plain)⟩
      · exact ⟨_, readToken?_eq_some_iff.mpr
          (.inr ⟨not_exists.mp plain, numerator, denominator, quotient, rfl⟩)⟩

theorem readNumber_eq_ok_iff {token : String} {value : α} :
    readNumber token = .ok value ↔ readToken? token = some value := by
  unfold readNumber
  cases (readToken? token : Option α) <;> simp

/-- A token has a value exactly if it passes for numeric. -/
theorem isNumeric_iff_readNumber {token : String} :
    isNumeric α token = true ↔ ∃ value : α, readNumber token = .ok value := by
  rw [isNumeric_iff_exists]
  exact exists_congr fun _ => readNumber_eq_ok_iff.symm

/-- The finite values are those with a whole part. -/
theorem exists_wholePart_iff {value : α} :
    (∃ whole, wholePart value = .ok whole) ↔ isFinite value = true := by
  unfold wholePart isFinite
  cases denotation value <;> simp

end Tokens

/-! ### The values of tokens -/

open Binary64 (threshold isFinite_ofRat_iff exists_denotation denotation_div_nearest)

/-- A token that is a quotient of two numbers, and no number by itself, whose exact quotient is out
of the range of doubles. -/
def IsBeyond (token : String) : Prop :=
  (∀ number : Float, ¬IsPlain token number)
    ∧ ∃ numerator denominator : Float, IsQuotient token numerator denominator
      ∧ ∃ exact other : ℚ, denotation numerator = .finite exact
        ∧ denotation denominator = .finite other ∧ other ≠ 0 ∧ threshold ≤ |exact / other|

theorem isFinite_congr {value other : Float} (same : denotation value = denotation other) :
    isFinite value = isFinite other := by
  unfold isFinite
  rw [same]

/-- A finite value is zero in comparisons if its exact value is. -/
theorem beq_zero_iff {value : Float} {exact : ℚ} (finite : denotation value = .finite exact) :
    (value == (0 : Float)) = true ↔ exact = 0 := by
  constructor
  · intro zero
    have nothing : denotation value = .finite 0 := by
      rcases Binary64.eq_zero_of_beq zero with rfl | rfl
      · decide +kernel
      · decide +kernel
    rw [nothing] at finite
    exact .symm <| Denotation.finite.inj finite
  · rintro rfl
    exact Binary64.beq_of_same_value finite (by decide +kernel)

/-- **A quotient of two numbers is finite exactly below the threshold.** -/
theorem isFinite_div_iff {numerator denominator : Float} {exact other : ℚ}
    (finite : denotation numerator = .finite exact)
    (finiteToo : denotation denominator = .finite other) (nonzero : other ≠ 0) :
    isFinite (numerator / denominator) = true ↔ |exact / other| < threshold := by
  rw [isFinite_congr (denotation_div_nearest finite finiteToo nonzero)]
  exact isFinite_ofRat_iff

theorem IsPlain.finite {token : String} {value : Float} (plain : IsPlain token value) :
    ∃ exact, denotation value = .finite exact :=
  exists_denotation (isFinite_of_readFinite plain)

/-- **The value of a token is finite** unless it is a quotient out of range. -/
theorem isFinite_iff_of_readNumber {token : String} {value : Float}
    (read : readNumber token = .ok value) : isFinite value = true ↔ ¬IsBeyond token := by
  rcases readToken?_eq_some_iff.mp (readNumber_eq_ok_iff.mp read) with
    plain | ⟨never, numerator, denominator, quotient, rfl⟩
  · exact iff_of_true (isFinite_of_readFinite plain) fun beyond => beyond.1 value plain
  · obtain ⟨left, right, spelt, before, above, below⟩ := quotient
    obtain ⟨exact, finite⟩ := above.finite
    obtain ⟨other, finiteToo⟩ := below.finite
    -- the token is out of range exactly if these two parts are
    have beyond : IsBeyond token ↔ other ≠ 0 ∧ threshold ≤ |exact / other| := by
      constructor
      · rintro ⟨-, first, second, quotientToo, exactToo, otherToo, stands, standsToo, outside⟩
        obtain ⟨rfl, rfl⟩ := IsQuotient.unique ⟨left, right, spelt, before, above, below⟩ quotientToo
        obtain rfl := Denotation.finite.inj (finite.symm.trans stands)
        obtain rfl := Denotation.finite.inj (finiteToo.symm.trans standsToo)
        exact outside
      · exact fun outside => ⟨never, numerator, denominator,
          ⟨left, right, spelt, before, above, below⟩, exact, other, finite, finiteToo, outside⟩
    rw [beyond]
    split
    case isTrue zero =>
      exact iff_of_true (by decide +kernel)
        fun outside => outside.1 ((beq_zero_iff finiteToo).mp zero)
    case isFalse other =>
      have nonzero := mt (beq_zero_iff finiteToo).mpr other
      rw [isFinite_div_iff finite finiteToo nonzero, not_and, not_le]
      exact ⟨fun within _ => within, fun within => within nonzero⟩

/-- **The numeric tokens and their values.** A token passes for numeric exactly if it is a number or
a quotient of two numbers, and exactly if it has a value. This value is a number, and it is finite,
so that it has a whole part, exactly if the token is not a quotient out of the range of doubles. -/
theorem readNumber_value (token : String) :
    (isNumeric Float token = true ↔ (∃ value : Float, IsPlain token value)
        ∨ ∃ numerator denominator : Float, IsQuotient token numerator denominator)
      ∧ (isNumeric Float token = true ↔ ∃ value : Float, readNumber token = .ok value)
      ∧ ∀ value : Float, readNumber token = .ok value →
        denotation value ≠ .undefined ∧ (isFinite value = true ↔ ¬IsBeyond token)
          ∧ ((∃ whole, wholePart value = .ok whole) ↔ ¬IsBeyond token) := by
  refine ⟨isNumeric_iff, isNumeric_iff_readNumber, fun value read => ?_⟩
  have finite := isFinite_iff_of_readNumber read
  refine ⟨?_, finite, ?_⟩
  · exact IsRead.number ⟨token, readNumber_eq_ok_iff.mp read⟩
  · rw [← finite]
    exact exists_wholePart_iff

/-- The quotient of a large number by a number below one, in range. -/
theorem readNumber_value_large :
    let token := "1e308/0.6"
    isNumeric Float token = true ∧ ¬IsBeyond token
      ∧ ∃ value : Float, readNumber token = .ok value ∧ isFinite value = true := by
  intro token
  have numeric : isNumeric Float token = true := by decide +kernel
  obtain ⟨-, valued, values⟩ := readNumber_value token
  obtain ⟨value, read⟩ := valued.mp numeric
  have finite : isFinite value = true := by
    have checked : (readNumber token : Except Fault Float).toOption.map isFinite = some true := by
      decide +kernel
    rw [read] at checked
    exact Option.some.inj checked
  exact ⟨numeric, (values value read).2.1.mp finite, value, read, finite⟩

/-- A quotient of two finite numbers that is infinite. It has no whole part, and a script that gives
it as a generation is not read to its end. -/
theorem readNumber_value_beyond :
    let token := "1e308/1e-308"
    let context : Context Float := ⟨.standard, .standard, .standard⟩
    isNumeric Float token = true
      ∧ (readNumber token : Except Fault Float).toOption.map isFinite = some false
      ∧ ((readNumber token : Except Fault Float) >>= wholePart) = .error .overflow
      ∧ (interpret context ("[[ T " ++ token ++ " ]]")).toOption.isNone = true := by
  decide +kernel

end Showreel.Script
