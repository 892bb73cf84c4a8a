/-!
Contract: what number a machine value stands for, and the roundings of exact
rationals.

Owns:
- the three-way split of values into finite numbers, infinities and values
  that are no number;
- rounding a rational toward zero and to the nearest whole number, with a tie
  going to the even neighbour.

Does not own: any machine format.
-/

namespace Showreel.Number

-- Powers of whole numbers are the built-in ones, whatever algebra is at hand.
attribute [instance (10000)] instPowNat instNatPowNat Int.instNatPow

/-- The number that a machine value stands for. -/
inductive Denotation where
  | finite (value : Rat)
  | infinite (negative : Bool)
  | undefined
deriving DecidableEq, Repr

/-- The whole part, dropping the fraction toward zero. -/
def truncate (value : Rat) : Int :=
  value.num.tdiv value.den

/-- The quotient rounded to the nearest whole number; a tie goes to the even one. -/
def roundedQuotient (numerator denominator : Nat) : Nat :=
  let whole := numerator / denominator
  let twice := 2 * (numerator % denominator)
  if twice < denominator then whole
  else if denominator < twice then whole + 1
  else if whole % 2 = 0 then whole
  else whole + 1

/-- The nearest whole number; a tie goes to the even one. -/
def nearestWhole (value : Rat) : Int :=
  if value.num < 0 then -(roundedQuotient value.num.natAbs value.den : Int)
  else roundedQuotient value.num.natAbs value.den

/-- The exact value of `mantissa * 10 ^ exponent`. -/
def decimalValue (mantissa : Nat) (exponent : Int) : Rat :=
  match exponent with
  | .ofNat places => ((mantissa * 10 ^ places : Nat) : Rat)
  | .negSucc places => mkRat mantissa (10 ^ (places + 1))

end Showreel.Number
