import Showreel.Fault
import Showreel.Number.Denotation

/-!
Contract: the arithmetic that the library is written against.

Owns:
- `Scalar`, the operations a number type offers: field operations, order,
  what number a value denotes, and how it is written;
- the derived operations that can fail: division, conversion to and from whole
  numbers, powers;
- the remainder that takes the sign of the divisor, and closeness.

Does not own: the number types themselves. Playback runs on doubles; the same
definitions read over exact rationals give the laws of the motion.
-/

namespace Showreel.Number

/-- A type of numbers with the operations that scripts and playback use.

`ofRat` gives the value nearest to an exact number, `denotation` the exact
number a value stands for, and `shortest` the fewest digits that read back. -/
class Scalar (α : Type) extends Add α, Sub α, Mul α, Div α, Neg α, LT α, LE α, BEq α where
  decidableLT : DecidableLT α
  decidableLE : DecidableLE α
  denotation : α → Denotation
  /-- Whether the value is written with a minus sign. -/
  signed : α → Bool
  ofRat : Rat → α
  /-- The value nearest to `mantissa * 10 ^ exponent`. -/
  ofDecimal : Nat → Int → α
  power : α → Nat → α
  shortest : α → String

/-- The functions of distance, growth and direction, which only playback needs. -/
class Transcendental (α : Type) where
  logarithm : α → α
  realPower : α → α → α
  /-- Length of the hypotenuse over two legs. -/
  hypotenuse : α → α → α
  /-- Direction of `(dx, dy)` in degrees, from `dy` and `dx` in this order. -/
  direction : α → α → α

namespace Scalar

variable {α : Type} [Scalar α]

instance : DecidableLT α := Scalar.decidableLT

instance : DecidableLE α := Scalar.decidableLE

instance (priority := low) (n : Nat) : OfNat α n := ⟨Scalar.ofRat (n : Rat)⟩

instance (priority := low) : OfScientific α where
  ofScientific mantissa isNegative exponent :=
    Scalar.ofRat (decimalValue mantissa (if isNegative then -(exponent : Int) else exponent))

instance (priority := low) : Inhabited α := ⟨Scalar.ofRat 0⟩

def isFinite (value : α) : Bool :=
  match denotation value with
  | .finite _ => true
  | _ => false

def isInfinite (value : α) : Bool :=
  match denotation value with
  | .infinite _ => true
  | _ => false

def isZero (value : α) : Bool :=
  match denotation value with
  | .finite exact => exact = 0
  | _ => false

/-- The whole part of a value, dropping the fraction toward zero. -/
def wholePart (value : α) : Except Fault Int :=
  match denotation value with
  | .finite exact => .ok (truncate exact)
  | .infinite _ => .error .overflow
  | .undefined => .error .noWholeNumber

/-- The nearest whole number, a tie going to the even one. -/
def nearest (value : α) : Except Fault Int :=
  match denotation value with
  | .finite exact => .ok (nearestWhole exact)
  | .infinite _ => .error .overflow
  | .undefined => .error .noWholeNumber

/-- Whether a count has come to a value. The exact numbers are compared, so that no count is
rounded. -/
def reaches (count : Nat) (value : α) : Bool :=
  match denotation value with
  | .finite exact => exact ≤ (count : Rat)
  | .infinite negative => negative
  | .undefined => false

/-- The value nearest to an exact number, which must not be out of range. -/
def inRange (exact : Rat) : Except Fault α :=
  let value : α := ofRat exact
  if isFinite value then .ok value else .error .overflow

/-- The value nearest to a whole number. -/
def ofInt (whole : Int) : Except Fault α :=
  inRange (whole : Rat)

/-- A whole number that is converted is in range. -/
theorem isFinite_of_ofInt {whole : Int} {value : α} (converted : ofInt whole = .ok value) :
    isFinite value = true := by
  unfold ofInt inRange at converted
  dsimp only at converted
  split at converted
  · rename_i finite
    cases converted
    exact finite
  · cases converted

/-- The value nearest to the quotient of two whole numbers. -/
def ofQuotient (numerator denominator : Int) : Except Fault α :=
  if denominator = 0 then .error .divisionByZero
  else inRange ((numerator : Rat) / (denominator : Rat))

/-- Division, which has no answer for the divisor zero. -/
def divide (dividend divisor : α) : Except Fault α :=
  if divisor == (0 : α) then .error .divisionByZero else .ok (dividend / divisor)

/-- A natural power of a finite value must stay finite. -/
def powerOf (base : α) (exponent : Nat) : Except Fault α :=
  let result := power base exponent
  if isFinite base && isInfinite result then .error .overflow else .ok result

/-- The remainder by a finite divisor, with the divisor's sign; a zero remainder takes
that sign too, and what is not finite has no remainder. -/
def remainder (dividend divisor : α) : α :=
  match denotation dividend, denotation divisor with
  | .finite a, .finite b =>
      let rest := a - b * (truncate (a / b) : Int)
      if rest = 0 then (if b < 0 then -(0 : α) else 0)
      else if (rest < 0) = (b < 0) then ofRat rest
      else ofRat rest + divisor
  | _, _ => dividend - dividend

def absolute (value : α) : α :=
  if signed value then -value else value

/-- The first of two values unless the second is smaller. -/
def smaller (first second : α) : α :=
  if second < first then second else first

/-- The first of two values unless the second is larger. -/
def larger (first second : α) : α :=
  if first < second then second else first

/-- Whether two values agree up to one part in a thousand million. -/
def closeTo (first second : α) : Bool :=
  if first == second then true
  else if isInfinite first || isInfinite second then false
  else
    let difference := absolute (second - first)
    let tolerance : α := 1e-9
    decide (difference ≤ absolute (tolerance * second))
      || decide (difference ≤ absolute (tolerance * first))

end Scalar

end Showreel.Number
