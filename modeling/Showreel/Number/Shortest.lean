import Showreel.Number.Binary64
import Showreel.Number.Layout

/-!
Contract: the fewest digits that read back as the same double.

Owns:
- the interval of numbers that round to a given double;
- the search over decimal grids, coarsest first, with the nearer of two hits;
- the double instance of the scalar operations.

Does not own: the layout of the digits.
-/

namespace Showreel.Number.Binary64

/-- The numbers that round to one double, over a common denominator: the value and
the two midpoints to its neighbours, which belong to it when its significand is even. -/
structure RoundingInterval where
  low : Nat
  value : Nat
  high : Nat
  denominator : Nat
  closed : Bool
deriving DecidableEq, Repr

/-- Whether `numerator / denominator` rounds to the double. -/
def RoundingInterval.contains (interval : RoundingInterval) (numerator denominator : Nat) : Bool :=
  let left := interval.low * denominator
  let right := interval.high * denominator
  let point := numerator * interval.denominator
  if interval.closed then decide (left ≤ point ∧ point ≤ right)
  else decide (left < point ∧ point < right)

/-- The rounding interval of a positive finite magnitude. Below a power of two the
neighbours are twice as close. -/
def roundingInterval (bits : Nat) : RoundingInterval :=
  let (significand, exponent) := unpack bits
  let gapBelow := if significand = 2 ^ fractionBits ∧ 2 ^ (fractionBits + 1) ≤ bits then 1 else 2
  let scale : Nat × Nat :=
    match exponent - 2 with
    | .ofNat places => (2 ^ places, 1)
    | .negSucc places => (1, 2 ^ (places + 1))
  { low := (4 * significand - gapBelow) * scale.1
    value := 4 * significand * scale.1
    high := (4 * significand + 2) * scale.1
    denominator := scale.2
    closed := significand % 2 = 0 }

/-- The point of the grid of `count` significant digits that reads back, if there is
one: of the two grid points around the value the nearer, of two equally near the even. -/
def gridPoint (interval : RoundingInterval) (exponent : Int) (count : Nat) : Option Nat :=
  let unit : Nat × Nat :=
    match exponent + 1 - (count : Int) with
    | .ofNat places => (10 ^ places, 1)
    | .negSucc places => (1, 10 ^ (places + 1))
  let numerator := interval.value * unit.2
  let denominator := interval.denominator * unit.1
  let below := numerator / denominator
  let nearer := roundedQuotient numerator denominator
  let other := if nearer = below then below + 1 else below
  if interval.contains (nearer * unit.1) unit.2 then some nearer
  else if interval.contains (other * unit.1) unit.2 then some other
  else none

/-- The first grid, from `count` digits on, that holds a number which reads back. -/
def searchGrids (interval : RoundingInterval) (exponent : Int) : Nat → Nat → Nat × Nat
  | count, 0 => (count, (gridPoint interval exponent count).getD 0)
  | count, more + 1 =>
      match gridPoint interval exponent count with
      | some point => (count, point)
      | none => searchGrids interval exponent (count + 1) more

/-- The fewest digits that read back as a positive finite magnitude; seventeen always do. -/
def shortestDigits (bits : Nat) : Digits :=
  let interval := roundingInterval bits
  let exponent := decimalExponent interval.value interval.denominator
  let (count, point) := searchGrids interval exponent 1 16
  let digits := decimalDigits point
  ⟨dropTrailingZeros digits, exponent + 1 + (digits.length - count : Nat)⟩

/-- The text of a double: its shortest digits, `inf` or `nan`. -/
def shortest (value : Float) : String :=
  let bits := magnitudeBits value
  if bits = 0 then withSign (isNegative value) "0.0"
  else if bits < infinityBits then
    withSign (isNegative value) ((shortestDigits bits).write .full)
  else if bits = infinityBits then withSign (isNegative value) "inf"
  else "nan"

/-- A natural power of a double. One stays one, which is all that is known here of the machine's
power function. -/
def naturalPower (base : Float) (exponent : Nat) : Float :=
  if base == 1 then 1 else Float.pow base (Float.ofNat exponent)

instance : Scalar Float where
  decidableLT := inferInstance
  decidableLE := inferInstance
  denotation := denotation
  signed := isNegative
  ofRat := ofRat
  ofDecimal := ofDecimal
  power := naturalPower
  shortest := shortest

/-- Degrees in one radian. -/
def degreesPerRadian : Float := 180 / 3.141592653589793

instance : Transcendental Float where
  logarithm := Float.log
  realPower := Float.pow
  hypotenuse := hypotenuse
  direction dy dx := Float.atan2 dy dx * degreesPerRadian

end Showreel.Number.Binary64
