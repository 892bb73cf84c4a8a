import Showreel.Number.Scalar

/-!
Contract: double precision numbers as a scalar type.

Owns:
- the exact rational a double stands for;
- the double nearest to a rational, a tie going to the even significand, with
  gradual underflow and overflow to infinity;
- the double nearest to a decimal and to a square root.

Does not own: how a double is written.
-/

namespace Showreel.Number.Binary64

/-- The significand has this many bits after its leading one. -/
def fractionBits : Nat := 52

/-- The least exponent of a normal double. -/
def leastExponent : Int := -1022

def infinityBits : Nat := 0x7FF * 2 ^ fractionBits

/-- The word's magnitude part: every bit but the sign. -/
def magnitudeBits (value : Float) : Nat :=
  value.toBits.toNat % 2 ^ (63 : Nat)

def isNegative (value : Float) : Bool :=
  decide (2 ^ (63 : Nat) ≤ value.toBits.toNat)

/-- Significand and binary exponent of a finite magnitude: it is
`significand * 2 ^ exponent`. -/
def unpack (bits : Nat) : Nat × Int :=
  let field := bits / 2 ^ fractionBits
  let fraction := bits % 2 ^ fractionBits
  if field = 0 then (fraction, leastExponent - fractionBits)
  else (fraction + 2 ^ fractionBits, (field : Int) - 1 + leastExponent - fractionBits)

/-- The exact value of `significand * 2 ^ exponent`. -/
def binaryValue (significand : Nat) (exponent : Int) : Rat :=
  match exponent with
  | .ofNat places => ((significand * 2 ^ places : Nat) : Rat)
  | .negSucc places => mkRat significand (2 ^ (places + 1))

def denotation (value : Float) : Denotation :=
  let bits := magnitudeBits value
  if bits < infinityBits then
    let (significand, exponent) := unpack bits
    let magnitude := binaryValue significand exponent
    .finite (if isNegative value then -magnitude else magnitude)
  else if bits = infinityBits then .infinite (isNegative value)
  else .undefined

/-- The greatest `e` with `2 ^ e` at most `numerator / denominator`, both positive. -/
def binaryExponent (numerator denominator : Nat) : Int :=
  let guess : Int := (numerator.log2 : Int) - denominator.log2
  let fits :=
    match guess with
    | .ofNat places => decide (denominator * 2 ^ places ≤ numerator)
    | .negSucc places => decide (denominator ≤ numerator * 2 ^ (places + 1))
  if fits then guess else guess - 1

/-- The word of the double nearest to a non-negative quotient.

The significand, its leading one included, is added to the exponent field, so a
carry out of the rounding moves on to the next exponent and in the end to
infinity. -/
def nearestBits (numerator denominator : Nat) : Nat :=
  if numerator = 0 then 0
  else
    let exponent := max (binaryExponent numerator denominator) leastExponent
    let significand :=
      match (fractionBits : Int) - exponent with
      | .ofNat places => roundedQuotient (numerator * 2 ^ places) denominator
      | .negSucc places => roundedQuotient numerator (denominator * 2 ^ (places + 1))
    min ((exponent - leastExponent).toNat * 2 ^ fractionBits + significand) infinityBits

def ofMagnitude (numerator denominator : Nat) : Float :=
  Float.ofBits (UInt64.ofNat (nearestBits numerator denominator))

/-- The double nearest to a rational. -/
def ofRat (exact : Rat) : Float :=
  let magnitude := ofMagnitude exact.num.natAbs exact.den
  if exact.num < 0 then -magnitude else magnitude

/-- The double nearest to `mantissa * 10 ^ exponent`. Exponents that lead out of the
range whatever the mantissa are settled before any power of ten is formed. -/
def ofDecimal (mantissa : Nat) (exponent : Int) : Float :=
  if mantissa = 0 then 0
  else
    match exponent with
    | .ofNat places =>
        if 400 ≤ places then Float.ofBits (UInt64.ofNat infinityBits)
        else ofMagnitude (mantissa * 10 ^ places) 1
    | .negSucc places =>
        if mantissa.log2 + 1100 ≤ 3 * places then 0
        else ofMagnitude mantissa (10 ^ (places + 1))

/-- The greatest whole number below `2 ^ bits` whose square is at most `square`. -/
def integerRoot (square : Nat) : Nat → Nat
  | 0 => 0
  | bits + 1 =>
      -- bits are settled from the highest down, the lower ones on a coarser square
      let higher := 2 * integerRoot (square / 4) bits
      if (higher + 1) * (higher + 1) ≤ square then higher + 1 else higher

/-- The double nearest to the square root of a non-negative rational: the root is
taken with more bits than a double has, and a last bit records whether it is exact. -/
def rootOfRat (exact : Rat) : Float :=
  if exact.num ≤ 0 then 0
  else
    let shift := (70 - (binaryExponent exact.num.natAbs exact.den) / 2).toNat
    let square := exact.num.natAbs * 4 ^ shift / exact.den
    let root := integerRoot square (square.log2 / 2 + 1)
    let sticky := if root * root * exact.den = exact.num.natAbs * 4 ^ shift then 0 else 1
    ofMagnitude (2 * root + sticky) (2 ^ (shift + 1))

/-- Length of the hypotenuse, computed from the exact sum of the squares. -/
def hypotenuse (first second : Float) : Float :=
  match denotation first, denotation second with
  | .finite a, .finite b => rootOfRat (a * a + b * b)
  | .infinite _, _ => Float.ofBits (UInt64.ofNat infinityBits)
  | _, .infinite _ => Float.ofBits (UInt64.ofNat infinityBits)
  | _, _ => first + second

end Showreel.Number.Binary64
