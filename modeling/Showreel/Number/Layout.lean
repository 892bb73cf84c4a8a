import Showreel.Number.Denotation

/-!
Contract: how decimal digits are laid out as text.

Owns:
- digits with a decimal exponent, and the two ways to write them: positional
  and with an exponent;
- the style record that fixes where one way ends and the other starts;
- the writing of an exact number with a fixed count of places or of significant
  digits;
- whole numbers in groups of three digits.

Does not own: which digits stand for a machine value.
-/

namespace Showreel.Number

/-- Decimal digits of a positive number: `0.d₁d₂d₃… * 10 ^ point`, the first digit not
zero. -/
structure Digits where
  digits : List Nat
  point : Int
deriving DecidableEq, Repr

def digitChar (digit : Nat) : Char :=
  Char.ofNat ('0'.toNat + digit)

/-- The decimal digits of a natural number, the highest first; none for zero. -/
def decimalDigits (value : Nat) : List Nat :=
  if value = 0 then [] else (Nat.toDigits 10 value).map fun char => char.toNat - '0'.toNat

def dropTrailingZeros (digits : List Nat) : List Nat :=
  (digits.reverse.dropWhile (· == 0)).reverse

/-- A decimal style: the range of exponents that is written positionally, and whether
a whole number keeps a final `.0`. -/
structure DecimalStyle where
  leastPositional : Int
  leastScientific : Int
  keepsPoint : Bool
deriving DecidableEq, Repr

/-- Machine values are positional from `1e-04` to below `1e16` and keep their point. -/
def DecimalStyle.full : DecimalStyle := ⟨-4, 16, true⟩

/-- Six significant digits are positional from `1e-04` to below `1e06`, without a bare
point. -/
def DecimalStyle.brief : DecimalStyle := ⟨-4, 6, false⟩

def digitText (digits : List Nat) : String :=
  String.ofList (digits.map digitChar)

/-- An exponent is written with its sign and at least two digits. -/
def exponentText (exponent : Int) : String :=
  let magnitude := exponent.natAbs
  let text := toString magnitude
  let padded := if magnitude < 10 then "0" ++ text else text
  if exponent < 0 then "e-" ++ padded else "e+" ++ padded

def Digits.positional (number : Digits) (keepsPoint : Bool) : String :=
  match number.point with
  | .ofNat whole =>
      let padded := number.digits ++ List.replicate (whole - number.digits.length) 0
      let fraction := padded.drop whole
      let head := if whole = 0 then "0" else digitText (padded.take whole)
      if fraction.isEmpty then (if keepsPoint then head ++ ".0" else head)
      else head ++ "." ++ digitText fraction
  | .negSucc gap =>
      "0." ++ digitText (List.replicate (gap + 1) 0 ++ number.digits)

def Digits.scientific (number : Digits) : String :=
  let exponent := exponentText (number.point - 1)
  match number.digits with
  | [] => "0"
  | [first] => digitText [first] ++ exponent
  | first :: rest => digitText [first] ++ "." ++ digitText rest ++ exponent

def Digits.write (style : DecimalStyle) (number : Digits) : String :=
  if style.leastPositional ≤ number.point - 1 ∧ number.point - 1 < style.leastScientific then
    number.positional style.keepsPoint
  else number.scientific

/-- The sign and the text of a magnitude. -/
def withSign (negative : Bool) (text : String) : String :=
  if negative then "-" ++ text else text

/-- A non-negative number with a fixed count of decimal places, a tie going to the even
last digit. -/
def fixedMagnitude (places : Nat) (magnitude : Rat) : String :=
  let scaled := roundedQuotient (magnitude.num.natAbs * 10 ^ places) magnitude.den
  let whole := toString (scaled / 10 ^ places)
  if places = 0 then whole
  else
    let fraction := toString (scaled % 10 ^ places)
    whole ++ "." ++ String.ofList (List.replicate (places - fraction.length) '0') ++ fraction

/-- The greatest `e` with `10 ^ e` at most a positive quotient. -/
def decimalExponent (numerator denominator : Nat) : Int :=
  let reaches (exponent : Int) : Bool :=
    match exponent with
    | .ofNat places => decide (denominator * 10 ^ places ≤ numerator)
    | .negSucc places => decide (denominator ≤ numerator * 10 ^ (places + 1))
  let guess : Int :=
    ((decimalDigits numerator).length : Int) - (decimalDigits denominator).length
  if reaches guess then guess else guess - 1

/-- The digits of a positive quotient rounded to `count` places, without the zeros that
end them. -/
def significantDigits (count : Nat) (numerator denominator : Nat) : Digits :=
  let exponent := decimalExponent numerator denominator
  let scaled :=
    match (count : Int) - 1 - exponent with
    | .ofNat places => roundedQuotient (numerator * 10 ^ places) denominator
    | .negSucc places => roundedQuotient numerator (denominator * 10 ^ (places + 1))
  let digits := decimalDigits scaled
  ⟨dropTrailingZeros digits, exponent + 1 + (digits.length - count : Nat)⟩

/-- A non-negative number with at most six significant digits. -/
def briefMagnitude (magnitude : Rat) : String :=
  if magnitude = 0 then "0"
  else (significantDigits 6 magnitude.num.natAbs magnitude.den).write .brief

/-- A comma after each digit that a multiple of three digits follows. -/
def insertCommas : List Char → List Char
  | [] => []
  | digit :: rest =>
      if rest ≠ [] ∧ rest.length % 3 = 0 then digit :: ',' :: insertCommas rest
      else digit :: insertCommas rest

/-- A number in groups of three digits, counted from the right. -/
def grouped (value : Nat) : String :=
  String.ofList (insertCommas (toString value).toList)

end Showreel.Number
