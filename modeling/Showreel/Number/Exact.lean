import Showreel.Number.Layout
import Showreel.Number.Scalar

/-!
Contract: exact rationals as a scalar type.

Owns: the instance under which the laws of motion, fading and timing are stated.

Does not own: a decimal text; a rational is written as a quotient.
-/

namespace Showreel.Number.Exact

def quotientText (value : Rat) : String :=
  if value.den = 1 then toString value.num
  else toString value.num ++ "/" ++ toString value.den

instance : Scalar Rat where
  decidableLT := inferInstance
  decidableLE := inferInstance
  denotation := .finite
  signed value := decide (value < 0)
  ofRat value := value
  ofDecimal := decimalValue
  power base exponent := base ^ exponent
  shortest := quotientText

end Showreel.Number.Exact
