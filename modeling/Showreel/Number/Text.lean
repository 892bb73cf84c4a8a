import Showreel.Number.Layout
import Showreel.Number.Scalar

/-!
Contract: the written forms of a scalar.

Owns: the forms that scripts, reports and tables use, each from the exact value:
- without a point when whole, else the shortest digits;
- a fixed count of decimal places;
- at most six significant digits.

Does not own: the shortest digits themselves.
-/

namespace Showreel.Number.Scalar

variable {α : Type} [Scalar α]

/-- Whole numbers without a point, everything else in the shortest form. -/
def plainText (value : α) : String :=
  match denotation value with
  | .finite exact => if exact.den = 1 then toString exact.num else shortest value
  | _ => shortest value

/-- A whole number in the form it has once it is a scalar. -/
def wholeText (α : Type) [Scalar α] (whole : Int) : Except Fault String :=
  (ofInt whole : Except Fault α).map plainText

private def magnitudeText (write : Rat → String) (value : α) : String :=
  match denotation value with
  | .finite exact => withSign (signed value) (write (if exact < 0 then -exact else exact))
  | .infinite negative => withSign negative "inf"
  | .undefined => "nan"

/-- A fixed count of decimal places. -/
def fixedText (places : Nat) (value : α) : String :=
  magnitudeText (fixedMagnitude places) value

/-- At most six significant digits. -/
def briefText (value : α) : String :=
  magnitudeText briefMagnitude value

end Showreel.Number.Scalar
